import MiniCloud.GatewayInvoke.Gateway
import MiniCloud.Proof.Checksum
import MiniCloud.Proof.Routing
import MiniCloud.Proof.StoreView

/-!
# Selection from what the store accepts

The discovery validator and the selector's own were written apart; the first implies the second.
-/

namespace MiniCloud.GatewayInvoke

open Lib Problem Digest Model Discovery GatewayDiscovery Routing

theorem validate_target {t : RouteTarget} (h : validateTarget t = .ok ()) : t.validate = .ok () := by
  simp only [validateTarget, RouteTarget.validate, checks_ok, List.forall_mem_cons, mustNot_fails,
    Bool.or_eq_false_iff, List.not_mem_nil, false_imp_iff, implies_true, and_true] at h ⊢
  obtain ⟨⟨⟨⟨⟨hid, hepoch⟩, hgeneration⟩, hzero⟩, htotal⟩, hpolicy⟩ := h
  exact ⟨hid, ⟨hepoch, hgeneration⟩, hpolicy, hzero, htotal⟩

theorem servingRoute_valid {s : Discovery.Snapshot} (h : s.WellFormed)
    (hpresent : s.route.present = true) : (servingRoute s.route).Valid := by
  have hroute := (route_published hpresent).mp h.route
  exact {
    functionID := (congrArg idPattern hroute.functionID).trans (header_ok h.header).2.1
    revision := hroute.revision
    bounded := hroute.bounded
    enabled := hroute.enabled
    targets := fun t ht => validate_target (hroute.targets t ht)
    distinct := hroute.distinct
    weights := hroute.weights
    hashVersion := hroute.hashVersion
    salt := hroute.salt }

/-- Whether a snapshot lets its Function be invoked. -/
structure Serving (s : Discovery.Snapshot) : Prop where
  active : s.function.lifecycle = .active
  trigger : s.trigger.enabled = true
  present : s.route.present = true
  enabled : s.route.enabled = true

/--
**Whatever the store accepts can be routed.** From a valid snapshot, any affinity key is given a
target exactly when the Function is active and its Trigger and Route are enabled.
-/
theorem selects_iff_serving {view : View} (hvalid : view.snapshot.validate = .ok ())
    {affinityKey : GoString} (hkey : affinityKey.length < 2 ^ 32) :
    (∃ decision, selectTarget view affinityKey = .ok decision) ↔ Serving view.snapshot := by
  constructor
  · rintro ⟨decision, h⟩
    rw [selectTarget] at h
    simp only [↓after_ok, wrapping_ok, selectServing, selectValidated, checks_ok,
      List.forall_mem_cons, Bool.or_eq_false_iff, bne_eq_false_iff_eq, Bool.not_eq_false',
      List.not_mem_nil, false_imp_iff, implies_true, and_true] at h
    obtain ⟨⟨⟨hactive, htrigger⟩, hpresent⟩, -, henabled, -⟩ := h
    exact ⟨hactive, htrigger, hpresent, henabled⟩
  · intro h
    -- The selector validates the Route again, and finds nothing the snapshot's check let pass.
    have hroute := servingRoute_valid (validate_ok.mp hvalid).1 h.present
    obtain ⟨preimage, target, -, -, hselect⟩ := selectValidated_ok hroute h.enabled hkey
    refine ⟨⟨sum preimage, bucketFromHash (Sha256.hash preimage), target⟩, ?_⟩
    rw [selectTarget, after_ok, wrapping_ok, selectServing, after_ok, ServingRoute.validate_ok]
    exact ⟨by simp [checks, h.active, h.trigger, h.present], hroute, hselect⟩

theorem selects_iff_serving_sample :
    ∃ decision, selectTarget ⟨sampleSnapshot 1, []⟩ "key" = .ok decision :=
  (@selects_iff_serving ⟨sampleSnapshot 1, []⟩ (sampleBody_wellFormed (by decide)).stamped "key"
    (by decide)).mpr ⟨rfl, rfl, rfl, rfl⟩

end MiniCloud.GatewayInvoke
