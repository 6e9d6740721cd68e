import MiniCloud.Model.Route

/-!
# Serving routes

`internal/model/route.go`: the projection of a Route that a gateway selects from. It carries no
metadata and no affinity, which their owners validate.
-/

namespace MiniCloud.Model

open Lib Problem Digest

structure ServingRoute where
  functionID : GoString
  routeRevision : UInt64
  targets : List RouteTarget
  hashVersion : GoString
  salt : GoString
  enabled : Bool
  deriving DecidableEq

def Route.servingRoute (r : Route) : ServingRoute where
  functionID := r.functionID
  routeRevision := r.routeRevision
  targets := r.targets
  hashVersion := r.hashVersion
  salt := r.salt
  enabled := r.enabled

def ServingRoute.validate (r : ServingRoute) : Validation := do
  checks [
    mustNot (!idPattern r.functionID) "function_id" "must be a valid identifier",
    mustNot (r.routeRevision == 0) "route_revision" "must be greater than zero",
    mustNot (maxRouteTargets < r.targets.length) "targets"
      "must not contain more than 32 entries",
    mustNot (!r.enabled && r.targets != []) "targets" "must be empty when the route is disabled",
    mustNot (r.enabled && r.targets == []) "targets" "must not be empty when the route is enabled"]
  validateRouteTargets r.targets
  checks [
    mustNot (r.hashVersion != hashVersionSHA256BPSV1) "hash_version" "is not supported",
    mustNot (r.salt.length != 16) "salt" "must contain exactly 128 bits"]

/-- What the validator tests. -/
structure ServingRoute.Valid (r : ServingRoute) : Prop where
  functionID : idPattern r.functionID = true
  revision : r.routeRevision ≠ 0
  bounded : r.targets.length ≤ maxRouteTargets
  enabled : r.enabled = true ↔ r.targets ≠ []
  targets : ∀ t ∈ r.targets, t.validate = .ok ()
  distinct : (r.targets.map RouteTarget.key).Nodup
  weights : r.targets ≠ [] → totalWeight r.targets = totalRouteWeightBasisPoints
  hashVersion : r.hashVersion = hashVersionSHA256BPSV1
  salt : r.salt.length = 16

theorem validateRouteTargets_ok {targets : List RouteTarget} :
    validateRouteTargets targets = .ok () ↔
      ((∀ t ∈ targets, t.validate = .ok ()) ∧ (targets.map RouteTarget.key).Nodup) ∧
      (targets ≠ [] → totalWeight targets = totalRouteWeightBasisPoints) := by
  rw [validateRouteTargets, seq_ok, checkEach_ok, checks_ok]
  simp only [List.mem_singleton, forall_eq, mustNot_fails, Bool.and_eq_false_iff,
    bne_eq_false_iff_eq, List.not_mem_nil, not_false_eq_true, implies_true, true_and,
    or_iff_not_imp_left, ne_eq]

theorem ServingRoute.validate_ok {r : ServingRoute} : r.validate = .ok () ↔ r.Valid := by
  have henabled : (!r.enabled && r.targets != []) = false ∧ (r.enabled && r.targets == []) = false ↔
      (r.enabled = true ↔ r.targets ≠ []) := by
    cases r.enabled <;> simp
  simp only [ServingRoute.validate, seq_ok, checks_ok, validateRouteTargets_ok,
    List.forall_mem_cons, mustNot_fails, Bool.not_eq_false', beq_eq_false_iff_ne,
    bne_eq_false_iff_eq, decide_eq_false_iff_not, not_lt, List.not_mem_nil, false_imp_iff,
    implies_true, and_true]
  constructor
  · rintro ⟨⟨hid, hrevision, hbounded, hdisabled, hempty⟩, ⟨⟨htargets, hdistinct⟩, hweights⟩, hhash,
      hsalt⟩
    exact ⟨hid, hrevision, hbounded, henabled.mp ⟨hdisabled, hempty⟩, htargets, hdistinct, hweights,
      hhash, hsalt⟩
  · intro h
    obtain ⟨hdisabled, hempty⟩ := henabled.mpr h.enabled
    exact ⟨⟨h.functionID, h.revision, h.bounded, hdisabled, hempty⟩,
      ⟨⟨h.targets, h.distinct⟩, h.weights⟩, h.hashVersion, h.salt⟩

/-- A valid Route has a valid projection. -/
theorem Route.servingRoute_valid {r : Route} (h : r.validate = .ok ()) : r.servingRoute.Valid := by
  rw [← ServingRoute.validate_ok]
  obtain ⟨-, h⟩ := seq_ok.mp h
  obtain ⟨hfields, h⟩ := seq_ok.mp h
  obtain ⟨htargets, h⟩ := seq_ok.mp h
  obtain ⟨-, hhash⟩ := seq_ok.mp h
  rw [ServingRoute.validate, seq_ok, seq_ok]
  refine ⟨hfields, htargets, ?_⟩
  rw [checks_ok] at hhash ⊢
  simp only [List.forall_mem_cons] at hhash ⊢
  exact ⟨hhash.1, hhash.2.2⟩

/-- What the sum of the weights was checked as, it is: the machine word does not wrap. -/
theorem weight_le {t : RouteTarget} (h : t.validate = .ok ()) :
    0 < t.weightBasisPoints.toNat ∧ t.weightBasisPoints.toNat ≤ 10000 := by
  rw [RouteTarget.validate, checks_ok] at h
  simp only [List.forall_mem_cons, mustNot_fails, Bool.or_eq_false_iff, beq_eq_false_iff_ne,
    decide_eq_false_iff_not] at h
  obtain ⟨-, -, -, ⟨hzero, hmax⟩, -⟩ := h
  rw [UInt32.lt_iff_toNat_lt, not_lt] at hmax
  have hne : t.weightBasisPoints.toNat ≠ 0 := fun h0 => hzero (UInt32.toNat_inj.mp h0)
  have htotal : totalRouteWeightBasisPoints.toNat = 10000 := rfl
  omega

end MiniCloud.Model
