import MiniCloud.Proof.StoreView

/-!
# Served revisions never regress

The store compares an arriving snapshot with the one it holds, never with older ones. What makes
that enough is that the comparison is an order on valid snapshots: `Follows` is reflexive and
transitive, and on valid snapshots of one Function it is exactly what `revisionsDoNotRegress` tests.
The absent Route is its least element, since a valid absent Route is blank.
-/

namespace MiniCloud.GatewayDiscovery

open Lib Problem Digest ServingAuth Discovery

/-- No revision is lower, and content changes only with its revision. -/
structure Revised (current next : Snapshot) : Prop where
  function : current.function.resourceRevision ≤ next.function.resourceRevision
  trigger : current.trigger.resourceRevision ≤ next.trigger.resourceRevision
  routeResource : current.route.resourceRevision ≤ next.route.resourceRevision
  routeRevision : current.route.routeRevision ≤ next.route.routeRevision
  sameFunction : current.function.resourceRevision = next.function.resourceRevision →
    current.function = next.function
  sameTrigger : current.trigger.resourceRevision = next.trigger.resourceRevision →
    current.trigger = next.trigger
  sameRoute : current.route.resourceRevision = next.route.resourceRevision →
    current.route.routeRevision = next.route.routeRevision → current.route = next.route

/-- And no Route disappears. -/
structure Follows (current next : Snapshot) : Prop extends Revised current next where
  present : current.route.present = true → next.route.present = true

theorem Follows.refl (s : Snapshot) : Follows s s where
  function := UInt64.le_refl _
  trigger := UInt64.le_refl _
  routeResource := UInt64.le_refl _
  routeRevision := UInt64.le_refl _
  sameFunction _ := rfl
  sameTrigger _ := rfl
  sameRoute _ _ := rfl
  present := id

/-- Between equal ends everything is equal. -/
theorem eq_of_between {a b c : UInt64} (hab : a ≤ b) (hbc : b ≤ c) (hac : a = c) :
    a = b ∧ b = c := by
  have hba : b ≤ a := hac ▸ hbc
  have hab' : a = b := UInt64.le_antisymm hab hba
  exact ⟨hab', hab' ▸ hac⟩

theorem Follows.trans {a b c : Snapshot} (hab : Follows a b) (hbc : Follows b c) :
    Follows a c where
  function := UInt64.le_trans hab.function hbc.function
  trigger := UInt64.le_trans hab.trigger hbc.trigger
  routeResource := UInt64.le_trans hab.routeResource hbc.routeResource
  routeRevision := UInt64.le_trans hab.routeRevision hbc.routeRevision
  present := fun h => hbc.present (hab.present h)
  sameFunction := by
    intro heq
    obtain ⟨h₁, h₂⟩ := eq_of_between hab.function hbc.function heq
    exact (hab.sameFunction h₁).trans (hbc.sameFunction h₂)
  sameTrigger := by
    intro heq
    obtain ⟨h₁, h₂⟩ := eq_of_between hab.trigger hbc.trigger heq
    exact (hab.sameTrigger h₁).trans (hbc.sameTrigger h₂)
  sameRoute := by
    intro hresource hrevision
    obtain ⟨h₁, h₂⟩ := eq_of_between hab.routeResource hbc.routeResource hresource
    obtain ⟨h₃, h₄⟩ := eq_of_between hab.routeRevision hbc.routeRevision hrevision
    exact (hab.sameRoute h₁ h₃).trans (hbc.sameRoute h₂ h₄)

/-! ## The comparison of the source -/

theorem sameHTTPTrigger_iff {left right : HTTPTrigger} :
    sameHTTPTrigger left right = true ↔ left = right := by
  obtain ⟨id, functionID, revision, enabled, policy, digest⟩ := left
  obtain ⟨id', functionID', revision', enabled', policy', digest'⟩ := right
  simp only [sameHTTPTrigger, Bool.and_eq_true, beq_iff_eq, HTTPTrigger.mk.injEq, and_assoc]
  cases digest <;> cases digest' <;> simp

theorem sameRoute_iff {left right : Route} : sameRoute left right = true ↔ left = right := by
  obtain ⟨_, _, _, _, _, _, _, _, _, _, _⟩ := left
  obtain ⟨_, _, _, _, _, _, _, _, _, _, _⟩ := right
  simp only [sameRoute, Bool.and_eq_true, beq_iff_eq, Route.mk.injEq, and_assoc]

variable {current next : Snapshot} {s : Store}

/-- On valid snapshots of one Function the comparison is the order. -/
theorem revisions_ok (hcurrent : current.route.validate current.functionID = .ok ())
    (hnext : next.route.validate next.functionID = .ok ())
    (hid : next.functionID = current.functionID) :
    revisionsDoNotRegress current next = .ok () ↔ Follows current next := by
  have hzero : ∀ n : UInt64, (0 : UInt64) ≤ n := fun n =>
    UInt64.le_iff_toNat_le.mpr (Nat.zero_le _)
  simp only [revisionsDoNotRegress, checks_ok, List.forall_mem_cons, Bool.or_eq_false_iff,
    decide_eq_false_iff_not, UInt64.not_lt, Bool.and_eq_false_iff, beq_eq_false_iff_ne,
    Bool.not_eq_false', sameFunction, beq_iff_eq, sameHTTPTrigger_iff, sameRoute_iff,
    List.not_mem_nil, false_imp_iff, implies_true, and_true]
  constructor
  · rintro ⟨⟨hfunction, htrigger⟩, hsameF, hsameT, hstays, hroute, hsameR⟩
    have hpresent : current.route.present = true → next.route.present = true := by
      intro hp
      exact hstays.resolve_left (by simp [hp])
    have hsameF' : current.function.resourceRevision = next.function.resourceRevision →
        current.function = next.function := fun heq => hsameF.resolve_left fun hne => hne heq.symm
    have hsameT' : current.trigger.resourceRevision = next.trigger.resourceRevision →
        current.trigger = next.trigger := fun heq => hsameT.resolve_left fun hne => hne heq.symm
    cases hp : current.route.present with
    | false =>
      -- the held Route is blank: any Route follows it, and only a blank one has its revisions
      have hblank := route_absent hcurrent hp
      refine ⟨⟨hfunction, htrigger, ?_, ?_, hsameF', hsameT', ?_⟩, hpresent⟩
      · rw [hblank]
        exact hzero _
      · rw [hblank]
        exact hzero _
      · intro hresource _
        have habsent : next.route.present = false := by
          refine Bool.eq_false_iff.mpr fun hn => ((route_published hn).mp hnext).resource ?_
          rw [← hresource, hblank]
        rw [hblank, route_absent hnext habsent, hid]
    | true =>
      have hn := hpresent hp
      simp only [hp, hn, Bool.true_eq_false, false_or, or_false] at hroute hsameR
      refine ⟨⟨hfunction, htrigger, hroute.1, hroute.2, hsameF', hsameT', ?_⟩, hpresent⟩
      intro hresource hrevision
      rcases hsameR with (hne | hne) | heq
      · exact absurd hresource.symm hne
      · exact absurd hrevision.symm hne
      · exact heq
  · intro h
    refine ⟨⟨h.function, h.trigger⟩, ?_, ?_, ?_, ?_, ?_⟩
    · exact (em _).symm.imp id fun heq => h.sameFunction heq.symm
    · exact (em _).symm.imp id fun heq => h.sameTrigger heq.symm
    · cases hp : current.route.present with
      | false => exact .inl rfl
      | true => exact .inr (h.present hp)
    · exact .inr ⟨h.routeResource, h.routeRevision⟩
    · by_cases hresource : next.route.resourceRevision = current.route.resourceRevision
      · by_cases hrevision : next.route.routeRevision = current.route.routeRevision
        · exact .inr (h.sameRoute hresource.symm hrevision.symm)
        · exact .inl (.inr hrevision)
      · exact .inl (.inl (.inr hresource))

/-! ## One call, and runs -/

/-- Every held snapshot is valid and stands under its own Function. -/
def HoldsValid (s : Store) : Prop :=
  ∀ functionID snapshot, s.held functionID = some snapshot →
    snapshot.validate = .ok () ∧ snapshot.functionID = functionID

theorem holdsValid_step (hs : HoldsValid s) (call : Call) :
    HoldsValid (storeMachine.step s call).2 := by
  have hnew : ∀ {event normalized : Event} {fingerprint : SHA256} {functionID : GoString}
      {snapshot : Snapshot}, Normalized event normalized fingerprint s.maxFunctions →
      contents event.snapshots functionID = some snapshot →
      snapshot.validate = .ok () ∧ snapshot.functionID = functionID := by
    intro event normalized fingerprint functionID snapshot hnormal hfound
    obtain ⟨hmem, hid⟩ := contents_functionID hfound
    exact ⟨(hnormal.valid snapshot hmem).1, hid⟩
  intro functionID snapshot hfound
  cases step_effect s call with
  | nothing _ hu =>
    rw [show (storeMachine.step s call).2.held = s.held from hu.held] at hfound
    exact hs functionID snapshot hfound
  | full _ hr _ hheld _ _ =>
    rw [show (storeMachine.step s call).2.held = _ from hheld] at hfound
    exact hnew hr.normal hfound
  | incremental _ ha _ hheld _ _ =>
    rw [show (storeMachine.step s call).2.held = _ from hheld] at hfound
    rcases Option.or_eq_some_iff.mp hfound with hfound | ⟨-, hfound⟩
    · exact hnew ha.normal hfound
    · exact hs functionID snapshot hfound

theorem holdsValid {processClock : MonotonicClock} {config : Config} {s₀ : Store}
    (hnew : new processClock config = .ok s₀) (hr : storeMachine.Reachable s₀ s) :
    HoldsValid s := by
  refine Machine.invariant (P := HoldsValid) ?_ (fun _ call _ hs => holdsValid_step hs call) hr
  intro functionID snapshot hheld
  rw [Store.held, (new_ok hnew).2.1] at hheld
  cases hheld

/-- What a new snapshot was compared with. -/
theorem follows_of_checkRevisions (hs : HoldsValid s) {functionID : GoString}
    (hheld : s.held functionID = some current) (hvalid : next.validate = .ok ())
    (hid : next.functionID = functionID) (hcheck : s.checkRevisions next = .ok ()) :
    Follows current next := by
  obtain ⟨hcurrent, hid'⟩ := hs functionID current hheld
  obtain ⟨record, hrecord, rfl⟩ := Option.map_eq_some_iff.mp hheld
  rw [Store.checkRevisions, hid, hrecord] at hcheck
  exact (revisions_ok (validate_ok.mp hcurrent).1.route (validate_ok.mp hvalid).1.route
    (hid.trans hid'.symm)).mp hcheck

theorem follows_step (hs : HoldsValid s) (call : Call) {functionID : GoString}
    (hcurrent : s.held functionID = some current)
    (hnext : (storeMachine.step s call).2.held functionID = some next) : Follows current next := by
  have hsame : s.held functionID = some next → Follows current next := by
    intro h
    rw [Option.some.inj (hcurrent.symm.trans h)]
    exact Follows.refl next
  cases step_effect s call with
  | nothing _ hu =>
    rw [show (storeMachine.step s call).2.held = s.held from hu.held] at hnext
    exact hsame hnext
  | full _ hr _ hheld _ _ =>
    rw [show (storeMachine.step s call).2.held = _ from hheld] at hnext
    obtain ⟨hmem, hid⟩ := contents_functionID hnext
    exact follows_of_checkRevisions hs hcurrent (hr.normal.valid next hmem).1 hid
      (hr.revisions next hmem)
  | incremental _ ha _ hheld _ _ =>
    rw [show (storeMachine.step s call).2.held = _ from hheld] at hnext
    rcases Option.or_eq_some_iff.mp hnext with hnext | ⟨-, hnext⟩
    · obtain ⟨hmem, hid⟩ := contents_functionID hnext
      have honly := hmem
      rw [ha.only, List.mem_singleton] at honly
      exact follows_of_checkRevisions hs hcurrent (ha.normal.valid next hmem).1 hid
        (honly ▸ ha.revisions)
    · exact hsame hnext

/--
**Served revisions never regress.** Between two points of a run from `New`, for a Function that is
held at every point between them: no revision is lower, a Route that was present still is, and equal
revisions mean equal content. Any calls may lie between, also events of later epochs.
-/
theorem revisions_never_regress {processClock : MonotonicClock} {config : Config} {s₀ : Store}
    (hnew : new processClock config = .ok s₀) (earlier between : List Call)
    {functionID : GoString} {current next : Snapshot}
    (hcurrent : (storeMachine.run s₀ earlier).held functionID = some current)
    (hheld : ∀ calls, calls <+: between →
      ((storeMachine.run s₀ (earlier ++ calls)).held functionID).isSome = true)
    (hnext : (storeMachine.run s₀ (earlier ++ between)).held functionID = some next) :
    Follows current next := by
  induction between using List.reverseRecOn generalizing next with
  | nil =>
    rw [List.append_nil, hcurrent] at hnext
    cases hnext
    exact Follows.refl current
  | append_singleton calls call ih =>
    -- the last call compares with what was held just before it
    obtain ⟨middle, hmiddle⟩ := Option.isSome_iff_exists.mp (hheld calls (List.prefix_append _ _))
    have hfollows := ih (fun l hl => hheld l (hl.trans (List.prefix_append _ _))) hmiddle
    rw [← List.append_assoc, Machine.run_append] at hnext
    have hr : storeMachine.Reachable s₀ (storeMachine.run s₀ (earlier ++ calls)) :=
      Machine.Reachable.init.run _
    exact hfollows.trans (follows_step (holdsValid hnew hr) call hmiddle hnext)

/-- Two Full events with the sample Function: the second follows the first. -/
theorem revisions_never_regress_sample : ∃ current next,
    (storeMachine.run sampleStore [.apply (sampleFull 5)]).held "function-1" = some current ∧
    (storeMachine.run sampleStore [.apply (sampleFull 5), .apply (sampleFull 6)]).held
      "function-1" = some next ∧
    Follows current next := by
  obtain ⟨fingerprint, -, hexec⟩ := sampleFull_installed (by decide : (5 : UInt64) ≠ 0)
  obtain ⟨fingerprint', -, -, hexec'⟩ := apply_full
    (s := sampleStore.ticked.replaced (sampleFull 5) fingerprint 0)
    (sampleFull_acceptable (by decide : (6 : UInt64) ≠ 0)) rfl rfl (rfl : _ = some (0 : Duration))
    (UInt64.le_refl _)
    (fun _ => (by decide : (5 : UInt64) < 6)) (List.forall_mem_singleton.mpr rfl)
  have hheld : (storeMachine.run sampleStore [.apply (sampleFull 5)]).held "function-1" =
      some (sampleSnapshot 5) := by
    rw [Machine.run_cons, Machine.run_nil, step_apply, hexec]
    rfl
  have hheld' : (storeMachine.run sampleStore [.apply (sampleFull 5), .apply (sampleFull 6)]).held
      "function-1" = some (sampleSnapshot 6) := by
    rw [Machine.run_cons, step_apply, hexec, Machine.run_cons, Machine.run_nil, step_apply, hexec']
    rfl
  refine ⟨_, _, hheld, hheld', revisions_never_regress sampleStore_new [.apply (sampleFull 5)]
    [.apply (sampleFull 6)] hheld (fun calls hcalls => ?_) hheld'⟩
  rcases List.prefix_cons_iff.mp hcalls with rfl | ⟨rest, rfl, hrest⟩
  · rw [List.append_nil, hheld]
    rfl
  · rw [List.prefix_nil.mp hrest]
    exact (congrArg Option.isSome hheld').trans rfl

end MiniCloud.GatewayDiscovery
