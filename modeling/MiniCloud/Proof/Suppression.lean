import MiniCloud.Proof.StoreRevisions

/-!
# Endpoint suppression

A suppression marks the full identity of one endpoint. The next snapshot of the Function rebuilds
the marks from its own endpoints, so a mark survives exactly as long as every installed event keeps
an endpoint of that identity: `marked` says so over the whole history.

Two comparisons must agree for this, the key of the map (the assignment id) and the identity. They
do because a valid snapshot has every assignment id once: a new mark cannot hide another one.
-/

namespace MiniCloud.GatewayDiscovery

open Lib Problem Digest ServingAuth Discovery

variable {a : AssignmentIdentity} {functionID id : GoString} {snapshot : Snapshot} {e : StoreEvent}
  {event : Event} {now : Duration} {record : FunctionRecord} {s' : Store}

/-- The marks of a Function. -/
def Store.suppressions (s : Store) (functionID : GoString) : GoMap GoString AssignmentIdentity :=
  match s.functions.get? functionID with
  | some record => record.suppressed
  | none => ∅

/-- The snapshot has an endpoint of that identity. -/
def Offers (snapshot : Snapshot) (assignment : AssignmentIdentity) : Prop :=
  ∃ endpoint ∈ snapshot.endpointList, endpoint.assignment = assignment

/-- The call suppressed the identity. -/
def Suppresses (functionID : GoString) (assignment : AssignmentIdentity) (e : StoreEvent) : Prop :=
  e.input = .suppressEndpoint functionID assignment ∧ e.output = .done (.ok ())

/--
The call leaves the identity in place: if it installed anything that decides over the Function, a
Full event or its own snapshot, then with an endpoint of that identity.
-/
def Retains (functionID : GoString) (assignment : AssignmentIdentity) (e : StoreEvent) : Prop :=
  ∀ event, installed e = some event →
    (event.full = true ∨ (contents event.snapshots functionID).isSome = true) →
    ∃ snapshot, contents event.snapshots functionID = some snapshot ∧ Offers snapshot assignment

/-- The identity has been suppressed, and every event installed since has retained it. -/
def Suppressed (functionID : GoString) (assignment : AssignmentIdentity) (h : List StoreEvent) :
    Prop :=
  Since (Suppresses functionID assignment) (Retains functionID assignment) h

/-! ## The marks of a new snapshot -/

/-- One pass of the loop. -/
def retainStep (previous retained : GoMap GoString AssignmentIdentity) (endpoint : Endpoint) :
    GoMap GoString AssignmentIdentity :=
  if previous.get? endpoint.assignment.assignmentID = some endpoint.assignment then
    retained.set endpoint.assignment.assignmentID endpoint.assignment
  else retained

theorem retainedSuppressions_eq (previous : GoMap GoString AssignmentIdentity)
    (endpoints : List Endpoint) : retainedSuppressions previous endpoints =
      if previous.len = 0 then ∅ else endpoints.foldl (retainStep previous) ∅ := by
  unfold retainedSuppressions
  congr 2
  funext retained endpoint
  rw [retainStep]
  cases previous.get? endpoint.assignment.assignmentID with
  | none => simp
  | some identity =>
    simp only [Option.some.injEq]
    split_ifs with heq
    · rw [heq]
    · rfl

/-- The loop keeps the marks that an endpoint still has. -/
theorem get?_retainStep_foldl {previous : GoMap GoString AssignmentIdentity}
    (endpoints : List Endpoint) (retained : GoMap GoString AssignmentIdentity)
    (hsub : ∀ k b, retained.get? k = some b → previous.get? k = some b) :
    (endpoints.foldl (retainStep previous) retained).get? id = some a ↔
      retained.get? id = some a ∨ (a.assignmentID = id ∧ previous.get? id = some a ∧
        ∃ endpoint ∈ endpoints, endpoint.assignment = a) := by
  induction endpoints generalizing retained with
  | nil => simp
  | cons endpoint rest ih =>
    rw [List.foldl_cons, retainStep]
    split_ifs with hkept
    · rw [ih]
      · rw [GoMap.get?_set]
        by_cases hkey : id = endpoint.assignment.assignmentID
        · -- the pass sets this key, to what the map had there before
          subst hkey
          rw [if_pos rfl]
          constructor
          · rintro (heq | ⟨hid, hp, e, he, rfl⟩)
            · obtain rfl := Option.some.inj heq
              exact .inr ⟨rfl, hkept, endpoint, List.mem_cons_self, rfl⟩
            · exact .inr ⟨hid, hp, e, List.mem_cons_of_mem _ he, rfl⟩
          · rintro (hold | ⟨-, hp, -⟩)
            · exact .inl (hkept.symm.trans (hsub _ _ hold))
            · exact .inl (hkept.symm.trans hp)
        · rw [if_neg hkey]
          refine or_congr_right (and_congr_right fun hid => ?_)
          have hne : endpoint.assignment ≠ a := by
            rintro rfl
            exact hkey hid.symm
          simp [hne]
      · intro k b hk
        rcases GoMap.get?_set_cases hk with ⟨rfl, rfl⟩ | ⟨-, hk⟩
        · exact hkept
        · exact hsub k b hk
    · rw [ih retained hsub]
      refine or_congr_right (and_congr_right fun hid => and_congr_right fun hp => ?_)
      have hne : endpoint.assignment ≠ a := by
        rintro rfl
        rw [hid] at hkept
        exact hkept hp
      simp [hne]

/-- A mark survives exactly if an endpoint of its identity does. -/
theorem get?_retainedSuppressions {previous : GoMap GoString AssignmentIdentity}
    {endpoints : List Endpoint} :
    (retainedSuppressions previous endpoints).get? id = some a ↔
      a.assignmentID = id ∧ previous.get? id = some a ∧
        ∃ endpoint ∈ endpoints, endpoint.assignment = a := by
  rw [retainedSuppressions_eq]
  split_ifs with hlen
  · refine iff_of_false (by simp) ?_
    rintro ⟨-, hp, -⟩
    have hpos := GoMap.count_pos (p := fun _ _ => true) hp rfl
    rw [← GoMap.len_eq_count] at hpos
    omega
  · rw [get?_retainStep_foldl endpoints ∅ (by simp)]
    simp

/-- What the view shows: the endpoints without a mark, in their order. -/
theorem visible_endpoints (record : FunctionRecord) :
    (visibleSnapshot record).endpoints =
      record.snapshot.endpointList.filter fun e => !record.suppresses e.assignment := by
  rw [visibleSnapshot]
  split_ifs with hlen
  · symm
    rw [List.filter_eq_self]
    intro e _
    simp only [FunctionRecord.suppresses, Bool.not_eq_true', beq_eq_false_iff_ne]
    intro hmark
    have hpos := GoMap.count_pos (p := fun _ _ => true) hmark rfl
    rw [← GoMap.len_eq_count] at hpos
    omega
  · rfl

/-! ## One call -/

theorem suppressions_eq {s : Store} (h : s.functions.get? functionID = some record) :
    s.suppressions functionID = record.suppressed := by
  rw [Store.suppressions, h]

theorem suppressions_of_functions {s : Store} (h : s'.functions = s.functions) :
    s'.suppressions = s.suppressions := by
  funext functionID
  rw [Store.suppressions, h, Store.suppressions]

structure SuppressionInv (h : List StoreEvent) (s : Store) : Prop where
  /-- A mark stands for the identity, under its id, since it was suppressed. -/
  marked : ∀ functionID id a, (s.suppressions functionID).get? id = some a ↔
    a.assignmentID = id ∧ Suppressed functionID a h
  /-- Every mark is the identity of an endpoint. -/
  offered : ∀ functionID record, s.functions.get? functionID = some record →
    ∀ id a, record.suppressed.get? id = some a → Offers record.snapshot a

variable {h : List StoreEvent} {s : Store}

/-- A valid snapshot has every assignment id once. -/
theorem offers_unique (hvalid : snapshot.validate = .ok ()) {b : AssignmentIdentity}
    (ha : Offers snapshot a) (hb : Offers snapshot b) (hid : a.assignmentID = b.assignmentID) :
    a = b := by
  obtain ⟨e, he, rfl⟩ := ha
  obtain ⟨e', he', rfl⟩ := hb
  have hnd := (validateEndpoints_ok.mp (validate_ok.mp hvalid).1.endpoints).2.1
  rw [List.inj_on_of_nodup_map hnd he he' hid]

theorem retains_of_none (hnone : installed e = none) : Retains functionID a e := by
  intro event hin
  cases hnone.symm.trans hin

/-- A call that touches no function and suppresses nothing. -/
theorem SuppressionInv.quiet (hinv : SuppressionInv h s) (hnone : installed e = none)
    (hnot : ∀ functionID a, ¬ Suppresses functionID a e) (hsame : s'.functions = s.functions) :
    SuppressionInv (h ++ [e]) s' where
  marked := by
    intro functionID id a
    rw [suppressions_of_functions hsame, hinv.marked, Suppressed, Suppressed, since_snoc]
    simp [hnot functionID a, retains_of_none hnone]
  offered := by
    rw [hsame]
    exact hinv.offered

/-- An installed event decides over each Function it speaks of. -/
theorem suppressed_install (hinput : e.input = .apply event) :
    Suppressed functionID a (h ++ [e]) ↔ Suppressed functionID a h ∧ Retains functionID a e := by
  have hnot : ¬ Suppresses functionID a e := by
    rintro ⟨hsup, -⟩
    cases hinput.symm.trans hsup
  rw [Suppressed, Suppressed, since_snoc]
  simp [hnot]

theorem retains_found (hin : installed e = some event)
    (hfound : contents event.snapshots functionID = some snapshot) :
    Retains functionID a e ↔ Offers snapshot a := by
  constructor
  · intro hr
    obtain ⟨snapshot', hfound', hoffers⟩ := hr event hin (.inr (by rw [hfound]; rfl))
    cases hfound.symm.trans hfound'
    exact hoffers
  · intro hoffers event' hin' _
    cases hin.symm.trans hin'
    exact ⟨snapshot, hfound, hoffers⟩

theorem received_suppressed (s : Store) (snapshot : Snapshot) (now : Duration) :
    (s.ticked.received snapshot now).suppressed =
      retainedSuppressions (s.suppressions snapshot.functionID) snapshot.endpointList := by
  rw [← suppressions_of_functions (ticked_functions s)]
  rfl

/-- The marks of a Function whose snapshot was just installed. -/
theorem marked_received (hinv : SuppressionInv h s) (hinput : e.input = .apply event)
    (hin : installed e = some event)
    (hfound : contents event.snapshots functionID = some snapshot) :
    (s.ticked.received snapshot now).suppressed.get? id = some a ↔
      a.assignmentID = id ∧ Suppressed functionID a (h ++ [e]) := by
  have hid := (contents_functionID hfound).2
  rw [received_suppressed, get?_retainedSuppressions, hid, hinv.marked, suppressed_install hinput,
    retains_found hin hfound, Offers]
  constructor
  · rintro ⟨hkey, ⟨-, hsup⟩, hoffers⟩
    exact ⟨hkey, hsup, hoffers⟩
  · rintro ⟨hkey, hsup, hoffers⟩
    exact ⟨hkey, ⟨hkey, hsup⟩, hoffers⟩

theorem offered_received (hmark : (s.ticked.received snapshot now).suppressed.get? id = some a) :
    Offers snapshot a := by
  rw [received_suppressed, get?_retainedSuppressions] at hmark
  exact hmark.2.2

section

variable (hinv : SuppressionInv h s)
include hinv

theorem suppressionInv_full {normalized : Event} {fingerprint : SHA256}
    (hr : Replaces s event normalized fingerprint now) :
    SuppressionInv (h ++ [⟨s, .apply event, .done (.ok ()),
      s.ticked.replaced normalized fingerprint now⟩])
      (s.ticked.replaced normalized fingerprint now) where
  marked := by
    intro functionID id a
    rw [Store.suppressions, get?_replaced hr]
    cases hfound : contents event.snapshots functionID with
    | some snapshot => exact marked_received hinv rfl (installed_apply hr.fresh) hfound
    | none =>
      -- the Function is gone, and so are its marks
      refine iff_of_false (by simp) ?_
      rintro ⟨-, hsup⟩
      obtain ⟨-, hretains⟩ := (suppressed_install rfl).mp hsup
      obtain ⟨snapshot, hsome, -⟩ := hretains event (installed_apply hr.fresh) (.inl hr.full)
      cases hfound.symm.trans hsome
  offered := by
    intro functionID record hrecord id a hmark
    rw [get?_replaced hr] at hrecord
    obtain ⟨snapshot, -, rfl⟩ := Option.map_eq_some_iff.mp hrecord
    exact offered_received hmark

theorem suppressionInv_incremental {normalized : Event} {fingerprint : SHA256}
    (ha : Advances s event normalized snapshot fingerprint now) :
    SuppressionInv (h ++ [⟨s, .apply event, .done (.ok ()),
      s.ticked.advanced normalized snapshot fingerprint now⟩])
      (s.ticked.advanced normalized snapshot fingerprint now) where
  marked := by
    intro functionID id a
    have hfound := ha.contents_eq functionID
    rw [Store.suppressions, get?_advanced]
    split_ifs at hfound ⊢ with hid
    · exact marked_received hinv rfl (installed_apply ha.fresh) hfound
    · -- another Function: the event does not decide over this one
      have hretains : Retains functionID a ⟨s, .apply event, .done (.ok ()),
          s.ticked.advanced normalized snapshot fingerprint now⟩ := by
        intro event' hin hdecides
        cases (installed_apply ha.fresh).symm.trans hin
        rw [hfound, ha.incremental] at hdecides
        simp at hdecides
      rw [suppressed_install rfl, and_iff_left hretains]
      exact hinv.marked functionID id a
  offered := by
    intro functionID record hrecord id a hmark
    rw [get?_advanced] at hrecord
    split_ifs at hrecord
    · cases hrecord
      exact offered_received hmark
    · exact hinv.offered functionID record hrecord id a hmark

theorem suppressionInv_suppressed (hvalid : HoldsValid s) {assignment : AssignmentIdentity}
    (hheld : s.functions.get? functionID = some record)
    (hoffers : Offers record.snapshot assignment)
    (hs' : s' = { s with functions := s.functions.set functionID { record with
      suppressed := record.suppressed.set assignment.assignmentID assignment } }) :
    SuppressionInv (h ++ [⟨s, .suppressEndpoint functionID assignment, .done (.ok ()), s'⟩]) s' where
  marked := by
    intro id key a
    have hmarks := hinv.marked id key a
    rw [Suppressed, since_snoc, and_iff_left (retains_of_none rfl), Store.suppressions, hs']
    simp only [GoMap.get?_set]
    by_cases hid : id = functionID
    · subst hid
      rw [suppressions_eq hheld] at hmarks
      simp only [if_true, GoMap.get?_set]
      by_cases hkey : key = assignment.assignmentID
      · rw [if_pos hkey]
        constructor
        · intro heq
          obtain rfl := Option.some.inj heq
          exact ⟨hkey.symm, .inl ⟨rfl, rfl⟩⟩
        · rintro ⟨hkeyed, ⟨hcall, -⟩ | hsup⟩
          · cases hcall
            rfl
          · -- the mark that stood there is the same identity
            have hold := hinv.offered _ record hheld key a (hmarks.mpr ⟨hkeyed, hsup⟩)
            have hrecord := (hvalid _ record.snapshot (by rw [Store.held, hheld]; rfl)).1
            rw [offers_unique hrecord hold hoffers (hkeyed.trans hkey)]
      · rw [if_neg hkey, hmarks]
        refine and_congr_right fun hkeyed => ⟨.inr, fun hor => hor.resolve_left ?_⟩
        rintro ⟨hcall, -⟩
        cases hcall
        exact hkey hkeyed.symm
    · rw [if_neg hid]
      refine Iff.trans hmarks (and_congr_right fun _ => ⟨.inr, fun hor => hor.resolve_left ?_⟩)
      rintro ⟨hcall, -⟩
      cases hcall
      exact hid rfl
  offered := by
    intro id other hother key a hmark
    rw [hs'] at hother
    rcases GoMap.get?_set_cases hother with ⟨-, rfl⟩ | ⟨-, hother⟩
    · rcases GoMap.get?_set_cases hmark with ⟨-, rfl⟩ | ⟨-, hmark⟩
      · exact hoffers
      · exact hinv.offered functionID record hheld key a hmark
    · exact hinv.offered id other hother key a hmark

theorem suppressionInv_step {call : Call} {answer : Answer} (hvalid : HoldsValid s)
    (hacts : Acts s call answer s') :
    SuppressionInv (h ++ [⟨s, call, answer, s'⟩]) s' := by
  cases hacts with
  | idle hidle =>
    refine hinv.quiet ?_ (fun functionID a hsup => ?_) rfl
    · cases call with
      | apply event => exact absurd hidle id
      | _ => rfl
    · obtain ⟨hcall, hanswer⟩ := hsup
      cases hcall
      exact hidle hanswer
  | refused | latched | watched => exact hinv.quiet rfl (fun _ _ hsup => by cases hsup.1) rfl
  | repeated _ _ hsame _ => exact hinv.quiet (if_pos hsame) (fun _ _ hsup => by cases hsup.1) rfl
  | stopped _ => exact hinv.quiet rfl (fun _ _ hsup => by cases hsup.1) (ticked_functions s)
  | replaced hr => exact suppressionInv_full hinv hr
  | advanced ha => exact suppressionInv_incremental hinv ha
  | looked hl =>
    rcases hl with ⟨id, rfl⟩ | rfl <;>
      exact hinv.quiet rfl (fun _ _ hsup => by cases hsup.1) (ticked_functions s)
  | suppressed hheld hmem => exact suppressionInv_suppressed hinv hvalid hheld hmem rfl

end

/-! ## Whole runs -/

section Runs

variable {processClock : MonotonicClock} {config : Config} {s₀ : Store}

theorem suppressionInv_run (hnew : new processClock config = .ok s₀) (calls : List Call) :
    SuppressionInv (storeMachine.events s₀ calls) (storeMachine.run s₀ calls) := by
  refine Machine.trace (P := SuppressionInv) ?_
    (fun h s call hr hinv => suppressionInv_step hinv (holdsValid hnew hr) (step_acts s call))
    calls
  have hempty := (new_ok hnew).2.1
  refine ⟨fun functionID id a => ?_, by simp [hempty]⟩
  rw [Store.suppressions, hempty]
  exact iff_of_false (by simp) fun hsup => not_since_nil hsup.2

/--
**Suppression is precise and sticky.** After any run from `New`, for every held Function: its marks
stand under their own ids and are identities of its endpoints; a lookup returns the held snapshot
unaltered, and shows its endpoints without the marked ones, in their order; an identity is marked
exactly if it has been suppressed and every event installed since that decides over the Function had
an endpoint of that identity. No suppression touches a held snapshot.
-/
theorem suppression_exact (hnew : new processClock config = .ok s₀) (calls : List Call) :
    let h := storeMachine.events s₀ calls
    let s := storeMachine.run s₀ calls
    (∀ functionID record, s.functions.get? functionID = some record →
      (∀ id a, record.suppressed.get? id = some a →
        a.assignmentID = id ∧ Offers record.snapshot a) ∧
      (∀ view, (Op.exec (Store.lookup functionID) s).1 = .ok view →
        view.snapshot = record.snapshot ∧
        view.endpoints =
          record.snapshot.endpointList.filter fun e => !record.suppresses e.assignment) ∧
      ∀ a, record.suppresses a = true ↔ Suppressed functionID a h) ∧
    ∀ e ∈ h, ∀ functionID a, e.input = .suppressEndpoint functionID a →
      e.post.held = e.pre.held := by
  intro h s
  have hinv : SuppressionInv h s := suppressionInv_run hnew calls
  refine ⟨fun functionID record hrecord => ⟨fun id a hmark => ?_, fun view hok => ?_, fun a => ?_⟩, ?_⟩
  · refine ⟨?_, hinv.offered functionID record hrecord id a hmark⟩
    rw [← suppressions_eq hrecord] at hmark
    exact ((hinv.marked functionID id a).mp hmark).1
  · obtain ⟨-, record', now, -, hrecord', -, rfl⟩ := lookup_ok.mp hok
    cases hrecord.symm.trans hrecord'
    exact ⟨rfl, visible_endpoints record⟩
  · rw [FunctionRecord.suppresses, beq_iff_eq, ← suppressions_eq hrecord, hinv.marked]
    exact and_iff_right rfl
  · intro e he functionID a hcall
    obtain ⟨-, -, -, -, heq⟩ := Machine.mem_events he
    rw [heq, hcall]
    cases step_effect e.pre (.suppressEndpoint functionID a) with
    | nothing _ hu => exact hu.held
    | full hin | incremental hin => cases hin

end Runs

/-! ## The sample endpoint -/

/-- The sample Function, held and with its endpoint suppressed. -/
theorem sample_run_suppressed : ∃ record,
    (storeMachine.run sampleStore [.apply (sampleFull 5),
      .suppressEndpoint "function-1" sampleAssignment]).functions.get? "function-1" = some record ∧
    Suppressed "function-1" sampleAssignment (storeMachine.events sampleStore
      [.apply (sampleFull 5), .suppressEndpoint "function-1" sampleAssignment]) := by
  obtain ⟨fingerprint, -, hexec⟩ := sampleFull_installed (by decide : (5 : UInt64) ≠ 0)
  refine ⟨{ sampleStore.ticked.received (sampleSnapshot 5) 0 with
    suppressed := (sampleStore.ticked.received (sampleSnapshot 5) 0).suppressed.set
      sampleAssignment.assignmentID sampleAssignment }, ?_, [_], _, [], rfl, ⟨rfl, ?_⟩,
    List.forall_mem_nil _⟩
  · rw [Machine.run_cons, step_apply, hexec]
    rfl
  · show (storeMachine.step _ _).1 = _
    rw [step_apply, hexec]
    rfl

/-- The theorem at that run: the endpoint is marked. -/
theorem suppression_exact_sample : ∃ record,
    (storeMachine.run sampleStore [.apply (sampleFull 5),
      .suppressEndpoint "function-1" sampleAssignment]).functions.get? "function-1" = some record ∧
    record.suppresses sampleAssignment = true := by
  obtain ⟨record, hrecord, hsup⟩ := sample_run_suppressed
  obtain ⟨hheld, -⟩ := suppression_exact sampleStore_new [.apply (sampleFull 5),
    .suppressEndpoint "function-1" sampleAssignment]
  exact ⟨record, hrecord, ((hheld "function-1" record hrecord).2.2 sampleAssignment).mpr hsup⟩

/-- A Full event without Functions. -/
def sampleEmpty : Event := ⟨true, 1, 6, []⟩

theorem sampleEmpty_acceptable : sampleEmpty.Acceptable defaultMaxFunctions where
  distinct := List.nodup_nil
  valid := List.forall_mem_nil _
  epoch_pos := by decide
  sequence_pos := by decide
  bounded := by decide

/-- The sample leaves with one Full event and comes back with the next. -/
def sampleReturn : List Call :=
  [.apply (sampleFull 5), .suppressEndpoint "function-1" sampleAssignment, .apply sampleEmpty,
    .apply (sampleFull 7)]

theorem sampleReturn_events (he : e ∈ storeMachine.events sampleStore sampleReturn)
    (hin : installed e = some event)
    (hfound : contents event.snapshots "function-1" = some snapshot) :
    Offers snapshot sampleAssignment := by
  obtain ⟨before, after, hcalls, -, -⟩ := Machine.mem_events he
  have hinput : e.input = .apply event := by
    unfold installed at hin
    split at hin
    · split_ifs at hin
      cases hin
      assumption
    · cases hin
  have hmem : Call.apply event ∈ sampleReturn := by
    rw [hcalls, ← hinput]
    simp
  have hoffers : ∀ sequence, Offers (sampleSnapshot sequence) sampleAssignment := fun _ =>
    ⟨sampleEndpoint, List.mem_singleton_self _, rfl⟩
  simp only [sampleReturn, List.mem_cons, Call.apply.injEq, reduceCtorEq, List.not_mem_nil,
    or_false, false_or] at hmem
  rcases hmem with rfl | rfl | rfl
  · cases hfound
    exact hoffers 5
  · cases hfound
  · cases hfound
    exact hoffers 7

/--
A Function that leaves and returns is shown in full, although its endpoint was suppressed and every
snapshot of it ever installed had that endpoint.
-/
theorem suppression_lost_on_return :
    (∃ e ∈ storeMachine.events sampleStore sampleReturn,
      Suppresses "function-1" sampleAssignment e) ∧
    (∀ e ∈ storeMachine.events sampleStore sampleReturn, ∀ event, installed e = some event →
      ∀ snapshot, contents event.snapshots "function-1" = some snapshot →
        Offers snapshot sampleAssignment) ∧
    ∃ view, (Op.exec (Store.lookup "function-1")
        (storeMachine.run sampleStore sampleReturn)).1 = .ok view ∧
      sampleEndpoint ∈ view.endpoints := by
  obtain ⟨fingerprint, -, hexec⟩ := sampleFull_installed (by decide : (5 : UInt64) ≠ 0)
  have hsuppress : (Op.exec (Store.suppressEndpoint "function-1" sampleAssignment)
      (sampleStore.ticked.replaced (sampleFull 5) fingerprint 0)).1 = .ok () := rfl
  -- the empty Full event forgets the Function with its mark
  obtain ⟨emptyPrint, -, -, hexecEmpty⟩ := apply_full
    (s := (Op.exec (Store.suppressEndpoint "function-1" sampleAssignment)
      (sampleStore.ticked.replaced (sampleFull 5) fingerprint 0)).2)
    sampleEmpty_acceptable rfl rfl (rfl : _ = some (0 : Duration))
    (UInt64.le_refl _) (fun _ => (by decide : (5 : UInt64) < 6))
    (List.forall_mem_nil _)
  set s₃ := Store.replaced _ _ emptyPrint 0
  obtain ⟨againPrint, -, -, hexecAgain⟩ := apply_full (s := s₃)
    (sampleFull_acceptable (by decide : (7 : UInt64) ≠ 0)) rfl rfl (rfl : _ = some (0 : Duration))
    (UInt64.le_refl _)
    (fun _ => (by decide : (6 : UInt64) < 7)) (List.forall_mem_singleton.mpr rfl)
  refine ⟨⟨_, List.mem_cons_of_mem _ List.mem_cons_self, rfl, ?_⟩,
    fun e he event hin snapshot hfound => sampleReturn_events he hin hfound,
    visibleSnapshot (s₃.ticked.received (sampleSnapshot 7) 0), ?_, List.mem_singleton_self _⟩
  · show (storeMachine.step _ _).1 = _
    rw [step_apply, hexec, step_suppressEndpoint, hsuppress]
  · rw [sampleReturn, Machine.run_cons, step_apply, hexec, Machine.run_cons, step_suppressEndpoint,
      Machine.run_cons, step_apply, hexecEmpty, Machine.run_cons, step_apply, hexecAgain,
      Machine.run_nil]
    rfl

end MiniCloud.GatewayDiscovery
