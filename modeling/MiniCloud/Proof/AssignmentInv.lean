import MiniCloud.Proof.RouteInv

/-!
# Assignment accounting

`Install` raises the counter of the Route's target and `Cancel` lowers the counter of the
placement's own target. The two keys are the same because a placement is only accepted when it
repeats the target, and a record's placement never changes afterwards, whatever happens to the
Route. So the counters count the Assigned records, and the bound tested at installation lasts as
long as the Deployment, which is for good.
-/

namespace MiniCloud.ControlPlane

open Lib Problem Digest Model

variable {s : Stores} {r : AssignmentRecord} {id : GoString} {command : CancelAssignmentCommand}

/-- The record is wanted, and is counted under `t`. -/
def activeFor (t : AssignmentTarget) (r : AssignmentRecord) : Bool :=
  r.desiredState == .assigned && assignmentTargetForRecord r == t

theorem activeFor_assigned (h : r.desiredState = .assigned) (t : AssignmentTarget) :
    activeFor t r = (assignmentTargetForRecord r == t) := by
  rw [activeFor, h]
  rfl

theorem activeFor_cancelled (h : r.desiredState = .cancelled) (t : AssignmentTarget) :
    activeFor t r = false := by
  rw [activeFor, h]
  rfl

structure AssignmentInv (s : Stores) : Prop where
  counted : ∀ t, (s.assignments.activeCount t).toNat =
    s.assignments.records.count fun _ r => activeFor t r
  /-- A counter in use belongs to a stored Deployment, and stays within its replicas. -/
  bounded : ∀ t, s.assignments.activeCount t ≠ 0 → ∃ v d,
    s.releases.versions.get? t.versionID = some v ∧ v.state = .ready ∧
    s.releases.deployments.get? t.versionID = some d ∧ d.generation = t.deploymentGeneration ∧
    s.assignments.activeCount t ≤ d.desiredReplicas

theorem assignmentInv_new : AssignmentInv newStores where
  counted := fun _ => rfl
  bounded := fun _ h => absurd rfl h

/-- What an accepted placement is placed on. -/
theorem validatePlacement_ok {stores : Stores} {command : InstallAssignmentCommand}
    {target : RouteTarget} {deployment : Deployment}
    (h : validatePlacementLocked stores.catalog stores.releases stores.routes command =
      .ok (target, deployment)) :
    (∃ f v, stores.catalog.functionsByID.get? command.functionID = some f ∧
      TargetReady stores.releases f.id target v deployment) ∧
    assignmentTargetForRecord (candidateRecord command) =
      assignmentTargetFor command.functionID target := by
  simp only [validatePlacementLocked, bind_ok, orError_ok, wrapping_ok] at h
  obtain ⟨f, hf, _, -, route, -, _, -, _, hready, _, -, t, hfirst, _, hmatch, _, -, hret⟩ := h
  cases hret
  obtain ⟨v, d, hd⟩ := (validateReadyTarget_ok hfirst).mp hready
  refine ⟨⟨f, v, hf, ?_⟩, ?_⟩
  · rw [hd.deployment]
    exact hd
  · have hm := checks_ok.mp hmatch
    simp [targetMatches] at hm
    simp only [assignmentTargetForRecord, assignmentTargetFor, candidateRecord,
      AssignmentTarget.mk.injEq]
    exact ⟨trivial, hm.1.1.1, hm.1.1.2, hm.1.2⟩

/-! ## The two writes -/

theorem activeCount_set (s : AssignmentStore) (t t' : AssignmentTarget) (n : UInt32)
    (records : GoMap GoString AssignmentRecord) :
    AssignmentStore.activeCount
      { s with records := records, activeCounts := s.activeCounts.set t n } t' =
      if t' = t then n else s.activeCount t' := by
  rw [AssignmentStore.activeCount, GoMap.get?_set]
  split_ifs <;> rfl

theorem assignmentInv_install (h : AssignmentInv s) {command : InstallAssignmentCommand}
    {target : RouteTarget} {deployment : Deployment}
    (hc : InstallsAssignment s command target deployment) :
    AssignmentInv { s with assignments :=
      s.assignments.addRecord command (assignmentTargetFor command.functionID target) } := by
  obtain ⟨⟨f, v, -, hready⟩, hkey⟩ := validatePlacement_ok hc.placement
  have hsucc := toNat_succ_of_lt hc.wanted
  refine ⟨?_, ?_⟩
  · intro t
    have hnew := GoMap.count_set_new (fun _ r => activeFor t r) (candidateRecord command) hc.unused
    show (AssignmentStore.activeCount _ t).toNat = _
    rw [AssignmentStore.addRecord, activeCount_set, hnew, ← h.counted,
      activeFor_assigned (r := candidateRecord command) rfl, hkey]
    split_ifs with ht
    · subst ht
      rw [hsucc, beq_self_eq_true]
      rfl
    · rw [beq_eq_false_iff_ne.mpr (Ne.symm ht)]
      rfl
  · intro t ht
    simp only [AssignmentStore.addRecord, activeCount_set] at ht ⊢
    split_ifs at ht ⊢ with hkt
    · -- the counter was below the wanted replicas, so one more is within them
      subst hkt
      refine ⟨v, deployment, hready.version, hready.ready, hready.deployment, hready.generation, ?_⟩
      have hw := UInt32.lt_iff_toNat_lt.mp hc.wanted
      rw [UInt32.le_iff_toNat_le]
      omega
    · exact h.bounded t ht

theorem assignmentInv_cancel (h : AssignmentInv s) {record : AssignmentRecord}
    (hc : CancelsAssignment s.assignments command record) :
    AssignmentInv { s with assignments := s.assignments.cancelRecord command record } := by
  have hpred := toNat_pred hc.counted
  refine ⟨?_, ?_⟩
  · intro t
    have hold := GoMap.count_set_old (fun _ r => activeFor t r) (cancelledRecord record command)
      hc.found
    have hcount := h.counted t
    show (AssignmentStore.activeCount _ t).toNat = (s.assignments.records.set command.assignmentID
      (cancelledRecord record command)).count fun _ r => activeFor t r
    rw [AssignmentStore.cancelRecord, activeCount_set]
    rw [activeFor_assigned hc.assigned,
      activeFor_cancelled (r := cancelledRecord record command) rfl, Bool.toNat_false] at hold
    split_ifs with ht
    · subst ht
      rw [beq_self_eq_true, Bool.toNat_true] at hold
      omega
    · rw [beq_eq_false_iff_ne.mpr (Ne.symm ht), Bool.toNat_false] at hold
      omega
  · intro t ht
    simp only [AssignmentStore.cancelRecord, activeCount_set] at ht ⊢
    split_ifs at ht ⊢ with hkt
    · subst hkt
      obtain ⟨v, d, hv, hready, hd, hgen, hle⟩ := h.bounded _ hc.counted
      refine ⟨v, d, hv, hready, hd, hgen, ?_⟩
      rw [UInt32.le_iff_toNat_le] at hle ⊢
      omega
    · exact h.bounded t ht

/-! ## Runs -/

theorem assignmentInv_step {s' : Stores} {command : Command} {reply : Reply} (hr : s.Reachable)
    (hc : Commit s command reply s') (h : AssignmentInv s) : AssignmentInv s' := by
  have hrel := (releaseStep hc (releaseInv_reachable hr)).2
  -- a commit that leaves the assignments alone keeps the Deployments they are counted against
  have hkeep : s'.assignments = s.assignments → AssignmentInv s' := by
    intro hsame
    refine ⟨?_, ?_⟩
    · rw [hsame]
      exact h.counted
    · intro t ht
      rw [hsame] at ht ⊢
      obtain ⟨v, d, hv, hready, hd, hgen, hle⟩ := h.bounded t ht
      obtain ⟨v', hv', -, hmove⟩ := hrel.version hv
      have hready' : v'.state = .ready := by
        rcases hmove with rfl | hadm
        · exact hready
        · rw [hready] at hadm
          cases hadm
      exact ⟨v', d, hv', hready', hrel.deployment hv hready hd, hgen, hle⟩
  cases hc with
  | assignmentInstalled command target d hc => exact assignmentInv_install h hc
  | assignmentCancelled command record hc => exact assignmentInv_cancel h hc
  | _ => exact hkeep rfl

theorem assignmentInv_reachable (h : s.Reachable) : AssignmentInv s :=
  Stores.invariant (P := AssignmentInv) assignmentInv_new
    (fun _ _ _ _ hr ih hc => assignmentInv_step hr hc ih) h

/-! ## Records -/

/-- A record as it was, or cancelled since: only its desired state, revision and times moved. -/
inductive Evolves (r r' : AssignmentRecord) : Prop
  | same (h : r' = r)
  | cancelled (before : r.desiredState = .assigned) (after : r'.desiredState = .cancelled)
      (function : r'.functionID = r.functionID) (placement : r'.placement = r.placement)
      (created : r'.createdAt = r.createdAt ∧ r'.createdRaftIndex = r.createdRaftIndex)
      (index : r.lastAppliedIndex < r'.lastAppliedIndex)
      (revision : r'.resourceRevision.toNat = r.resourceRevision.toNat + 1)

/-- Cancelled is terminal, so two cancellations in a row are one. -/
theorem Evolves.trans {r₁ r₂ r₃ : AssignmentRecord} (h : Evolves r₁ r₂) (h' : Evolves r₂ r₃) :
    Evolves r₁ r₃ := by
  cases h' with
  | same h' =>
    rw [h']
    exact h
  | cancelled before after function placement created index revision =>
    cases h with
    | same h =>
      subst h
      exact .cancelled before after function placement created index revision
    | cancelled _ after₁ =>
      cases after₁.symm.trans before

theorem evolves_cancel {s : AssignmentStore} (hc : CancelsAssignment s command r) :
    Evolves r (cancelledRecord r command) :=
  .cancelled hc.assigned rfl rfl rfl ⟨rfl, rfl⟩ hc.advances
    (toNat_succ (succ_ne_zero hc.unexhausted))

/-- Every stored record is still there after a commit. -/
theorem record_commit {s' : Stores} {command : Command} {reply : Reply}
    (hc : Commit s command reply s') (hr : s.assignments.records.get? id = some r) :
    ∃ r', s'.assignments.records.get? id = some r' ∧ Evolves r r' := by
  cases hc with
  | assignmentInstalled command target d hc =>
    exact ⟨r, GoMap.get?_set_new hc.unused hr, .same rfl⟩
  | assignmentCancelled command record hc =>
    by_cases hid : id = command.assignmentID
    · subst hid
      cases hc.found.symm.trans hr
      exact ⟨_, by rw [AssignmentStore.cancelRecord, GoMap.get?_set_self], evolves_cancel hc⟩
    · exact ⟨r, by rw [AssignmentStore.cancelRecord, GoMap.get?_set_ne _ _ hid, hr], .same rfl⟩
  | _ => exact ⟨r, hr, .same rfl⟩

theorem record_step (s : Stores) (command : Command) (hr : s.assignments.records.get? id = some r) :
    ∃ r', (storesMachine.step s command).2.assignments.records.get? id = some r' ∧
      Evolves r r' := by
  rcases step_commit s command with hsame | ⟨reply, s', he, hc⟩
  · exact ⟨r, by rw [hsame, hr], .same rfl⟩
  · rw [he]
    exact record_commit hc hr

theorem record_run (s : Stores) (more : List Command)
    (hr : s.assignments.records.get? id = some r) :
    ∃ r', (storesMachine.run s more).assignments.records.get? id = some r' ∧ Evolves r r' := by
  have hinit : storesMachine.Reachable s s := .init
  refine Machine.run_rel (R := fun s s' => ∀ id r, s.assignments.records.get? id = some r →
      ∃ r', s'.assignments.records.get? id = some r' ∧ Evolves r r')
    (fun s id r hr => ⟨r, hr, .same rfl⟩) ?_ (fun s command _ id r hr => record_step s command hr)
    hinit more id r hr
  intro a b c hab hbc id r hr
  obtain ⟨r', hr', hev⟩ := hab id r hr
  obtain ⟨r'', hr'', hev'⟩ := hbc id r' hr'
  exact ⟨r'', hr'', hev.trans hev'⟩

/-- The event installed an Assignment under `id`. -/
def installsID (id : GoString) (e : StoreEvent) : Bool :=
  match e.input, e.output with
  | .installAssignment command, .ok _ => command.placement.assignmentID == id
  | _, _ => false

theorem installsID_step {command : Command}
    (h : installsID id (storesMachine.event s command) = true) :
    s.assignments.records.get? id = none ∧
      ((storesMachine.step s command).2.assignments.records.get? id).isSome := by
  rcases step_cases s command with ⟨e, he⟩ | ⟨reply, s', he, hs⟩
  · simp [installsID, Machine.event, he] at h
  · simp only [Machine.event, he] at h ⊢
    cases hs with
    | kept => cases h
    | committed _ _ _ hc =>
      cases hc with
      | assignmentInstalled command target d hc =>
        simp only [installsID, beq_iff_eq] at h
        subst h
        refine ⟨hc.unused, ?_⟩
        rw [AssignmentStore.addRecord, GoMap.get?_set_self]
        rfl
      | _ => cases h

theorem installsID_once (commands : List Command) (id : GoString) :
    ((storesMachine.events newStores commands).filter (installsID id)).length ≤ 1 := by
  suffices h : ((storesMachine.events newStores commands).filter (installsID id)).length ≤ 1 ∧
      ((storesMachine.run newStores commands).assignments.records.get? id = none →
        (storesMachine.events newStores commands).filter (installsID id) = []) from h.1
  refine Machine.trace (P := fun history s => (history.filter (installsID id)).length ≤ 1 ∧
      (s.assignments.records.get? id = none → history.filter (installsID id) = []))
    ⟨Nat.zero_le _, fun _ => rfl⟩ ?_ commands
  intro history s command _ ⟨hle, hnone⟩
  rw [List.filter_append, List.filter_singleton]
  cases he : installsID id (storesMachine.event s command) with
  | true =>
    obtain ⟨hold, hnew⟩ := installsID_step he
    simp only [hnone hold, List.nil_append]
    refine ⟨le_refl _, fun hpost => ?_⟩
    rw [hpost] at hnew
    cases hnew
  | false =>
    rw [cond_false, List.append_nil]
    refine ⟨hle, fun hpost => hnone ?_⟩
    -- a record that is missing afterwards was missing before
    rw [Option.eq_none_iff_forall_ne_some]
    intro r hr
    obtain ⟨r', hr', -⟩ := record_step s command hr
    cases hpost.symm.trans hr'

/-! ## The missing counter -/

theorem validateCancelAssignment_error {e : GoError}
    (h : validateCancelAssignment command = .error e) : ∃ p, e = .problem p := by
  have hmust : ∀ {l : List (Check GoError)}, (∀ c ∈ l, ∃ p, c.error = .problem p) →
      checks l = .error e → ∃ p, e = .problem p := by
    intro l hl hchecks
    obtain ⟨c, hc, rfl⟩ := checks_error hchecks
    exact hl c hc
  rw [validateCancelAssignment] at h
  cases hfirst : checks [
      mustNot (!identifierPattern command.assignmentID) "assignment_id"
        "must be a valid identifier",
      mustNot (command.expectedResourceRevision == 0) "expected_resource_revision"
        "must be greater than zero",
      mustNot (command.appliedIndex == 0) "applied_index" "must be greater than zero"] with
  | error e' =>
    rw [hfirst] at h
    cases h
    exact hmust (by simp [mustNot, invalid]) hfirst
  | ok u =>
    rw [hfirst] at h
    exact hmust (l := [_, _]) (by simp [mustNot, invalid]) h

/-- Every Assigned record is counted, so a cancellation never misses its counter. -/
theorem cancel_counted (h : AssignmentInv s) (command : CancelAssignmentCommand) :
    (storesMachine.step s (.cancelAssignment command)).1 ≠
      .error (.text "assignment store invariant: active count is missing") := by
  show (Op.exec (Reply.assignment <$> Stores.onAssignments (AssignmentStore.cancel command)) s).1 ≠ _
  rw [Op.exec_map, Stores.onAssignments, Op.exec_onPart]
  show (Op.exec (AssignmentStore.cancel command) s.assignments).1.map _ ≠ _
  simp only [AssignmentStore.cancel, Op.exec_ofExcept_bind, Op.exec_get_bind, Op.exec_orFail_bind,
    Op.exec_failIf_bind, Op.exec_set_bind, Op.exec_pure]
  cases hv : validateCancelAssignment command with
  | error e =>
    obtain ⟨p, rfl⟩ := validateCancelAssignment_error hv
    simp [Except.map]
  | ok u =>
    cases hf : s.assignments.records.get? command.assignmentID with
    | none => simp [Except.map, classified]
    | some r =>
      dsimp only
      split_ifs with hrev hassigned hlater hindex hmax hcount
      · simp [Except.map, revisionConflict]
      · simp [Except.map, classified]
      · simp [Except.map, invalid]
      · simp [Except.map, invalid]
      · simp [Except.map, classified]
      · -- the counter is the number of Assigned records of the target, and `r` is one
        have hpos := GoMap.count_pos (p := fun _ r' => activeFor (assignmentTargetForRecord r) r') hf
          (by rw [activeFor_assigned (by simpa using hassigned)]; simp)
        rw [← h.counted] at hpos
        have hzero : s.assignments.activeCount (assignmentTargetForRecord r) = 0 := by
          simpa using hcount
        rw [hzero] at hpos
        cases hpos
      · simp [Except.map]

/--
**Assignments are accounted for.** After every sequence of commands of all the stores:

* the counter of each target is the number of its Assigned records, and stays within the wanted
  replicas of that Deployment, which exists whenever the counter is in use;
* along every continuation a record stays, keeps its Function, placement and creation data, and is
  cancelled at most once and for good;
* no id was installed twice;
* `Cancel` never reports a missing counter, and when it succeeds the apply position strictly
  increases and the revision goes up by one;
* a command that fails changes nothing.
-/
theorem assignment_accounting (commands : List Command) :
    let s := storesMachine.run newStores commands
    let a := s.assignments
    (∀ t, (a.activeCount t).toNat = a.records.count fun _ r =>
      r.desiredState == .assigned && assignmentTargetForRecord r == t) ∧
    (∀ t d, s.releases.deployments.get? t.versionID = some d →
      d.generation = t.deploymentGeneration → a.activeCount t ≤ d.desiredReplicas) ∧
    (∀ t, a.activeCount t ≠ 0 → ∃ d, s.releases.deployments.get? t.versionID = some d ∧
      d.generation = t.deploymentGeneration) ∧
    (∀ more id r, a.records.get? id = some r →
      ∃ r', (storesMachine.run s more).assignments.records.get? id = some r' ∧ Evolves r r') ∧
    (∀ id, ((storesMachine.events newStores commands).filter (installsID id)).length ≤ 1) ∧
    (∀ command, (storesMachine.step s (.cancelAssignment command)).1 ≠
      .error (.text "assignment store invariant: active count is missing")) ∧
    (∀ command reply s', storesMachine.step s (.cancelAssignment command) = (.ok reply, s') →
      ∃ r r', a.records.get? command.assignmentID = some r ∧
        s'.assignments.records.get? command.assignmentID = some r' ∧
        r.lastAppliedIndex < r'.lastAppliedIndex ∧
        r'.resourceRevision.toNat = r.resourceRevision.toNat + 1) ∧
    ∀ command e, (storesMachine.step s command).1 = .error e →
      (storesMachine.step s command).2 = s := by
  intro s a
  have hr : s.Reachable := Machine.Reachable.init.run commands
  have h := assignmentInv_reachable hr
  refine ⟨h.counted, ?_, ?_, fun more id r => record_run s more, installsID_once commands,
    cancel_counted h, ?_, ?_⟩
  · intro t d hd hgen
    by_cases hzero : a.activeCount t = 0
    · rw [hzero]
      exact UInt32.le_iff_toNat_le.mpr (Nat.zero_le _)
    · obtain ⟨v, d', -, -, hd', -, hle⟩ := h.bounded t hzero
      cases hd.symm.trans hd'
      exact hle
  · intro t ht
    obtain ⟨v, d, -, -, hd, hgen, -⟩ := h.bounded t ht
    exact ⟨d, hd, hgen⟩
  · intro command reply s' hstep
    rcases step_cases s (.cancelAssignment command) with ⟨e, he⟩ | ⟨reply', s'', he, hs⟩
    · cases he.symm.trans hstep
    · cases he.symm.trans hstep
      cases hs with
      | committed _ _ _ hc =>
        cases hc with
        | assignmentCancelled _ r hc =>
          exact ⟨r, cancelledRecord r command, hc.found,
            by rw [AssignmentStore.cancelRecord, GoMap.get?_set_self], hc.advances,
            toNat_succ (succ_ne_zero hc.unexhausted)⟩
  · intro command e he
    rcases step_cases s command with ⟨e', hstep⟩ | ⟨reply, s', hstep, -⟩
    · rw [hstep]
    · rw [hstep] at he
      cases he

end MiniCloud.ControlPlane
