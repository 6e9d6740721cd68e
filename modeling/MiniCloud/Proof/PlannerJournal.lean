import MiniCloud.Proof.Checksum
import MiniCloud.Proof.Placement

/-!
# The planner's journal

A decision stays in the journal from the call that makes it to its acknowledgement. While it is
there, no call decides anything about its command or its assignment again.

Both maps are touched together. `assignments` is the inverse of `decisions`, and that is what makes
a lookup by assignment id find the decision that a lookup by command id would. One case is not
settled by the maps alone: a call with the command id of one decision and the assignment id of
another. It is refused because the assignment id is part of the fingerprint, which is as good as
the hash behind it; so the requests of a run are assumed not to collide.
-/

namespace MiniCloud.Scheduler

open Lib Problem Digest Model ServingAuth

variable {config : Config} {p : Planner} {call : PlannerCall} {r : PlacementRequest}
  {commandID : GoString} {record : DecisionRecord} {limit : Int}

/-! ## What a call can do -/

/-- The answer is an error. -/
def PlannerAnswer.Failed : PlannerAnswer → Prop
  | .done result => result ≠ .ok ()
  | .planned result => ∀ decision, result ≠ .ok decision

/-- The answer is a decision made by an earlier call. -/
def PlannerAnswer.Retained (answer : PlannerAnswer) : Prop :=
  ∃ decision, answer = .planned (.ok decision) ∧ decision.status ≠ .applied

/-- The planner without a decision. -/
def Planner.forgotten (p : Planner) (commandID assignmentID : GoString) : Planner :=
  { p with
    decisions := p.decisions.delete commandID
    assignments :=
      if p.assignments.get? assignmentID = some commandID then p.assignments.delete assignmentID
      else p.assignments }

inductive Journals (p : Planner) : PlannerCall → PlannerAnswer → Planner → Prop
  | refused {call : PlannerCall} {answer : PlannerAnswer} (hfailed : answer.Failed) :
      Journals p call answer p
  | retained {r : PlacementRequest} {workers : List WorkerSnapshot} {decision : Decision}
      (hstatus : decision.status ≠ .applied) :
      Journals p (.plan r workers) (.planned (.ok decision)) p
  | recorded {r : PlacementRequest} {workers : List WorkerSnapshot} {fingerprint : SHA256}
      {chosen : EligibleCandidate} {candidates : List Candidate} (hr : r.validate = .ok ())
      (hfingerprint : requestFingerprint r = .ok fingerprint) (hopen : Open p r) :
      Journals p (.plan r workers)
        (.planned (.ok ⟨.applied, Planner.assignmentFor r chosen, p.barrier, candidates⟩))
        (p.recorded r fingerprint
          ⟨.applied, Planner.assignmentFor r chosen, p.barrier, candidates⟩)
  | installed {barrier : LeaderBarrier}
      (hforward : p.barrier.term ≠ 0 →
        p.barrier.term ≤ barrier.term ∧ p.barrier.appliedIndex ≤ barrier.appliedIndex)
      (hterm : barrier.term ≠ 0) :
      Journals p (.installBarrier barrier) (.done (.ok ())) { p with barrier := barrier }
  | invalidated : Journals p .invalidateBarrier (.done (.ok ())) p.invalidateBarrier
  | unknown {commandID : GoString} : Journals p (.acknowledge commandID) (.done (.ok ())) p
  | acknowledged {commandID : GoString} {record : DecisionRecord}
      (hrecord : p.decisions.get? commandID = some record) :
      Journals p (.acknowledge commandID) (.done (.ok ()))
        (p.forgotten commandID record.decision.assignment.assignmentID)

theorem installBarrier_journals (p : Planner) (barrier : LeaderBarrier) :
    Journals p (.installBarrier barrier) (p.step (.installBarrier barrier)).1
      (p.step (.installBarrier barrier)).2 := by
  rw [Planner.step]
  rcases hexec : Op.exec (Planner.installBarrier barrier) p with ⟨result, p'⟩
  simp only [Planner.installBarrier, Op.exec_ofExcept_bind, Op.exec_get_bind,
    Op.exec_failIf_bind, Op.exec_set] at hexec
  split at hexec
  next hchecks =>
    have hpassed := checks_ok.mp hchecks
    simp only [List.forall_mem_cons, mustNot_fails, Bool.or_eq_false_iff,
      beq_eq_false_iff_ne] at hpassed
    split at hexec
    next =>
      cases hexec
      exact .refused (by simp [PlannerAnswer.Failed])
    next hback =>
      cases hexec
      refine .installed (fun hterm => ?_) hpassed.1.1
      simp only [Bool.and_eq_true, bne_iff_ne, Bool.or_eq_true, decide_eq_true_eq, not_and,
        not_or] at hback
      exact ⟨UInt64.not_lt.mp (hback hterm).1, UInt64.not_lt.mp (hback hterm).2⟩
  next =>
    cases hexec
    exact .refused (by simp [PlannerAnswer.Failed])

theorem plan_journals (p : Planner) (r : PlacementRequest) (workers : List WorkerSnapshot) :
    Journals p (.plan r workers) (p.step (.plan r workers)).1 (p.step (.plan r workers)).2 := by
  rw [Planner.step]
  rcases hexec : Op.exec (Planner.plan r workers) p with ⟨result, p'⟩
  cases hr : r.validate with
  | error err =>
    cases (plan_invalid hr).symm.trans hexec
    exact .refused (by simp [PlannerAnswer.Failed])
  | ok _ =>
    obtain ⟨fingerprint, hfingerprint, hplans⟩ := plan_exec hexec hr
    cases hplans with
    | duplicate | alreadySatisfied => exact .retained (by simp)
    | placed hopen => exact .recorded hr hfingerprint hopen
    | _ => exact .refused (by simp [PlannerAnswer.Failed])

theorem acknowledge_journals (p : Planner) (commandID : GoString) :
    Journals p (.acknowledge commandID) (p.step (.acknowledge commandID)).1
      (p.step (.acknowledge commandID)).2 := by
  simp only [Planner.step, Planner.acknowledge, Op.exec_failIf_bind, Op.exec_get_bind]
  by_cases hid : (!identifierPattern commandID) = true
  · rw [if_pos hid]
    exact .refused (by simp [PlannerAnswer.Failed])
  · rw [if_neg hid]
    cases hrecord : p.decisions.get? commandID with
    | none => exact .unknown
    | some record => exact .acknowledged hrecord

/-- Every call is one of these. -/
theorem step_journals {p' : Planner} {answer : PlannerAnswer} (hstep : p.step call = (answer, p')) :
    Journals p call answer p' := by
  have hfirst : (p.step call).1 = answer := congrArg Prod.fst hstep
  have hsecond : (p.step call).2 = p' := congrArg Prod.snd hstep
  rw [← hfirst, ← hsecond]
  cases call with
  | installBarrier barrier => exact installBarrier_journals p barrier
  | invalidateBarrier => exact .invalidated
  | plan r workers => exact plan_journals p r workers
  | acknowledge commandID => exact acknowledge_journals p commandID

/-! ## The invariant -/

/-- `assignments` is the inverse of the assignment ids of the retained decisions. -/
def Inverse (p : Planner) : Prop :=
  ∀ assignmentID commandID, p.assignments.get? assignmentID = some commandID ↔
    ∃ record, p.decisions.get? commandID = some record ∧
      record.decision.assignment.assignmentID = assignmentID

structure JournalInv (maxDecisions : Int) (p : Planner) : Prop where
  inverse : Inverse p
  limit : p.maxDecisions = maxDecisions
  room : (p.decisions.len : Int) ≤ p.maxDecisions
  /-- The first barrier cannot go back behind the zero one. -/
  zero : p.barrier.term = 0 → p.barrier.appliedIndex = 0

theorem inverse_recorded {fingerprint : SHA256} {decision : Decision} (h : Inverse p)
    (hopen : Open p r) (hid : decision.assignment.assignmentID = r.assignmentID) :
    Inverse (p.recorded r fingerprint decision) := by
  intro assignmentID commandID
  show (p.assignments.set _ _).get? _ = _ ↔ ∃ record, (p.decisions.set _ _).get? _ = _ ∧ _
  rw [GoMap.get?_set, GoMap.get?_set]
  by_cases hassignment : assignmentID = r.assignmentID
  · subst hassignment
    rw [if_pos rfl]
    by_cases hcommand : commandID = r.commandID
    · rw [if_pos hcommand, hcommand]
      exact iff_of_true rfl ⟨_, rfl, hid⟩
    · -- another decision for this assignment would be in the inverse already
      rw [if_neg hcommand, ← h, hopen.assignment]
      exact iff_of_false (fun heq => hcommand (Option.some.inj heq).symm) (by simp)
  · rw [if_neg hassignment]
    by_cases hcommand : commandID = r.commandID
    · subst hcommand
      rw [if_pos rfl, h, hopen.command]
      refine iff_of_false (by simp) ?_
      rintro ⟨record, hrecord, heq⟩
      cases hrecord
      exact hassignment (heq.symm.trans hid)
    · rw [if_neg hcommand, h]

theorem inverse_forgotten (h : Inverse p) (hrecord : p.decisions.get? commandID = some record) :
    Inverse (p.forgotten commandID record.decision.assignment.assignmentID) := by
  have hfound := (h _ _).mpr ⟨record, hrecord, rfl⟩
  intro assignmentID commandID'
  show GoMap.get? (if _ then _ else _) _ = _ ↔ ∃ record, (p.decisions.delete _).get? _ = _ ∧ _
  rw [if_pos hfound, GoMap.get?_delete, GoMap.get?_delete]
  by_cases hassignment : assignmentID = record.decision.assignment.assignmentID
  · rw [if_pos hassignment]
    refine iff_of_false (by simp) ?_
    rintro ⟨record', hrecord', heq⟩
    split at hrecord'
    · cases hrecord'
    next hcommand =>
      have hother := (h _ _).mpr ⟨record', hrecord', heq⟩
      rw [hassignment, hfound] at hother
      exact hcommand (Option.some.inj hother).symm
  · rw [if_neg hassignment]
    by_cases hcommand : commandID' = commandID
    · rw [if_pos hcommand, hcommand, h, hrecord]
      refine iff_of_false ?_ (by simp)
      rintro ⟨record', hrecord', heq⟩
      cases hrecord'
      exact hassignment heq.symm
    · rw [if_neg hcommand, h]

theorem journalInv_new (h : new config = .ok p) : JournalInv p.maxDecisions p := by
  obtain ⟨⟨⟩, hchecks, hp⟩ := bind_ok.mp h
  cases hp
  have hpositive := (checks_ok.mp hchecks) _ List.mem_cons_self
  simp only [Bool.or_eq_false_iff, decide_eq_false_iff_not, not_lt] at hpositive
  refine ⟨fun assignmentID commandID => ?_, rfl, ?_, fun _ => rfl⟩
  · exact iff_of_false (by simp) (by simp)
  · exact le_trans (by decide : (0 : Int) ≤ 1) hpositive.1

theorem journalInv_step (h : JournalInv limit p) (call : PlannerCall) :
    JournalInv limit (p.step call).2 := by
  rcases hstep : p.step call with ⟨answer, p'⟩
  cases step_journals hstep with
  | refused | retained | unknown => exact h
  | recorded hr hfingerprint hopen =>
    refine ⟨inverse_recorded h.inverse hopen rfl, h.limit, ?_, h.zero⟩
    have hroom := hopen.room
    show ((p.decisions.set _ _).len : Int) ≤ p.maxDecisions
    rw [GoMap.len_set_new _ hopen.command]
    push_cast
    omega
  | installed hforward hterm => exact ⟨h.inverse, h.limit, h.room, fun hzero => absurd hzero hterm⟩
  | invalidated => exact ⟨h.inverse, h.limit, h.room, h.zero⟩
  | acknowledged hrecord =>
    refine ⟨inverse_forgotten h.inverse hrecord, h.limit, ?_, h.zero⟩
    have hlen := GoMap.len_delete_le p.decisions
    have hroom := h.room
    exact le_trans (Int.ofNat_le.mpr (hlen _)) hroom

theorem journalInv_reachable {p₀ : Planner} (hnew : new config = .ok p₀)
    (h : plannerMachine.Reachable p₀ p) : JournalInv p₀.maxDecisions p :=
  Machine.invariant (journalInv_new hnew) (fun _ call _ hs => journalInv_step hs call) h

/-- A step takes the barrier forward. -/
theorem barrier_forward (h : JournalInv limit p) (call : PlannerCall) :
    p.barrier.term ≤ (p.step call).2.barrier.term ∧
      p.barrier.appliedIndex ≤ (p.step call).2.barrier.appliedIndex := by
  have hsame : p.barrier.term ≤ p.barrier.term ∧ p.barrier.appliedIndex ≤ p.barrier.appliedIndex :=
    ⟨UInt64.le_refl _, UInt64.le_refl _⟩
  rcases hstep : p.step call with ⟨answer, p'⟩
  cases step_journals hstep with
  | refused | retained | recorded => exact hsame
  | @installed barrier hforward =>
    by_cases hterm : p.barrier.term = 0
    · show p.barrier.term ≤ barrier.term ∧ p.barrier.appliedIndex ≤ barrier.appliedIndex
      rw [hterm, h.zero hterm]
      exact ⟨UInt64.zero_le, UInt64.zero_le⟩
    · exact hforward hterm
  | _ => exact hsame

/-! ## Fingerprints and the ids in them -/

/-- The bytes that the fingerprint of a request hashes. -/
def PlacementRequest.hashed (r : PlacementRequest) : Option GoString :=
  (Json.transform { r with commandID := [] }.toJSON).map
    (preimage fingerprintDomain fingerprintVersion)

theorem requestFingerprint_hashed {fingerprint : SHA256}
    (h : requestFingerprint r = .ok fingerprint) :
    ∃ text, Json.transform { r with commandID := [] }.toJSON = some text ∧
      r.hashed = some (preimage fingerprintDomain fingerprintVersion text) ∧
      fingerprint = sum (preimage fingerprintDomain fingerprintVersion text) := by
  rw [requestFingerprint, canonicalJSON, if_neg (by decide), if_neg (by decide)] at h
  split at h
  · cases h
  next text htext =>
    refine ⟨text, htext, ?_, (Except.ok.inj h).symm⟩
    rw [PlacementRequest.hashed, htext, Option.map_some]

theorem validate_assignmentID (h : r.validate = .ok ()) :
    identifierPattern r.assignmentID = true := by
  have hchecks := checks_ok.mp (seq_ok.mp h).1
  simp only [List.forall_mem_cons, mustNot_fails, Bool.not_eq_false'] at hchecks
  exact hchecks.2.1

/-- Valid requests with one canonical text are about one assignment. -/
theorem assignmentID_of_text {a b : PlacementRequest} {text : GoString} (ha : a.validate = .ok ())
    (hb : b.validate = .ok ()) (htext : Json.transform { a with commandID := [] }.toJSON = some text)
    (htext' : Json.transform { b with commandID := [] }.toJSON = some text) :
    a.assignmentID = b.assignmentID := by
  have hequiv := (Json.transform_eq_iff htext htext').mp rfl
  rw [PlacementRequest.toJSON, PlacementRequest.toJSON] at hequiv
  have hmembers := (Json.equiv_record_iff (by rfl) (by rfl)).mp hequiv
  have hid := (Json.equivMembers_cons.mp (Json.equivMembers_cons.mp hmembers).2).1
  rwa [Discovery.equiv_kept (Discovery.kept_identifier (validate_assignmentID ha))
    (Discovery.kept_identifier (validate_assignmentID hb))] at hid

/-- No two requests of the run hash different bytes to one digest. -/
def CollisionFree (calls : List PlannerCall) : Prop :=
  ∀ a workers b workers', .plan a workers ∈ calls → .plan b workers' ∈ calls →
    ∀ p q, a.hashed = some p → b.hashed = some q → sum p = sum q → p = q

theorem CollisionFree.of_append {calls calls' : List PlannerCall}
    (h : CollisionFree (calls ++ calls')) : CollisionFree calls :=
  fun a workers b workers' ha hb =>
    h a workers b workers' (List.mem_append_left _ ha) (List.mem_append_left _ hb)

/-- A retained decision answers a request of the history, and is filed under its ids. -/
def Filed (history : List PlannerEvent) (p : Planner) : Prop :=
  ∀ commandID record, p.decisions.get? commandID = some record →
    ∃ r workers, (∃ e ∈ history, e.input = .plan r workers) ∧ r.validate = .ok () ∧
      requestFingerprint r = .ok record.fingerprint ∧
      record.decision.assignment.assignmentID = r.assignmentID

theorem filed_run (p₀ : Planner) (h0 : p₀.decisions = ∅) (calls : List PlannerCall) :
    Filed (plannerMachine.events p₀ calls) (plannerMachine.run p₀ calls) := by
  refine Machine.trace ?_ ?_ calls
  · intro commandID record hrecord
    rw [h0] at hrecord
    cases hrecord
  · intro history p call _ hfiled commandID record hrecord
    have hold : p.decisions.get? commandID = some record → ∃ r workers,
        (∃ e ∈ history ++ [plannerMachine.event p call], e.input = .plan r workers) ∧
        r.validate = .ok () ∧ requestFingerprint r = .ok record.fingerprint ∧
        record.decision.assignment.assignmentID = r.assignmentID := by
      intro hrecord
      obtain ⟨r, workers, ⟨e, he, hinput⟩, hrest⟩ := hfiled commandID record hrecord
      exact ⟨r, workers, ⟨e, List.mem_append_left _ he, hinput⟩, hrest⟩
    have hlast : plannerMachine.event p call ∈ history ++ [plannerMachine.event p call] := by simp
    rcases hstep : p.step call with ⟨answer, p'⟩
    rw [show (plannerMachine.step p call).2 = p' from congrArg Prod.snd hstep] at hrecord
    cases step_journals hstep with
    | refused | retained | installed | invalidated | unknown => exact hold hrecord
    | @recorded r workers fingerprint chosen candidates hr hfingerprint hopen =>
      rcases GoMap.get?_set_cases hrecord with ⟨-, rfl⟩ | ⟨-, hrecord⟩
      · exact ⟨r, workers, ⟨_, hlast, rfl⟩, hr, hfingerprint, rfl⟩
      · exact hold hrecord
    | acknowledged => exact hold (GoMap.get?_delete_some hrecord).2

/-- Only its acknowledgement removes a record. -/
theorem record_kept (hcall : call ≠ .acknowledge commandID)
    (h : p.decisions.get? commandID = some record) :
    (p.step call).2.decisions.get? commandID = some record := by
  rcases hstep : p.step call with ⟨answer, p'⟩
  cases step_journals hstep with
  | refused | retained | installed | invalidated | unknown => exact h
  | @recorded r workers fingerprint chosen candidates hr hfingerprint hopen =>
    exact GoMap.get?_set_new hopen.command h
  | @acknowledged commandID' =>
    have hne : commandID ≠ commandID' := by
      rintro rfl
      exact hcall rfl
    exact (GoMap.get?_delete_ne _ hne).trans h

/-! ## Retained decisions -/

/-- The call decides something new. -/
structure Decides (e : PlannerEvent) (r : PlacementRequest) (decision : Decision) : Prop where
  input : ∃ workers, e.input = .plan r workers
  output : e.output = .planned (.ok decision)
  applied : decision.status = .applied

theorem decides_recorded {decision : Decision}
    (h : Decides (plannerMachine.event p call) r decision) :
    ∃ fingerprint, r.validate = .ok () ∧ requestFingerprint r = .ok fingerprint ∧
      (p.step call).2.decisions.get? r.commandID = some ⟨fingerprint, decision⟩ ∧
      decision.assignment.assignmentID = r.assignmentID ∧ p.barrier.ready = true := by
  obtain ⟨⟨workers, hinput⟩, houtput, happlied⟩ := h
  obtain rfl : call = .plan r workers := hinput
  rcases hstep : p.step (.plan r workers) with ⟨answer, p'⟩
  obtain rfl : answer = .planned (.ok decision) := (congrArg Prod.fst hstep).symm.trans houtput
  cases step_journals hstep with
  | refused hfailed => exact absurd rfl (hfailed decision)
  | retained hstatus => exact absurd happlied hstatus
  | recorded hr hfingerprint hopen =>
    exact ⟨_, hr, hfingerprint, GoMap.get?_set_self _ _ _, rfl, hopen.ready⟩

/--
What a later call with one of the two ids of a retained decision answers. `p` is the planner it
finds: another decision may be retained under the command id of a request for the same assignment.
-/
inductive Answers (p : Planner) (r : PlacementRequest) (decision : Decision)
    (r' : PlacementRequest) : PlannerAnswer → Prop
  /-- Validation comes before the journal. -/
  | invalid {err : GoError} (hr' : r'.validate = .error err) :
      Answers p r decision r' (.planned (.error (failing err)))
  | duplicate (hid : r'.commandID = r.commandID)
      (hsame : requestFingerprint r' = requestFingerprint r) :
      Answers p r decision r' (.planned (.ok { decision with status := .duplicate }))
  | commandReused (hr' : r'.validate = .ok ()) (hid : r'.commandID = r.commandID)
      (hother : requestFingerprint r' ≠ requestFingerprint r) :
      Answers p r decision r' (.planned (.error (failing commandReused)))
  | alreadySatisfied (hne : r'.commandID ≠ r.commandID) (hid : r'.assignmentID = r.assignmentID)
      (hfree : p.decisions.get? r'.commandID = none)
      (hsame : requestFingerprint r' = requestFingerprint r) :
      Answers p r decision r' (.planned (.ok { decision with status := .alreadySatisfied }))
  | assignmentReused (hr' : r'.validate = .ok ()) (hne : r'.commandID ≠ r.commandID)
      (hid : r'.assignmentID = r.assignmentID) (hfree : p.decisions.get? r'.commandID = none)
      (hother : requestFingerprint r' ≠ requestFingerprint r) :
      Answers p r decision r' (.planned (.error (failing assignmentReused)))
  | commandTaken {record : DecisionRecord} (hr' : r'.validate = .ok ())
      (hne : r'.commandID ≠ r.commandID) (htaken : p.decisions.get? r'.commandID = some record) :
      Answers p r decision r' (.planned (.error (failing commandReused)))

section Retention

variable {fingerprint : SHA256} {decision : Decision} {r' : PlacementRequest}

theorem answers_command (hrecord : p.decisions.get? r.commandID = some ⟨fingerprint, decision⟩)
    (hfingerprint : requestFingerprint r = .ok fingerprint) (hr' : r'.validate = .ok ())
    (hid : r'.commandID = r.commandID) (workers : List WorkerSnapshot) :
    Answers p r decision r' (p.step (.plan r' workers)).1 := by
  rcases hexec : Op.exec (Planner.plan r' workers) p with ⟨result, p'⟩
  rw [Planner.step, hexec]
  rw [← hid] at hrecord
  obtain ⟨fingerprint', hfingerprint', hplans⟩ := plan_exec hexec hr'
  cases hplans with
  | commandReused hfound hother =>
    cases hrecord.symm.trans hfound
    refine .commandReused hr' hid ?_
    rw [hfingerprint', hfingerprint]
    exact fun heq => hother (Except.ok.inj heq).symm
  | duplicate hfound hsame =>
    cases hrecord.symm.trans hfound
    refine .duplicate hid ?_
    rw [hfingerprint', hfingerprint]
    exact congrArg Except.ok hsame.symm
  | assignmentReused hnone | alreadySatisfied hnone | stale hnone | full hnone =>
    cases hrecord.symm.trans hnone
  | badWorkers hopen | unplaced hopen | placed hopen => cases hrecord.symm.trans hopen.command

theorem answers_assignment
    (hrecord : p.decisions.get? r.commandID = some ⟨fingerprint, decision⟩)
    (hfingerprint : requestFingerprint r = .ok fingerprint)
    (hassignment : p.assignments.get? r'.assignmentID = some r.commandID)
    (hr' : r'.validate = .ok ()) (hne : r'.commandID ≠ r.commandID)
    (hid : r'.assignmentID = r.assignmentID)
    (hother : ∀ record, p.decisions.get? r'.commandID = some record →
      requestFingerprint r' ≠ .ok record.fingerprint) (workers : List WorkerSnapshot) :
    Answers p r decision r' (p.step (.plan r' workers)).1 := by
  rcases hexec : Op.exec (Planner.plan r' workers) p with ⟨result, p'⟩
  rw [Planner.step, hexec]
  obtain ⟨fingerprint', hfingerprint', hplans⟩ := plan_exec hexec hr'
  cases hplans with
  | commandReused hfound => exact .commandTaken hr' hne hfound
  | duplicate hfound hsame => exact absurd (hsame ▸ hfingerprint') (hother _ hfound)
  | assignmentReused hnone hfound hdiffers =>
    cases hassignment.symm.trans hfound
    rw [hrecord] at hdiffers
    refine .assignmentReused hr' hne hid hnone ?_
    rw [hfingerprint', hfingerprint]
    exact fun heq => hdiffers (Except.ok.inj heq).symm
  | alreadySatisfied hnone hfound hsame =>
    cases hassignment.symm.trans hfound
    rw [hrecord] at hsame ⊢
    refine .alreadySatisfied hne hid hnone ?_
    rw [hfingerprint', hfingerprint]
    exact congrArg Except.ok hsame.symm
  | stale _ hnone | full _ hnone => cases hassignment.symm.trans hnone
  | badWorkers hopen | unplaced hopen | placed hopen =>
    cases hassignment.symm.trans hopen.assignment

end Retention

theorem new_empty (h : new config = .ok p) : p.decisions = ∅ := by
  obtain ⟨⟨⟩, -, hp⟩ := bind_ok.mp h
  cases hp
  rfl

/-- Another command with the fingerprint of a request is about another assignment. -/
theorem other_fingerprint {p₀ : Planner} (hnew : new config = .ok p₀) {calls : List PlannerCall}
    {r' : PlacementRequest} {workers' : List WorkerSnapshot}
    (hcollision : CollisionFree (calls ++ [.plan r' workers']))
    (hassignment : (plannerMachine.run p₀ calls).assignments.get? r'.assignmentID = some commandID)
    (hne : r'.commandID ≠ commandID) (hr' : r'.validate = .ok ())
    (hrecord : (plannerMachine.run p₀ calls).decisions.get? r'.commandID = some record) :
    requestFingerprint r' ≠ .ok record.fingerprint := by
  intro hfingerprint'
  have hinv := journalInv_reachable hnew (Machine.Reachable.init.run calls)
  obtain ⟨a, workers, ⟨e, he, hinput⟩, ha, hfingerprint, hid⟩ :=
    filed_run p₀ (new_empty hnew) calls _ _ hrecord
  obtain ⟨is₁, is₂, hcalls, -, -⟩ := Machine.mem_events he
  have hmem : .plan a workers ∈ calls ++ [.plan r' workers'] := by
    rw [hcalls, hinput]
    simp
  obtain ⟨text, htext, hhashed, hsum⟩ := requestFingerprint_hashed hfingerprint
  obtain ⟨text', htext', hhashed', hsum'⟩ := requestFingerprint_hashed hfingerprint'
  have hsame := preimage_inj (hcollision a workers r' workers' hmem (by simp) _ _ hhashed hhashed'
    (hsum.symm.trans hsum'))
  subst hsame
  -- the two requests are about one assignment, and the inverse has one command for it
  have heq := assignmentID_of_text ha hr' htext htext'
  have hfound := (hinv.inverse _ _).mpr ⟨record, hrecord, hid.trans heq⟩
  rw [hassignment] at hfound
  exact hne (Option.some.inj hfound).symm

/-- What one call keeps. -/
structure Keeps (maxDecisions : Int) (e : PlannerEvent) : Prop where
  inverse : Inverse e.post
  room : (e.post.decisions.len : Int) ≤ maxDecisions
  term : e.pre.barrier.term ≤ e.post.barrier.term
  index : e.pre.barrier.appliedIndex ≤ e.post.barrier.appliedIndex
  ready : ∀ commandID record, e.post.decisions.get? commandID = some record →
    e.pre.decisions.get? commandID = some record ∨
      (e.pre.decisions.get? commandID = none ∧ e.pre.barrier.ready = true)
  unchanged : e.output.Failed ∨ e.output.Retained → e.post = e.pre

theorem step_keeps (h : JournalInv limit p) (call : PlannerCall) :
    Keeps limit (plannerMachine.event p call) := by
  have hinv := journalInv_step h call
  obtain ⟨hterm, hindex⟩ := barrier_forward h call
  refine ⟨hinv.inverse, hinv.limit ▸ hinv.room, hterm, hindex, ?_, ?_⟩
  · intro commandID record hrecord
    change (p.step call).2.decisions.get? commandID = some record at hrecord
    show p.decisions.get? commandID = some record ∨
      (p.decisions.get? commandID = none ∧ p.barrier.ready = true)
    rcases hstep : p.step call with ⟨answer, p'⟩
    rw [hstep] at hrecord
    cases step_journals hstep with
    | refused | retained | installed | invalidated | unknown => exact .inl hrecord
    | @recorded r workers fingerprint chosen candidates hr hfingerprint hopen =>
      by_cases hid : commandID = r.commandID
      · rw [hid]
        exact .inr ⟨hopen.command, hopen.ready⟩
      · exact .inl ((GoMap.get?_set_ne _ _ hid).symm.trans hrecord)
    | @acknowledged commandID' =>
      by_cases hid : commandID = commandID'
      · subst hid
        cases (GoMap.get?_delete_self _ _).symm.trans hrecord
      · exact .inl ((GoMap.get?_delete_ne _ hid).symm.trans hrecord)
  · intro hanswer
    show (p.step call).2 = p
    change (p.step call).1.Failed ∨ (p.step call).1.Retained at hanswer
    rcases hstep : p.step call with ⟨answer, p'⟩
    rw [hstep] at hanswer
    -- the calls that change something neither fail nor return a retained decision
    have hdone :
        ¬ ((PlannerAnswer.done (.ok ())).Failed ∨ (PlannerAnswer.done (.ok ())).Retained) := by
      rintro (hfailed | ⟨_, heq, _⟩)
      · exact hfailed rfl
      · cases heq
    cases step_journals hstep with
    | refused | retained | unknown => rfl
    | recorded =>
      rcases hanswer with hfailed | ⟨decision, heq, hstatus⟩
      · exact absurd rfl (hfailed _)
      · cases heq
        exact absurd rfl hstatus
    | installed | invalidated | acknowledged => exact absurd hanswer hdone

/--
**The journal of a run.** Every call keeps the maps inverse, the bound and the barrier's direction;
and from the call that decides until the acknowledgement, a request with one of the two ids gets the
recorded decision exactly if its fingerprint is the recorded one and its command id is not another
decision's. Otherwise it gets a conflict, or its validation error if it is not valid.
-/
theorem planner_journal {config : Config} {p₀ : Planner} (hnew : new config = .ok p₀)
    {calls : List PlannerCall} (hcollision : CollisionFree calls) :
    (∀ e ∈ plannerMachine.events p₀ calls, Keeps p₀.maxDecisions e) ∧
    ∀ before e between e' after r decision r' workers',
      plannerMachine.events p₀ calls = before ++ e :: (between ++ e' :: after) →
      Decides e r decision → (∀ x ∈ between, x.input ≠ .acknowledge r.commandID) →
      e'.input = .plan r' workers' →
      (r'.commandID = r.commandID ∨ r'.assignmentID = r.assignmentID) →
      Answers e'.pre r decision r' e'.output := by
  constructor
  · intro e he
    obtain ⟨hreach, heq⟩ := Machine.event_reachable .init he
    rw [heq]
    exact step_keeps (journalInv_reachable hnew hreach) e.input
  · intro before e between e' after r decision r' workers' hevents hdecides hbetween hinput' hids
    obtain ⟨calls₁, call, rest, hcalls, -, he, hrest⟩ := Machine.events_split hevents
    obtain ⟨calls₂, call', calls₃, hrest', hbetween', he', -⟩ := Machine.events_split hrest.symm
    rw [he] at hdecides
    obtain ⟨fingerprint, -, hfingerprint, hrecord, hid, -⟩ := decides_recorded hdecides
    have hreach := (Machine.Reachable.init.run calls₁).post he
    -- nothing between the two calls removes the record
    have hkept : (plannerMachine.run e.post calls₂).decisions.get? r.commandID =
        some ⟨fingerprint, decision⟩ := by
      refine Machine.run_keeps
        (P := fun p => p.decisions.get? r.commandID = some ⟨fingerprint, decision⟩)
        (X := fun x => x.input = .acknowledge r.commandID)
        (fun p i _ hx h => record_kept hx h) hreach (by rw [he]; exact hrecord) calls₂ ?_
      rw [← hbetween']
      exact hbetween
    have hrun : plannerMachine.run e.post calls₂ =
        plannerMachine.run p₀ (calls₁ ++ call :: calls₂) := by
      rw [Machine.run_append, Machine.run_cons, he]
      rfl
    rw [hrun] at he' hkept
    obtain rfl : call' = .plan r' workers' := by
      rw [he'] at hinput'
      exact hinput'
    rw [he']
    cases hr' : r'.validate with
    | error err =>
      show Answers _ r decision r' (.planned (Op.exec (Planner.plan r' workers') _).1)
      rw [plan_invalid hr']
      exact .invalid hr'
    | ok _ =>
      by_cases hcommand : r'.commandID = r.commandID
      · exact answers_command hkept hfingerprint hr' hcommand workers'
      · have hassignmentID := hids.resolve_left hcommand
        have hinv := journalInv_reachable hnew
          (Machine.Reachable.init.run (calls₁ ++ call :: calls₂))
        have hassignment := (hinv.inverse _ _).mpr ⟨_, hkept, hid.trans hassignmentID.symm⟩
        have hsplit : calls = ((calls₁ ++ call :: calls₂) ++ [.plan r' workers']) ++ calls₃ := by
          rw [hcalls, hrest']
          simp
        rw [hsplit] at hcollision
        have hshort := hcollision.of_append
        exact answers_assignment hkept hfingerprint hassignment hr' hcommand hassignmentID
          (fun record => other_fingerprint hnew hshort hassignment hcommand hr') workers'

/-! ## A sample run -/

def sampleStart : Planner := ⟨defaultMaxDecisions, noBarrier, ∅, ∅⟩

theorem sampleStart_new : new ⟨0⟩ = .ok sampleStart := rfl

/-- A placement, and a second call with its ids. -/
def sampleRun (r : PlacementRequest) : List PlannerCall :=
  [.installBarrier ⟨1, 1, true⟩, .plan (sampleRequest ∅) [Discovery.sampleWorker], .plan r []]

theorem sampleRun_events (r : PlacementRequest) : ∃ e decision,
    Decides e (sampleRequest ∅) decision ∧
    plannerMachine.events sampleStart (sampleRun r) =
      [plannerMachine.event sampleStart (.installBarrier ⟨1, 1, true⟩)] ++ e ::
        ([] ++ plannerMachine.event e.post (.plan r []) :: []) := by
  have hinstalled : (sampleStart.step (.installBarrier ⟨1, 1, true⟩)).2 = samplePlanner := rfl
  obtain ⟨decision, hplan, happlied⟩ := exists_ok (show ((Op.exec (Planner.plan (sampleRequest ∅)
    [Discovery.sampleWorker]) samplePlanner).1.toOption.any fun d => d.status = .applied) = true by
      decide +kernel)
  refine ⟨plannerMachine.event samplePlanner (.plan (sampleRequest ∅) [Discovery.sampleWorker]),
    decision, ⟨⟨_, rfl⟩, congrArg PlannerAnswer.planned hplan, of_decide_eq_true happlied⟩, ?_⟩
  rw [← hinstalled]
  rfl

theorem sampleRun_collisionFree : CollisionFree (sampleRun (sampleRequest ∅)) := by
  have honly : ∀ a workers, .plan a workers ∈ sampleRun (sampleRequest ∅) → a = sampleRequest ∅ := by
    intro a workers ha
    simp only [sampleRun, List.mem_cons, List.not_mem_nil, or_false, reduceCtorEq, false_or,
      PlannerCall.plan.injEq] at ha
    rcases ha with ha | ha
    · exact ha.1
    · exact ha.1
  intro a workers b workers' ha hb p q hp hq _
  rw [honly a workers ha] at hp
  rw [honly b workers' hb, hp] at hq
  exact Option.some.inj hq

/-- Asked again, without a Worker, the planner answers with the decision of the first call. -/
theorem planner_journal_sample : ∃ e decision, Decides e (sampleRequest ∅) decision ∧
    (plannerMachine.event e.post (.plan (sampleRequest ∅) [])).output =
      .planned (.ok { decision with status := .duplicate }) := by
  obtain ⟨e, decision, hdecides, hevents⟩ := sampleRun_events (sampleRequest ∅)
  have hanswers := (planner_journal sampleStart_new sampleRun_collisionFree).2 _ e _ _ _ _ decision
    _ [] hevents hdecides (by simp) rfl (.inl rfl)
  refine ⟨e, decision, hdecides, ?_⟩
  generalize (plannerMachine.event e.post (.plan (sampleRequest ∅) [])).output = answer
    at hanswers ⊢
  cases hanswers with
  | invalid hinvalid => cases sampleRequest_valid.1.symm.trans hinvalid
  | duplicate => rfl
  | commandReused _ _ hother => exact absurd rfl hother
  | alreadySatisfied hne | assignmentReused _ hne | commandTaken _ hne => exact absurd rfl hne

/-- A request for no slots, with the ids of the sample. -/
def sampleInvalid : PlacementRequest := { sampleRequest ∅ with requiredSlots := 0 }

def sampleRefusal : GoError :=
  invalid "runtime_profile" "runtime, platform, feature, memory, and slots are required"

/-- A request that does not validate is refused as such, whatever decision has its ids. -/
theorem invalid_before_conflict : ∃ e decision, Decides e (sampleRequest ∅) decision ∧
    plannerMachine.events sampleStart (sampleRun sampleInvalid) =
      [plannerMachine.event sampleStart (.installBarrier ⟨1, 1, true⟩)] ++ e ::
        ([] ++ plannerMachine.event e.post (.plan sampleInvalid []) :: []) ∧
    sampleInvalid.commandID = (sampleRequest ∅).commandID ∧
    (plannerMachine.event e.post (.plan sampleInvalid [])).output =
      .planned (.error (failing sampleRefusal)) ∧
    ∀ message, sampleRefusal ≠ classified .conflict message := by
  obtain ⟨e, decision, hdecides, hevents⟩ := sampleRun_events sampleInvalid
  have hinvalid : sampleInvalid.validate = .error sampleRefusal := rfl
  refine ⟨e, decision, hdecides, hevents, rfl, ?_, fun message heq => ?_⟩
  · show PlannerAnswer.planned (Op.exec (Planner.plan sampleInvalid []) e.post).1 = _
    rw [Planner.plan, hinvalid]
    rfl
  · cases heq

end MiniCloud.Scheduler
