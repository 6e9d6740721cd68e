import MiniCloud.Proof.Gate

/-!
# What the gate keeps true

The state invariants of the gate, next to its exactness: epochs only rise, what is stored belongs
to this boot and to the current session and epoch, the two maps stay within the limit, a tracked
identity is fixed for its session, and an unhealthy clock closes the gate for good.
-/

namespace MiniCloud.ServingAuth

open Lib Problem

variable {g g' : Gate} {call : Call} {answer : Answer}

/-! ## Epochs -/

/-- Neither epoch goes down. -/
structure EpochsRise (g g' : Gate) : Prop where
  discovery : g.highestDiscoveryEpoch ≤ g'.highestDiscoveryEpoch
  session : g.currentSessionEpoch ≤ g'.currentSessionEpoch

theorem EpochsRise.refl (g : Gate) : EpochsRise g g := ⟨UInt64.le_refl _, UInt64.le_refl _⟩

theorem EpochsRise.trans {g₁ g₂ g₃ : Gate} (h : EpochsRise g₁ g₂) (h' : EpochsRise g₂ g₃) :
    EpochsRise g₁ g₃ :=
  ⟨UInt64.le_trans h.discovery h'.discovery, UInt64.le_trans h.session h'.session⟩

theorem raised_highest (g : Gate) (epoch : UInt64) :
    g.highestDiscoveryEpoch ≤ (g.raised epoch).highestDiscoveryEpoch := by
  unfold Gate.raised
  split_ifs with h
  · exact UInt64.le_of_lt h
  · exact UInt64.le_refl _

theorem step_epochs (hacts : Acts g call answer g') : EpochsRise g g' := by
  cases hacts with
  | raised hvalid hepoch =>
    exact ⟨raised_highest g _, by rw [raised_currentSessionEpoch]; exact UInt64.le_refl _⟩
  | accepted hvalid hepoch hsession => exact ⟨raised_highest g _, UInt64.le_of_lt hsession⟩
  | _ => exact ⟨UInt64.le_refl _, UInt64.le_refl _⟩

theorem run_epochs (g : Gate) (calls : List Call) : EpochsRise g (gateMachine.run g calls) := by
  have hr : gateMachine.Reachable g g := .init
  exact Machine.run_rel EpochsRise.refl (fun _ _ _ => EpochsRise.trans)
    (fun s i _ => step_epochs (step_acts s i)) hr calls

/-! ## Limits -/

/-- A call adds a tracked Assignment only below the limit. -/
theorem step_limit (hacts : Acts g call answer g')
    (h : (g.assignments.len : Int) ≤ g.maxAuthorizations) (hmax : 1 ≤ g.maxAuthorizations) :
    (g'.assignments.len : Int) ≤ g.maxAuthorizations := by
  cases hacts with
  | raised hvalid hepoch =>
    simp only [Gate.raised, if_pos hepoch]
    exact h
  | accepted hvalid hepoch hsession =>
    show (0 : Int) ≤ g.maxAuthorizations
    omega
  | @installed connection authorization now hi =>
    show ((g.assignments.set authorization.fence.assignment.assignmentID
      authorization.fence.assignment).len : Int) ≤ _
    cases hget : g.assignments.get? authorization.fence.assignment.assignmentID with
    | some previous => rw [GoMap.len_set_old _ hget]; exact h
    | none =>
      have hroom := admits_untracked hi.admitted hget
      rw [GoMap.len_set_new _ hget]
      omega
  | @revoked assignmentID hid =>
    have hle := GoMap.len_delete_le g.assignments assignmentID
    show ((g.assignments.delete assignmentID).len : Int) ≤ _
    omega
  | _ => exact h

theorem run_limit {processClock : MonotonicClock} {config : Config} {g₀ : Gate}
    (hnew : new processClock config = .ok g₀) (calls : List Call) :
    ((gateMachine.run g₀ calls).assignments.len : Int) ≤ g₀.maxAuthorizations := by
  obtain ⟨-, -, hempty, -, hmax⟩ := new_ok hnew
  have hinv := Machine.invariant (M := gateMachine)
    (P := fun g => g.maxAuthorizations = g₀.maxAuthorizations ∧
      (g.assignments.len : Int) ≤ g.maxAuthorizations)
    ⟨rfl, by rw [hempty]; show (0 : Int) ≤ _; omega⟩ ?_
    (Machine.Reachable.init.run (M := gateMachine) calls)
  · rw [← hinv.1]
    exact hinv.2
  · rintro s i - ⟨hsame, hle⟩
    have hconfig := (step_sameConfig (step_acts s i)).maxAuthorizations
    exact ⟨hconfig.trans hsame, by rw [hconfig]; exact step_limit (step_acts s i) hle (hsame ▸ hmax)⟩

/-! ## Tracked identities -/

/-- Within a session only a revocation removes a tracked identity, and nothing changes it. -/
theorem step_tracked {id : GoString} {a : AssignmentIdentity} (hacts : Acts g call answer g')
    (hsession : g'.currentSessionEpoch = g.currentSessionEpoch)
    (hrevoke : call ≠ .revoke id) (ha : g.assignments.get? id = some a) :
    g'.assignments.get? id = some a := by
  cases hacts with
  | raised hvalid hepoch =>
    simp only [Gate.raised, if_pos hepoch]
    exact ha
  | @accepted connection hvalid hepoch hlt =>
    -- a new session is a higher one
    have hsame : connection.sessionEpoch = g.currentSessionEpoch := hsession
    rw [hsame] at hlt
    exact absurd hlt (UInt64.lt_irrefl _)
  | @installed connection authorization now hi =>
    show (g.assignments.set _ _).get? id = some a
    rw [GoMap.get?_set]
    split_ifs with hid
    · rw [hid] at ha
      rw [admits_tracked hi.admitted ha]
    · exact ha
  | @revoked assignmentID hne =>
    have hid : id ≠ assignmentID := fun heq => hrevoke (by rw [heq])
    exact (GoMap.get?_delete_ne _ hid).trans ha
  | _ => exact ha

theorem run_tracked {id : GoString} {a : AssignmentIdentity} (calls : List Call)
    (hsession : (gateMachine.run g calls).currentSessionEpoch = g.currentSessionEpoch)
    (hrevoke : .revoke id ∉ calls) (ha : g.assignments.get? id = some a) :
    (gateMachine.run g calls).assignments.get? id = some a := by
  induction calls generalizing g with
  | nil => exact ha
  | cons call calls ih =>
    rw [List.mem_cons, not_or] at hrevoke
    -- the session cannot rise and come back
    have hstep : (gateMachine.step g call).2.currentSessionEpoch = g.currentSessionEpoch := by
      refine UInt64.le_antisymm ?_ (step_epochs (step_acts g call)).session
      rw [← hsession]
      exact (run_epochs _ calls).session
    exact ih (hsession.trans hstep.symm) hrevoke.2
      (step_tracked (step_acts g call) hstep (fun heq => hrevoke.1 heq.symm) ha)

/-! ## The clock -/

theorem step_unhealthy (hacts : Acts g call answer g') (h : g.clockHealthy = false) :
    g'.clockHealthy = false := by
  have hticked : g.ticked.clockHealthy = false := (ClockGuard.read_unhealthy h).2
  cases hacts with
  | raised hvalid hepoch =>
    simp only [Gate.raised, if_pos hepoch]
    exact h
  | accepted hvalid hepoch hsession =>
    simp only [Gate.accepted, Gate.raised]
    split <;> exact h
  | ticked | installed | authorized | dropped => exact hticked
  | _ => exact h

theorem run_unhealthy (h : g.clockHealthy = false) (calls : List Call) :
    (gateMachine.run g calls).clockHealthy = false := by
  induction calls generalizing g with
  | nil => exact h
  | cons call calls ih => exact ih (step_unhealthy (step_acts g call) h)

theorem install_unhealthy (h : g.clockHealthy = false) (connection : ControlConnection)
    (authorization : Authorization) :
    (Op.exec (Gate.install connection authorization) g).1 ≠ .ok () := by
  intro hok
  have hacts := acts_install g connection authorization
  simp only [Gate.perform, hok] at hacts
  generalize (Op.exec (Gate.install connection authorization) g).2 = g' at hacts
  cases hacts with
  | kept hh => exact hh rfl
  | installed hi =>
    have hnow := hi.reading
    rw [(ClockGuard.read_unhealthy h).1] at hnow
    cases hnow

theorem authorizeSync_unhealthy (h : g.clockHealthy = false) (fence : InvocationFence) :
    (Op.exec (Gate.authorizeSync fence) g).1 ≠ .ok () := by
  rw [Ne, authorizeSync_ok]
  rintro ⟨record, now, -, hnow, -⟩
  rw [(ClockGuard.read_unhealthy h).1] at hnow
  cases hnow

/-! ## Failed installations -/

/-- An installation that fails has at most read the clock. -/
theorem install_error {g' : Gate} {connection : ControlConnection} {authorization : Authorization}
    {e : GoError} (h : Op.exec (Gate.install connection authorization) g = (.error e, g')) :
    g'.assignments = g.assignments ∧ g'.authorizations = g.authorizations := by
  have hacts := acts_install g connection authorization
  simp only [Gate.perform, h] at hacts
  cases hacts with
  | kept | ticked => exact ⟨rfl, rfl⟩

/--
**The state of the gate.** In every state a run from `New` reaches: both epochs only rise from
there; a stored authorization belongs to a tracked Assignment of the same identity, of this worker,
boot and session and of the highest epoch; the maps stay within the limit; a tracked identity lasts
its session unless revoked; an unhealthy clock stays unhealthy and nothing is installed or
authorized again; a failed installation leaves both maps alone.
-/
theorem gate_state {processClock : MonotonicClock} {config : Config} {g₀ : Gate}
    (hnew : new processClock config = .ok g₀) (calls : List Call) (g : Gate)
    (hg : g = gateMachine.run g₀ calls) :
    (∀ later, g.highestDiscoveryEpoch ≤ (gateMachine.run g later).highestDiscoveryEpoch ∧
      g.currentSessionEpoch ≤ (gateMachine.run g later).currentSessionEpoch) ∧
    (∀ id record, g.authorizations.get? id = some record →
      g.assignments.get? id = some record.authorization.fence.assignment ∧
      record.authorization.fence.assignment.worker =
        ⟨config.worker.workerID, config.worker.bootID, g.currentSessionEpoch⟩ ∧
      record.authorization.fence.discoveryEpoch = g.highestDiscoveryEpoch) ∧
    (g.authorizations.len ≤ g.assignments.len ∧
      (g.assignments.len : Int) ≤ g₀.maxAuthorizations) ∧
    (∀ later id identity,
      (gateMachine.run g later).currentSessionEpoch = g.currentSessionEpoch →
      .revoke id ∉ later → g.assignments.get? id = some identity →
      (gateMachine.run g later).assignments.get? id = some identity) ∧
    (g.clockHealthy = false → ∀ later, (gateMachine.run g later).clockHealthy = false ∧
      (∀ connection authorization,
        (Op.exec (Gate.install connection authorization) (gateMachine.run g later)).1 ≠ .ok ()) ∧
      ∀ fence, (Op.exec (Gate.authorizeSync fence) (gateMachine.run g later)).1 ≠ .ok ()) ∧
    (∀ connection authorization e g',
      Op.exec (Gate.install connection authorization) g = (.error e, g') →
      g'.assignments = g.assignments ∧ g'.authorizations = g.authorizations) := by
  have hinv : GateInv (gateMachine.events g₀ calls) g := hg ▸ gateInv_run hnew calls
  have hworker : g.worker = config.worker := by
    rw [hg, (run_sameConfig g₀ calls).worker, (new_ok hnew).2.1]
  have hstored : ∀ id record, g.authorizations.get? id = some record →
      g.assignments.get? id = some record.authorization.fence.assignment ∧
      record.authorization.fence.assignment.worker =
        ⟨config.worker.workerID, config.worker.bootID, g.currentSessionEpoch⟩ ∧
      record.authorization.fence.discoveryEpoch = g.highestDiscoveryEpoch := by
    intro id record hrecord
    obtain ⟨hst, rfl⟩ := hinv.stored_standing hrecord
    refine ⟨hst.tracked, ?_, hst.epoch⟩
    rw [hst.worker, ← hworker]
    rfl
  refine ⟨fun later => ⟨(run_epochs g later).discovery, (run_epochs g later).session⟩, hstored,
    ⟨?_, hg ▸ run_limit hnew calls⟩, fun later id identity => run_tracked later, ?_,
    fun connection authorization e g' => install_error⟩
  · refine GoMap.len_le_of_keys fun id record hrecord => ?_
    rw [(hstored id record hrecord).1]
    exact Option.some_ne_none _
  · intro hdown later
    have hlater := run_unhealthy hdown later
    exact ⟨hlater, install_unhealthy hlater, authorizeSync_unhealthy hlater⟩

theorem gate_state_sample :
    (gateMachine.run sampleGate sampleCalls).authorizations.len ≤
      (gateMachine.run sampleGate sampleCalls).assignments.len :=
  (gate_state sampleGate_new sampleCalls _ rfl).2.2.1.1

end MiniCloud.ServingAuth
