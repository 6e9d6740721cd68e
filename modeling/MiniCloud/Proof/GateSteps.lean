import MiniCloud.ServingAuth.Gate

/-!
# What a call of the gate can do

`step_acts` lists, once, everything a call can do to the gate together with the tests it passed on
the way. A call is harmless when it changes nothing and also looks harmless in the history: a
well-formed control connection it refuses does not have a higher epoch than the gate, a connection
it accepts again is the current one. The proofs about runs go by cases on `Acts`.
-/

namespace MiniCloud.ServingAuth

open Lib Problem

/-! ## The tests of a call -/

/-- An authorization that passes every test of `Install`. -/
structure Installable (g : Gate) (connection : ControlConnection) (authorization : Authorization)
    (now : Duration) : Prop where
  valid : authorization.validate g.maxTTL = .ok ()
  current : g.currentControlLocked connection = true
  epoch : authorization.fence.discoveryEpoch = connection.discoveryEpoch
  worker : authorization.fence.assignment.worker = g.currentWorkerLocked
  reading : (g.toClockGuard.read g.clock).1 = some now
  admitted : g.admits authorization.fence.assignment = .ok ()

/-- A fence that has reached the clock reading of `AuthorizeSync`, with the record it found. -/
structure Presented (g : Gate) (fence : InvocationFence) (record : AuthorizationRecord) : Prop where
  valid : fence.validate = .ok ()
  epoch : g.highestDiscoveryEpoch ≤ fence.discoveryEpoch
  mode : fence.assignment.mode = .normal
  stored : g.authorizations.get? fence.assignment.assignmentID = some record
  exact_fence : record.authorization.fence = fence

/-- A call that leaves the gate as it is and could not have ended a permission. -/
def Harmless (g : Gate) : Call → Answer → Prop
  | .acceptAuthoritativeControl connection, answer =>
    (connection.validate = .ok () → connection.discoveryEpoch ≤ g.highestDiscoveryEpoch) ∧
    (answer = .done (.ok ()) → connection.sessionEpoch = g.currentSessionEpoch)
  | .disconnectControl connection, _ => g.control.connection ≠ connection
  | .install _ _, answer => answer ≠ .done (.ok ())
  | .authorizeSync _, answer => answer ≠ .done (.ok ())
  | .revoke assignmentID, _ => assignmentID = []
  | _, _ => True

/-- What a call can do. -/
inductive Acts (g : Gate) : Call → Answer → Gate → Prop where
  | kept {call : Call} {answer : Answer} (h : Harmless g call answer) : Acts g call answer g
  /-- A connection of a higher epoch whose session is refused still ends the old epoch. -/
  | raised {connection : ControlConnection} {e : GoError} (hvalid : connection.validate = .ok ())
      (hepoch : g.highestDiscoveryEpoch < connection.discoveryEpoch) :
      Acts g (.acceptAuthoritativeControl connection) (.done (.error e))
        (g.raised connection.discoveryEpoch)
  | accepted {connection : ControlConnection} (hvalid : connection.validate = .ok ())
      (hepoch : g.highestDiscoveryEpoch ≤ connection.discoveryEpoch)
      (hsession : g.currentSessionEpoch < connection.sessionEpoch) :
      Acts g (.acceptAuthoritativeControl connection) (.done (.ok ()))
        ((g.raised connection.discoveryEpoch).accepted connection)
  | disconnected {connection : ControlConnection} (hcurrent : g.control.connection = connection) :
      Acts g (.disconnectControl connection) (.done (.ok ()))
        { g with control := { g.control with connected := false } }
  /-- `Install` or `AuthorizeSync` fails after it has read the clock. -/
  | ticked {call : Call} {e : GoError}
      (h : (∃ c a, call = .install c a) ∨ ∃ f, call = .authorizeSync f) :
      Acts g call (.done (.error e)) g.ticked
  | installed {connection : ControlConnection} {authorization : Authorization} {now : Duration}
      (h : Installable g connection authorization now) :
      Acts g (.install connection authorization) (.done (.ok ()))
        (g.ticked.installed connection authorization now)
  | authorized {fence : InvocationFence} {record : AuthorizationRecord} {now : Duration}
      (h : Presented g fence record) (hnow : (g.toClockGuard.read g.clock).1 = some now)
      (hlive : g.validLocked record now = true) :
      Acts g (.authorizeSync fence) (.done (.ok ())) g.ticked
  /-- A permission that is no longer valid is dropped when it is asked for. -/
  | dropped {fence : InvocationFence} {record : AuthorizationRecord} {now : Duration} {e : GoError}
      (h : Presented g fence record) (hnow : (g.toClockGuard.read g.clock).1 = some now)
      (hdead : g.validLocked record now = false) :
      Acts g (.authorizeSync fence) (.done (.error e))
        { g.ticked with
          authorizations := g.authorizations.delete fence.assignment.assignmentID }
  | revoked {assignmentID : GoString} (hid : assignmentID ≠ []) :
      Acts g (.revoke assignmentID) (.done (.ok ()))
        { g with
          assignments := g.assignments.delete assignmentID
          authorizations := g.authorizations.delete assignmentID }

/-! ## What the tests say -/

theorem assignmentID_ne_nil {a : AssignmentIdentity} (h : a.validate = .ok ()) :
    a.assignmentID ≠ [] := by
  have hid := checks_ok.mp (seq_ok.mp h).2 (mustNot (!identifierPattern a.assignmentID)
    "assignment_id" "must be a valid identifier") (by simp)
  intro hnil
  rw [hnil] at hid
  cases hid

theorem lifetime_of_valid {a : Authorization} {maxTTL : Duration} (h : a.validate maxTTL = .ok ()) :
    a.lifetime = .ttl ∨ a.lifetime = .liveOnly := by
  have hlife := (seq_ok.mp h).2
  cases hl : a.lifetime with
  | ttl => exact .inl rfl
  | liveOnly => exact .inr rfl
  | other text => simp [hl] at hlife

/-- A tracked Assignment admits its own identity only. -/
theorem admits_tracked {g : Gate} {identity previous : AssignmentIdentity}
    (h : g.admits identity = .ok ())
    (htracked : g.assignments.get? identity.assignmentID = some previous) : previous = identity := by
  simp only [Gate.admits, htracked, Gate.compatibleRefresh, checks_ok, List.forall_mem_cons] at h
  simpa using h.2.2.1

/-- A new one only below the limit. -/
theorem admits_untracked {g : Gate} {identity : AssignmentIdentity}
    (h : g.admits identity = .ok ()) (hnew : g.assignments.get? identity.assignmentID = none) :
    (g.assignments.len : Int) < g.maxAuthorizations := by
  simpa [Gate.admits, hnew, checks_ok] using h

/-! ## Each method -/

theorem exec_elapsedLocked (g : Gate) :
    Op.exec Gate.elapsedLocked g =
      ((match (g.toClockGuard.read g.clock).1 with
        | some now => .ok now
        | none => .error (classified .staleAssignment "worker monotonic clock is unhealthy")),
        g.ticked) := by
  rw [Gate.elapsedLocked, Op.exec_get_bind, Op.exec_set_bind]
  cases (g.toClockGuard.read g.clock).1 <;> rfl

theorem raised_of_le {g : Gate} {epoch : UInt64} (h : ¬ g.highestDiscoveryEpoch < epoch) :
    g.raised epoch = g := if_neg h

@[simp] theorem raised_currentSessionEpoch (g : Gate) (epoch : UInt64) :
    (g.raised epoch).currentSessionEpoch = g.currentSessionEpoch := by
  unfold Gate.raised
  split <;> rfl

section

variable (g : Gate) (connection : ControlConnection)

theorem acts_accept :
    Acts g (.acceptAuthoritativeControl connection)
      (g.perform (Gate.acceptAuthoritativeControl connection)).1
      (g.perform (Gate.acceptAuthoritativeControl connection)).2 := by
  simp only [Gate.perform, Gate.acceptAuthoritativeControl, Op.exec_ofExcept_bind]
  cases hvalid : connection.validate with
  | error e => exact .kept ⟨by simp [hvalid], by simp⟩
  | ok u =>
    simp only [Op.exec_get_bind, Op.exec_failIf_bind, Op.exec_set_bind, decide_eq_true_eq]
    split_ifs with hstale hsession hsame
    · exact .kept ⟨fun _ => UInt64.le_of_lt hstale, by simp⟩
    · by_cases hraise : g.highestDiscoveryEpoch < connection.discoveryEpoch
      · exact .raised hvalid hraise
      · rw [raised_of_le hraise]
        exact .kept ⟨fun _ => UInt64.not_lt.mp hraise, by simp⟩
    · rw [raised_currentSessionEpoch] at hsame
      by_cases hraise : g.highestDiscoveryEpoch < connection.discoveryEpoch
      · -- the raised gate is disconnected, so the same session is not a repetition
        have hdown : (g.raised connection.discoveryEpoch).control.connected = false := by
          simp [Gate.raised, hraise]
        simp only [hdown, Bool.false_and, Bool.not_false, Op.failIf, if_true, Op.exec_throw]
        exact .raised hvalid hraise
      · rw [raised_of_le hraise]
        simp only [Op.failIf]
        split_ifs
        · exact .kept ⟨fun _ => UInt64.not_lt.mp hraise, by simp⟩
        · exact .kept ⟨fun _ => UInt64.not_lt.mp hraise, fun _ => hsame⟩
    · rw [raised_currentSessionEpoch] at hsession hsame
      have hlt : g.currentSessionEpoch < connection.sessionEpoch :=
        UInt64.lt_of_le_of_ne (UInt64.not_lt.mp hsession) (Ne.symm hsame)
      exact .accepted hvalid (UInt64.not_lt.mp hstale) hlt

theorem acts_checkAssignment (fence : InvocationFence) :
    Acts g (.checkAssignment connection fence)
      (g.perform (Gate.checkAssignment connection fence)).1
      (g.perform (Gate.checkAssignment connection fence)).2 := by
  have hreads : (Op.exec (Gate.checkAssignment connection fence) g).2 = g := by
    simp only [Gate.checkAssignment, Op.exec_ofExcept_bind, Op.exec_get_bind, Op.failIf]
    repeat' split
    all_goals rfl
  rw [Gate.perform, hreads]
  exact .kept trivial

theorem acts_checkControl :
    Acts g (.checkControl connection) (g.perform (Gate.checkControl connection)).1
      (g.perform (Gate.checkControl connection)).2 := by
  have hreads : (Op.exec (Gate.checkControl connection) g).2 = g := by
    simp only [Gate.checkControl, Op.exec_ofExcept_bind, Op.exec_get_bind, Op.failIf]
    repeat' split
    all_goals rfl
  rw [Gate.perform, hreads]
  exact .kept trivial

theorem acts_disconnect :
    Acts g (.disconnectControl connection) (g.perform (Gate.disconnectControl connection)).1
      (g.perform (Gate.disconnectControl connection)).2 := by
  simp only [Gate.perform, Gate.disconnectControl, Op.exec_get_bind]
  split_ifs with hcurrent
  · exact .disconnected hcurrent
  · exact .kept hcurrent

theorem acts_install (authorization : Authorization) :
    Acts g (.install connection authorization)
      (g.perform (Gate.install connection authorization)).1
      (g.perform (Gate.install connection authorization)).2 := by
  simp only [Gate.perform, Gate.install, Op.exec_get_bind, Op.exec_ofExcept_bind]
  cases hvalid : authorization.validate g.maxTTL with
  | error e => exact .kept (by simp [Harmless])
  | ok u =>
    cases hconn : connection.validate with
    | error e => exact .kept (by simp [Harmless])
    | ok u =>
      simp only [Op.exec_failIf_bind]
      split_ifs with hcontrol hworker
      · exact .kept (by simp [Harmless])
      · exact .kept (by simp [Harmless])
      · simp only [Op.exec_bind, exec_elapsedLocked]
        cases hnow : (g.toClockGuard.read g.clock).1 with
        | none => exact .ticked (.inl ⟨_, _, rfl⟩)
        | some now =>
          simp only [Op.exec_ofExcept]
          cases hadmit : g.admits authorization.fence.assignment with
          | error e => exact .ticked (.inl ⟨_, _, rfl⟩)
          | ok u =>
            simp only [Bool.or_eq_true, Bool.not_eq_true', bne_iff_ne, ne_eq, not_or,
              Bool.not_eq_false, Decidable.not_not] at hcontrol hworker
            exact .installed ⟨hvalid, hcontrol.1, hcontrol.2, hworker, hnow, hadmit⟩

end

theorem recordFor_eq_some {g : Gate} {fence : InvocationFence} {record : AuthorizationRecord} :
    g.recordFor fence = some record ↔
      g.authorizations.get? fence.assignment.assignmentID = some record ∧
        record.authorization.fence = fence := by
  simp [Gate.recordFor, Option.filter_eq_some_iff]

theorem acts_authorizeSync (g : Gate) (fence : InvocationFence) :
    Acts g (.authorizeSync fence) (g.perform (Gate.authorizeSync fence)).1
      (g.perform (Gate.authorizeSync fence)).2 := by
  simp only [Gate.perform, Gate.authorizeSync, Op.exec_ofExcept_bind]
  cases hvalid : fence.validate with
  | error e => exact .kept (by simp [Harmless])
  | ok u =>
    simp only [Op.exec_get_bind, Op.exec_failIf_bind, decide_eq_true_eq]
    split_ifs with hstale hmode
    · exact .kept (by simp [Harmless])
    · exact .kept (by simp [Harmless])
    · rw [Op.exec_orFail_bind]
      cases hrecord : g.recordFor fence with
      | none => exact .kept (by simp [Harmless])
      | some record =>
        obtain ⟨hstored, hexact⟩ := recordFor_eq_some.mp hrecord
        have hpresented : Presented g fence record :=
          ⟨hvalid, UInt64.not_lt.mp hstale, by simpa using hmode, hstored, hexact⟩
        simp only [Op.exec_bind, exec_elapsedLocked]
        cases hnow : (g.toClockGuard.read g.clock).1 with
        | none => exact .ticked (.inr ⟨_, rfl⟩)
        | some now =>
          simp only [Op.exec_get]
          split_ifs with hlive
          · exact .authorized hpresented hnow hlive
          · exact .dropped hpresented hnow (Bool.eq_false_iff.mpr hlive)

theorem acts_revoke (g : Gate) (assignmentID : GoString) :
    Acts g (.revoke assignmentID) (g.perform (Gate.revoke assignmentID)).1
      (g.perform (Gate.revoke assignmentID)).2 := by
  simp only [Gate.perform, Gate.revoke, Op.exec_get_bind]
  split_ifs with hid
  · exact .revoked hid
  · exact .kept (show assignmentID = [] from not_not.mp hid)

theorem step_acts (g : Gate) (call : Call) :
    Acts g call (gateMachine.step g call).1 (gateMachine.step g call).2 := by
  cases call with
  | acceptAuthoritativeControl connection => exact acts_accept g connection
  | checkAssignment connection fence => exact acts_checkAssignment g connection fence
  | checkControl connection => exact acts_checkControl g connection
  | disconnectControl connection => exact acts_disconnect g connection
  | install connection authorization => exact acts_install g connection authorization
  | authorizeSync fence => exact acts_authorizeSync g fence
  | revoke assignmentID => exact acts_revoke g assignmentID
  | snapshot => exact .kept trivial

end MiniCloud.ServingAuth
