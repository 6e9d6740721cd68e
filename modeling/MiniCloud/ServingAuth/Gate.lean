import MiniCloud.Lib.Clock
import MiniCloud.Lib.Machine
import MiniCloud.ServingAuth.Identity

/-!
# The serving gate

`internal/servingauth/gate.go`: the Worker side of serving authorization. The controller's
connection raises epochs and installs permissions; an invocation may only present a fence and ask.
Every method holds the mutex throughout, so a run of the gate is a list of calls.

The clock is a field, as in the source. Readings are elapsed times of one process, at least zero
and below 2^63, so the `int64` subtraction `now - receivedAt` of two of them cannot overflow.
-/

namespace MiniCloud.ServingAuth

open Lib Problem Digest Model

def defaultMaxTTL : Duration := 5 * Duration.minute
def hardMaxTTL : Duration := 10 * Duration.minute
def defaultMaxAuthorizations : Int := 4096
def hardMaxAuthorizations : Int := 65536

/-! ## The gate -/

structure Config where
  worker : WorkerProcess
  clock : Option MonotonicClock
  maxTTL : Duration
  maxAuthorizations : Int

structure ControlState where
  connection : ControlConnection
  connected : Bool

structure AuthorizationRecord where
  authorization : Authorization
  connection : ControlConnection
  receivedAt : Duration

structure Gate extends ClockGuard where
  worker : WorkerProcess
  clock : MonotonicClock
  maxTTL : Duration
  maxAuthorizations : Int
  highestDiscoveryEpoch : UInt64
  currentSessionEpoch : UInt64
  control : ControlState
  assignments : GoMap GoString AssignmentIdentity
  authorizations : GoMap GoString AuthorizationRecord

/-- A non-sensitive view of the fencing state. -/
structure Snapshot where
  highestDiscoveryEpoch : UInt64
  currentSessionEpoch : UInt64
  controlConnected : Bool
  trackedAssignments : Nat
  storedAuthorizations : Nat
  clockHealthy : Bool

/-- `New`; `processClock` is what `newProcessClock` returns when no clock is configured. -/
def new (processClock : MonotonicClock) (config : Config) : Except GoError Gate := do
  config.worker.validate
  let clock := config.clock.getD processClock
  let maxTTL := if config.maxTTL = 0 then defaultMaxTTL else config.maxTTL
  let maxAuthorizations :=
    if config.maxAuthorizations = 0 then defaultMaxAuthorizations else config.maxAuthorizations
  checks [
    ⟨maxTTL ≤ 0 || hardMaxTTL < maxTTL,
      .text "serving authorization ttl limit is outside v1 bounds"⟩,
    ⟨maxAuthorizations < 1 || hardMaxAuthorizations < maxAuthorizations,
      .text "serving authorization entry limit is outside v1 bounds"⟩,
    ⟨clock 0 < 0,
      .text "serving authorization monotonic clock returned negative elapsed time"⟩]
  .ok {
    toClockGuard := ClockGuard.start clock
    worker := config.worker
    clock := clock
    maxTTL := maxTTL
    maxAuthorizations := maxAuthorizations
    highestDiscoveryEpoch := 0
    currentSessionEpoch := 0
    control := ⟨default, false⟩
    assignments := ∅
    authorizations := ∅ }

namespace Gate

def currentWorkerLocked (g : Gate) : WorkerSession where
  workerID := g.worker.workerID
  bootID := g.worker.bootID
  sessionEpoch := g.currentSessionEpoch

def currentControlLocked (g : Gate) (connection : ControlConnection) : Bool :=
  g.control.connected && g.control.connection == connection &&
    connection.discoveryEpoch == g.highestDiscoveryEpoch

/-- The gate after one call of its clock. -/
def ticked (g : Gate) : Gate := { g with toClockGuard := (g.toClockGuard.read g.clock).2 }

def elapsedLocked : Op GoError Gate Duration := do
  let g ← get
  set g.ticked
  Op.orFail (g.toClockGuard.read g.clock).1
    (classified .staleAssignment "worker monotonic clock is unhealthy")

def validLocked (g : Gate) (record : AuthorizationRecord) (now : Duration) : Bool :=
  let authorization := record.authorization
  if authorization.fence.discoveryEpoch ≠ g.highestDiscoveryEpoch ∨ now < record.receivedAt then
    false
  else if authorization.lifetime = .liveOnly then g.currentControlLocked record.connection
  else now - record.receivedAt < authorization.ttl

/-- Follow a higher discovery epoch, before the session of its connection is looked at. -/
def raised (g : Gate) (epoch : UInt64) : Gate :=
  if g.highestDiscoveryEpoch < epoch then
    { g with
      highestDiscoveryEpoch := epoch
      authorizations := ∅
      control := { g.control with connected := false } }
  else g

/-- The gate of a new session. -/
def accepted (g : Gate) (connection : ControlConnection) : Gate :=
  { g with
    currentSessionEpoch := connection.sessionEpoch
    assignments := ∅
    authorizations := ∅
    control := ⟨connection, true⟩ }

def acceptAuthoritativeControl (connection : ControlConnection) : Op GoError Gate Unit := do
  Op.ofExcept connection.validate
  let g ← get
  Op.failIf (connection.discoveryEpoch < g.highestDiscoveryEpoch)
    (classified .staleGeneration "control discovery epoch is stale")
  set (g.raised connection.discoveryEpoch)
  let g ← get
  Op.failIf (connection.sessionEpoch < g.currentSessionEpoch)
    (classified .staleAssignment "worker session epoch is stale")
  if connection.sessionEpoch = g.currentSessionEpoch then
    let idempotent := g.control.connected && g.control.connection == connection
    Op.failIf (!idempotent)
      (classified .staleAssignment "worker session epoch must increase on reconnect")
  else
    set (g.accepted connection)

def checkAssignment (connection : ControlConnection) (fence : InvocationFence) :
    Op GoError Gate Unit := do
  Op.ofExcept connection.validate
  Op.ofExcept fence.validate
  let g ← get
  Op.failIf (!g.currentControlLocked connection || fence.discoveryEpoch != connection.discoveryEpoch)
    (classified .staleAssignment "authenticated control connection is unavailable")
  Op.failIf (fence.assignment.worker != g.currentWorkerLocked)
    (classified .staleAssignment "assignment targets another worker session")

def checkControl (connection : ControlConnection) : Op GoError Gate Unit := do
  Op.ofExcept connection.validate
  let g ← get
  Op.failIf (!g.currentControlLocked connection)
    (classified .staleAssignment "authenticated control connection is unavailable")

def disconnectControl (connection : ControlConnection) : Op GoError Gate Unit := do
  let g ← get
  if g.control.connection = connection then
    set { g with control := { g.control with connected := false } }

def compatibleRefresh (previous next : AssignmentIdentity) : Validation :=
  checks [
    ⟨previous.assignmentID != next.assignmentID,
      classified .staleAssignment "authorization assignment id changed"⟩,
    ⟨previous.versionID != next.versionID || previous.admissionEpoch != next.admissionEpoch ||
        previous.deploymentGeneration != next.deploymentGeneration ||
        previous.policyDigest != next.policyDigest,
      classified .staleGeneration "authorization generation identity changed"⟩,
    ⟨previous != next, classified .staleAssignment "authorization assignment identity changed"⟩]

/-- Whether an identity may take its entry: a tracked one must be the same, a new one must fit. -/
def admits (g : Gate) (identity : AssignmentIdentity) : Validation :=
  match g.assignments.get? identity.assignmentID with
  | some previous => compatibleRefresh previous identity
  | none =>
    checks [⟨g.maxAuthorizations ≤ g.assignments.len,
      classified .overloaded "serving authorization capacity is full"⟩]

/-- The gate with one more permission, received at `now`. -/
def installed (g : Gate) (connection : ControlConnection) (authorization : Authorization)
    (now : Duration) : Gate :=
  let identity := authorization.fence.assignment
  { g with
    assignments := g.assignments.set identity.assignmentID identity
    authorizations := g.authorizations.set identity.assignmentID ⟨authorization, connection, now⟩ }

def install (connection : ControlConnection) (authorization : Authorization) :
    Op GoError Gate Unit := do
  let g ← get
  Op.ofExcept (authorization.validate g.maxTTL)
  Op.ofExcept connection.validate
  Op.failIf (!g.currentControlLocked connection ||
      authorization.fence.discoveryEpoch != connection.discoveryEpoch)
    (classified .staleAssignment "authenticated control connection is unavailable")
  Op.failIf (authorization.fence.assignment.worker != g.currentWorkerLocked)
    (classified .staleAssignment "authorization targets another worker session")
  let now ← elapsedLocked
  Op.ofExcept (g.admits authorization.fence.assignment)
  let g ← get
  set (g.installed connection authorization now)

/-- The record an invocation's fence is checked against. -/
def recordFor (g : Gate) (fence : InvocationFence) : Option AuthorizationRecord :=
  (g.authorizations.get? fence.assignment.assignmentID).filter
    fun record => record.authorization.fence = fence

def authorizeSync (fence : InvocationFence) : Op GoError Gate Unit := do
  Op.ofExcept fence.validate
  let g ← get
  Op.failIf (fence.discoveryEpoch < g.highestDiscoveryEpoch)
    (classified .staleAssignment "invocation discovery epoch is stale")
  Op.failIf (fence.assignment.mode != .normal)
    (classified .staleAssignment "assignment does not accept synchronous work")
  let record ← Op.orFail (g.recordFor fence)
    (classified .staleAssignment "invocation fence does not match serving authorization")
  let now ← elapsedLocked
  let g ← get
  if g.validLocked record now then
    pure ()
  else
    set { g with authorizations := g.authorizations.delete fence.assignment.assignmentID }
    throw (classified .staleAssignment "serving authorization is no longer valid")

def revoke (assignmentID : GoString) : Op GoError Gate Unit := do
  let g ← get
  if assignmentID ≠ [] then
    set { g with
      assignments := g.assignments.delete assignmentID
      authorizations := g.authorizations.delete assignmentID }

def snapshot (g : Gate) : Snapshot where
  highestDiscoveryEpoch := g.highestDiscoveryEpoch
  currentSessionEpoch := g.currentSessionEpoch
  controlConnected := g.control.connected
  trackedAssignments := g.assignments.len
  storedAuthorizations := g.authorizations.len
  clockHealthy := g.clockHealthy

end Gate

/-! ## Runs -/

inductive Call where
  | acceptAuthoritativeControl (connection : ControlConnection)
  | checkAssignment (connection : ControlConnection) (fence : InvocationFence)
  | checkControl (connection : ControlConnection)
  | disconnectControl (connection : ControlConnection)
  | install (connection : ControlConnection) (authorization : Authorization)
  | authorizeSync (fence : InvocationFence)
  | revoke (assignmentID : GoString)
  | snapshot

inductive Answer where
  /-- The returned error; nil for the methods that return nothing. -/
  | done (result : Except GoError Unit)
  | snapshot (view : Snapshot)

/-- One method call. -/
def Gate.perform (g : Gate) (m : Op GoError Gate Unit) : Answer × Gate :=
  (.done (Op.exec m g).1, (Op.exec m g).2)

def Gate.step (g : Gate) : Call → Answer × Gate
  | .acceptAuthoritativeControl connection => g.perform (acceptAuthoritativeControl connection)
  | .checkAssignment connection fence => g.perform (checkAssignment connection fence)
  | .checkControl connection => g.perform (checkControl connection)
  | .disconnectControl connection => g.perform (disconnectControl connection)
  | .install connection authorization => g.perform (install connection authorization)
  | .authorizeSync fence => g.perform (authorizeSync fence)
  | .revoke assignmentID => g.perform (revoke assignmentID)
  | .snapshot => (.snapshot g.snapshot, g)

def gateMachine : Machine Gate Call Answer := ⟨Gate.step⟩

abbrev GateEvent := Event Gate Call Answer

end MiniCloud.ServingAuth
