import MiniCloud.Lib.Clock
import MiniCloud.Lib.Machine
import MiniCloud.Scheduler

/-!
# The worker registry

`internal/workerregistry/registry.go`: session fencing, inventory, liveness and drain state of the
Workers a controller knows. Every method holds the mutex throughout, so a run of the registry is a
list of calls.

A method that finds the clock unhealthy fails and still marks every registered Worker unavailable;
that is why an error leaves a state behind. Maps of labels and cache hints are copied by the source
and by value here.
-/

namespace MiniCloud.WorkerRegistry

open Lib Problem Digest Model ServingAuth Scheduler

def defaultHeartbeatInterval : Duration := 2 * Duration.second
def defaultSuspectAfter : Duration := 6 * Duration.second
def defaultUnavailableAfter : Duration := 10 * Duration.second
def hardHeartbeatInterval : Duration := 30 * Duration.second
def hardSuspectAfter : Duration := 10 * Duration.minute
def hardUnavailableAfter : Duration := 10 * Duration.minute
def defaultMaxWorkers : Int := 1000
def hardMaxWorkers : Int := 1000

structure Config where
  clock : Option MonotonicClock
  heartbeatInterval : Duration
  suspectAfter : Duration
  unavailableAfter : Duration
  maxWorkers : Int

/-- A complete same-session Worker observation. -/
structure Inventory where
  revision : UInt64
  session : WorkerSession
  runtime : RuntimeProfile
  capacity : Capacity
  labels : GoMap GoString GoString
  cache : CacheHints

/-- The observations that the drain state is derived from. -/
structure DrainObservation where
  session : WorkerSession
  activeInvocations : UInt64
  assignmentsDrained : Bool
  gatewayFencesAcked : Bool
  authorizationExpired : Bool

structure WorkerRecord where
  workerID : GoString
  bootID : GoString
  maxSessionEpoch : UInt64
  current : WorkerSession
  registered : Bool
  needsNewSession : Bool
  intent : SchedulingIntent
  drain : DrainState
  state : SessionState
  runtime : RuntimeProfile
  capacity : Capacity
  labels : GoMap GoString GoString
  cache : CacheHints
  hasInventory : Bool
  inventoryRevision : UInt64
  lastHeartbeat : Duration

structure Registry extends ClockGuard where
  clock : MonotonicClock
  heartbeatInterval : Duration
  suspectAfter : Duration
  unavailableAfter : Duration
  maxWorkers : Int
  workers : GoMap GoString WorkerRecord
  revision : UInt64

def Config.timingInvalid (c : Config) : Bool :=
  c.heartbeatInterval < 500 * Duration.millisecond ||
    hardHeartbeatInterval < c.heartbeatInterval ||
    c.suspectAfter ≤ c.heartbeatInterval || hardSuspectAfter < c.suspectAfter ||
    c.unavailableAfter ≤ c.suspectAfter || hardUnavailableAfter < c.unavailableAfter

/-- Zero fields get their defaults. `process` is the clock that a nil one stands for. -/
def Config.withDefaults (process : MonotonicClock) (c : Config) : Config where
  clock := some (c.clock.getD process)
  heartbeatInterval :=
    if c.heartbeatInterval = 0 then defaultHeartbeatInterval else c.heartbeatInterval
  suspectAfter := if c.suspectAfter = 0 then defaultSuspectAfter else c.suspectAfter
  unavailableAfter :=
    if c.unavailableAfter = 0 then defaultUnavailableAfter else c.unavailableAfter
  maxWorkers := if c.maxWorkers = 0 then defaultMaxWorkers else c.maxWorkers

def new (process : MonotonicClock) (config : Config) : Except GoError Registry := do
  let c := config.withDefaults process
  let clock := config.clock.getD process
  checks [
    ⟨c.timingInvalid, .text "worker registry timing bounds are invalid"⟩,
    ⟨c.maxWorkers < 1 || hardMaxWorkers < c.maxWorkers,
      .text "worker registry worker limit is outside v1 bounds"⟩,
    ⟨clock 0 < 0, .text "worker registry clock returned negative elapsed time"⟩]
  .ok {
    toClockGuard := .start clock
    clock := clock
    heartbeatInterval := c.heartbeatInterval
    suspectAfter := c.suspectAfter
    unavailableAfter := c.unavailableAfter
    maxWorkers := c.maxWorkers
    workers := ∅
    revision := 0 }

/-! ## Records -/

def noRuntime : RuntimeProfile := ⟨[], [], [], [], [], [], [], [], 0⟩

def noCapacity : Capacity := ⟨0, 0, 0, 0⟩

/-- The record of a Worker that is seen for the first time. -/
def newRecord (workerID : GoString) : WorkerRecord where
  workerID := workerID
  bootID := []
  maxSessionEpoch := 0
  current := ⟨[], [], 0⟩
  registered := false
  needsNewSession := false
  intent := .schedulable
  drain := .notDraining
  state := .joining
  runtime := noRuntime
  capacity := noCapacity
  labels := ∅
  cache := ⟨∅, ∅⟩
  hasInventory := false
  inventoryRevision := 0
  lastHeartbeat := 0

def WorkerRecord.committed (record : WorkerRecord) (session : WorkerSession) : WorkerRecord :=
  { record with
    maxSessionEpoch := session.sessionEpoch
    bootID := session.bootID
    current := session
    registered := false
    needsNewSession := false
    hasInventory := false
    inventoryRevision := 0
    runtime := noRuntime
    capacity := noCapacity
    labels := ∅
    cache := ⟨∅, ∅⟩
    state := .joining }

def WorkerRecord.joined (record : WorkerRecord) (session : WorkerSession) (now : Duration) :
    WorkerRecord :=
  { record with
    current := session
    registered := true
    hasInventory := false
    state := .joining
    lastHeartbeat := now }

def WorkerRecord.reported (record : WorkerRecord) (inventory : Inventory) (now : Duration) :
    WorkerRecord :=
  { record with
    runtime := inventory.runtime
    capacity := inventory.capacity
    labels := inventory.labels
    cache := inventory.cache
    hasInventory := true
    inventoryRevision := inventory.revision
    state := .ready
    lastHeartbeat := now }

/-- The observation that `ReportInventory` validates. -/
def WorkerRecord.observation (record : WorkerRecord) (inventory : Inventory) : WorkerSnapshot where
  session := inventory.session
  runtime := inventory.runtime
  intent := record.intent
  state := .ready
  drain := record.drain
  capacity := inventory.capacity
  labels := inventory.labels
  cache := inventory.cache

/-- A heartbeat revives the Worker if it has an inventory. -/
def WorkerRecord.revives (record : WorkerRecord) : Bool :=
  record.hasInventory && !record.needsNewSession &&
    (record.state == .suspect || record.state == .unavailable)

/-- What `Evaluate` looks at. -/
def WorkerRecord.evaluated (record : WorkerRecord) : Bool :=
  record.registered && !record.needsNewSession && record.hasInventory

def DrainObservation.proves (o : DrainObservation) : Bool :=
  o.activeInvocations == 0 && o.assignmentsDrained &&
    (o.gatewayFencesAcked || o.authorizationExpired)

def DrainObservation.next (o : DrainObservation) : DrainState :=
  if o.proves then .drained else .draining

namespace Registry

/-- Write through the pointer that the map holds. -/
def put (r : Registry) (workerID : GoString) (record : WorkerRecord) : Registry :=
  { r with workers := r.workers.set workerID record }

/-- `r.revision++`. -/
def bump (r : Registry) : Registry := { r with revision := r.revision + 1 }

/-- What a clock that went back does to a record. -/
def lose (record : WorkerRecord) : WorkerRecord :=
  if record.registered && record.intent != .removed then { record with state := .unavailable }
  else record

def elapsedLocked : Op GoError Registry Duration := do
  let r ← get
  let (reading, guarded) := r.toClockGuard.read r.clock
  match reading with
  | some now =>
    set { r with toClockGuard := guarded }
    return now
  | none =>
    set { r with toClockGuard := guarded, workers := r.workers.mapValues lose }
    throw (classified .controlPlaneStale "worker registry monotonic clock is unhealthy")

def currentLocked (session : WorkerSession) : Op GoError Registry WorkerRecord := do
  let r ← get
  let stale := classified .staleAssignment "Worker session is stale or unavailable"
  let record ← Op.orFail (r.workers.get? session.workerID) stale
  Op.failIf (!record.registered || record.current != session) stale
  return record

/-- The existing record, or a new one within the bounds. -/
def recordFor (session : WorkerSession) : Op GoError Registry WorkerRecord := do
  let r ← get
  match r.workers.get? session.workerID with
  | some record => return record
  | none =>
    Op.failIf (r.maxWorkers ≤ r.workers.len)
      (classified .overloaded "worker registry capacity is full")
    Op.failIf (session.sessionEpoch != 1)
      (classified .staleAssignment "new Worker session must start at epoch one")
    set (r.put session.workerID (newRecord session.workerID))
    return newRecord session.workerID

def commitSession (session : WorkerSession) : Op GoError Registry Unit := do
  Op.ofExcept session.validate
  let record ← recordFor session
  Op.failIf (record.intent == .removed)
    (classified .forbidden "removed Worker identity cannot register")
  Op.failIf (session.sessionEpoch != record.maxSessionEpoch + 1)
    (classified .staleAssignment "session epoch is not the next committed high-water mark")
  let r ← get
  set (r.put session.workerID (record.committed session)).bump

/-- The part of `Register` behind the idempotent return. -/
def join (session : WorkerSession) (record : WorkerRecord) : Op GoError Registry Unit := do
  Op.failIf record.registered
    (classified .staleAssignment "another registration owns the current session")
  let now ← elapsedLocked
  let r ← get
  set (r.put session.workerID (record.joined session now)).bump

def register (session : WorkerSession) : Op GoError Registry Unit := do
  Op.ofExcept session.validate
  let r ← get
  let record ← Op.orFail (r.workers.get? session.workerID)
    (classified .staleAssignment "Worker session is not committed")
  Op.failIf (record.intent == .removed)
    (classified .forbidden "removed Worker identity cannot register")
  Op.failIf (record.maxSessionEpoch != session.sessionEpoch || record.bootID != session.bootID)
    (classified .staleAssignment "Worker session is stale")
  Op.failIf record.needsNewSession
    (classified .staleAssignment "Worker must register a newer session")
  if record.registered && record.current == session then return () else join session record

def reportInventory (inventory : Inventory) : Op GoError Registry Unit := do
  Op.ofExcept inventory.session.validate
  let record ← currentLocked inventory.session
  Op.failIf record.needsNewSession (classified .staleAssignment
    "Worker must register a newer session before reporting inventory")
  Op.failIf (record.hasInventory && inventory.revision < record.inventoryRevision)
    (classified .staleGeneration "Worker inventory revision is stale")
  Op.ofExcept (record.observation inventory).validate
  let now ← elapsedLocked
  let r ← get
  set (r.put inventory.session.workerID (record.reported inventory now)).bump

def heartbeat (session : WorkerSession) : Op GoError Registry Unit := do
  Op.ofExcept session.validate
  let record ← currentLocked session
  Op.failIf record.needsNewSession (classified .staleAssignment
    "Worker must register a newer session before sending heartbeats")
  let now ← elapsedLocked
  let r ← get
  let alive := { record with lastHeartbeat := now }
  if record.revives then set (r.put session.workerID { alive with state := .ready }).bump
  else set (r.put session.workerID alive)

/-- The state that the elapsed time calls for. -/
def liveness (r : Registry) (elapsed : Duration) : SessionState :=
  if r.unavailableAfter ≤ elapsed then .unavailable
  else if r.suspectAfter ≤ elapsed then .suspect
  else .ready

/-- One turn of the loop of `Evaluate`. -/
def classify (r : Registry) (now : Duration) (record : WorkerRecord) : WorkerRecord :=
  if record.evaluated then { record with state := r.liveness (now - record.lastHeartbeat) }
  else record

/-- The turns that change a state count as revisions. -/
def changes (r : Registry) (now : Duration) : Nat :=
  r.workers.count fun _ record => (r.classify now record).state != record.state

def evaluate : Op GoError Registry Unit := do
  let now ← elapsedLocked
  let r ← get
  set { r with
    workers := r.workers.mapValues (r.classify now)
    revision := r.revision + UInt64.ofNat (r.changes now) }

/-- The two intents that a Worker can move between. -/
def intended (record : WorkerRecord) (intent : SchedulingIntent) : WorkerRecord :=
  if intent = .draining then { record with intent := intent, drain := .draining }
  else
    { record with
      intent := intent
      drain := .notDraining
      needsNewSession := true
      state := .joining }

def setIntent (workerID : GoString) (intent : SchedulingIntent) : Op GoError Registry Unit := do
  Op.failIf (!identifierPattern workerID || !intent.valid)
    (invalid "worker_intent" "worker ID or intent is invalid")
  let r ← get
  let record ← Op.orFail (r.workers.get? workerID)
    (invalid "worker_id" "worker is not registered")
  Op.failIf (record.intent == .removed)
    (classified .forbidden "removed Worker intent cannot change")
  if intent = .removed then
    Op.failIf (record.intent != .draining || record.drain != .drained)
      (classified .conflict "Worker must be Drained before Removed")
    set (r.put workerID
      { record with intent := .removed, registered := false, state := .unavailable }).bump
  else if record.intent = intent then return ()
  else set (r.put workerID (intended record intent)).bump

def updateDrain (observation : DrainObservation) : Op GoError Registry Unit := do
  Op.ofExcept observation.session.validate
  let record ← currentLocked observation.session
  Op.failIf (record.intent != .draining) (classified .conflict "Worker is not draining")
  let r ← get
  if record.drain ≠ observation.next then
    set (r.put observation.session.workerID { record with drain := observation.next }).bump
  else return ()

end Registry

/-! ## Views -/

structure WorkerView where
  snapshot : WorkerSnapshot
  maxSessionEpoch : UInt64
  lastHeartbeat : Duration
  registered : Bool

/-- A bounded, sorted registry view. -/
structure Snapshot where
  revision : UInt64
  clockHealthy : Bool
  workers : List WorkerView

def WorkerRecord.view (record : WorkerRecord) : WorkerView where
  snapshot := {
    session := record.current
    runtime := record.runtime
    intent := record.intent
    state := record.state
    drain := record.drain
    capacity := record.capacity
    labels := record.labels
    cache := record.cache }
  maxSessionEpoch := record.maxSessionEpoch
  lastHeartbeat := record.lastHeartbeat
  registered := record.registered

def Registry.snapshot (r : Registry) : Snapshot where
  revision := r.revision
  clockHealthy := r.clockHealthy
  workers := sortFunc (compareOn fun view : WorkerView => view.snapshot.session.workerID)
    (r.workers.toList.map fun entry => entry.2.view)

/-! ## Runs -/

inductive RegistryCall where
  | commitSession (session : WorkerSession)
  | register (session : WorkerSession)
  | reportInventory (inventory : Inventory)
  | heartbeat (session : WorkerSession)
  | evaluate
  | setIntent (workerID : GoString) (intent : SchedulingIntent)
  | updateDrain (observation : DrainObservation)

def RegistryCall.method : RegistryCall → Op GoError Registry Unit
  | .commitSession session => Registry.commitSession session
  | .register session => Registry.register session
  | .reportInventory inventory => Registry.reportInventory inventory
  | .heartbeat session => Registry.heartbeat session
  | .evaluate => Registry.evaluate
  | .setIntent workerID intent => Registry.setIntent workerID intent
  | .updateDrain observation => Registry.updateDrain observation

def registryMachine : Machine Registry RegistryCall (Except GoError Unit) :=
  ⟨fun r call => Op.exec call.method r⟩

abbrev RegistryEvent := Lib.Event Registry RegistryCall (Except GoError Unit)

end MiniCloud.WorkerRegistry
