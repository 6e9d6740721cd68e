import MiniCloud.Discovery.Snapshot
import MiniCloud.Lib.Clock
import MiniCloud.Lib.Machine

/-!
# The gateway's discovery store

`internal/gatewaydiscovery`: the serving snapshots of a Gateway, fed by one Watch. A Full event
replaces every Function, an incremental event replaces one at the next global sequence, and a
lookup serves only while the view is complete and fresh. Every method holds the mutex throughout,
so a run of the store is a list of calls.

As for the serving gate, readings are elapsed times of one process, so `now - receivedAt` does not
overflow. A `range` over the functions fails on any stale member and is sorted before it is
returned, so the order of the map does not show.
-/

namespace MiniCloud.GatewayDiscovery

open Lib Problem Digest ServingAuth Discovery

def defaultMaxStale : Duration := 5 * Duration.minute
def hardMaxStale : Duration := 10 * Duration.minute
def defaultMaxFunctions : Int := 10000
def hardMaxFunctions : Int := 10000

/-! ## Types -/

structure Config where
  clock : Option MonotonicClock
  /-- `none` selects the default; zero serves only while the Watch is connected. -/
  maxStale : Option Duration
  maxFunctions : Int

/-- One global Serving Watch position. -/
structure Event where
  full : Bool
  discoveryEpoch : UInt64
  servingSequence : UInt64
  snapshots : List Snapshot

/-- The checksummed snapshot, and its endpoints without the locally suppressed ones. -/
structure View where
  snapshot : Snapshot
  endpoints : List Endpoint

structure FunctionRecord where
  snapshot : Snapshot
  receivedAt : Duration
  suppressed : GoMap GoString AssignmentIdentity

structure EventPosition where
  epoch : UInt64
  sequence : UInt64
  fingerprint : SHA256
  deriving DecidableEq

structure Store extends ClockGuard where
  clock : MonotonicClock
  maxStale : Duration
  maxFunctions : Int
  functions : GoMap GoString FunctionRecord
  position : EventPosition
  fullSynced : Bool
  needsFullSync : Bool
  watchConnected : Bool

structure Status where
  discoveryEpoch : UInt64
  servingSequence : UInt64
  functions : Nat
  fullSynced : Bool
  needsFullSync : Bool
  watchConnected : Bool
  clockHealthy : Bool

/-- `New`; `processClock` is the clock of the process when none is configured. -/
def new (processClock : MonotonicClock) (config : Config) : Except GoError Store := do
  let clock := config.clock.getD processClock
  let maxStale := config.maxStale.getD defaultMaxStale
  let maxFunctions := if config.maxFunctions = 0 then defaultMaxFunctions else config.maxFunctions
  checks [
    ⟨maxStale < 0 || hardMaxStale < maxStale,
      .text "gateway serving max stale is outside v1 bounds"⟩,
    ⟨maxFunctions < 1 || hardMaxFunctions < maxFunctions,
      .text "gateway function limit is outside v1 bounds"⟩,
    ⟨clock 0 < 0, .text "gateway monotonic clock returned negative elapsed time"⟩]
  .ok {
    toClockGuard := ClockGuard.start clock
    clock := clock
    maxStale := maxStale
    maxFunctions := maxFunctions
    functions := ∅
    position := ⟨0, 0, []⟩
    fullSynced := false
    needsFullSync := true
    watchConnected := false }

/-! ## Events -/

def eventDomain : GoString := "serving-watch-event"
def eventVersion : GoString := "v1"

/-- What of an event its fingerprint covers: the position and the checksums. -/
def Event.canonical (event : Event) : Json Json.Num :=
  .obj [
    ("full", .bool event.full),
    ("discovery_epoch", .ofNat event.discoveryEpoch.toNat),
    ("serving_sequence", .ofNat event.servingSequence.toNat),
    ("snapshots", .arr (event.snapshots.map fun snapshot =>
      .obj [
        ("function_id", .ofGoString snapshot.functionID),
        ("checksum", .ofGoString snapshot.checksum)]))]

def eventFingerprint (event : Event) : Except GoError SHA256 :=
  canonicalJSON eventDomain eventVersion event.canonical

/-- One snapshot of an event: at the event's own position, and valid. -/
def Event.checkSnapshot (event : Event) (snapshot : Snapshot) : Validation := do
  checks [
    mustNot (snapshot.discoveryEpoch != event.discoveryEpoch ||
        snapshot.servingSequence != event.servingSequence) "serving_event"
      "snapshot position does not match the event"]
  snapshot.validate

def normalizeEvent (event : Event) (maxFunctions : Int) : Except GoError (Event × SHA256) := do
  checks [
    mustNot (event.discoveryEpoch == 0 || event.servingSequence == 0) "serving_event"
      "epoch and sequence must be greater than zero",
    mustNot (maxFunctions < event.snapshots.length) "serving_event"
      "contains too many Function snapshots",
    mustNot (!event.full && event.snapshots.length != 1) "serving_event"
      "an incremental event must contain exactly one Function snapshot"]
  checkEach event.checkSnapshot Snapshot.functionID
    (invalid "serving_event" "contains a duplicate Function snapshot") [] event.snapshots
  let normalized :=
    { event with snapshots := sortFunc (compareOn Snapshot.functionID) event.snapshots }
  let fingerprint ← eventFingerprint normalized
  .ok (normalized, fingerprint)

def samePosition (event : Event) (position : EventPosition) : Bool :=
  event.discoveryEpoch == position.epoch && event.servingSequence == position.sequence

/-! ## Revisions -/

def sameFunction (left right : Function) : Bool := left == right

def sameHTTPTrigger (left right : HTTPTrigger) : Bool :=
  left.id == right.id && left.functionID == right.functionID &&
    left.resourceRevision == right.resourceRevision && left.enabled == right.enabled &&
    left.authPolicy == right.authPolicy &&
    match left.tokenVerifierDigest, right.tokenVerifierDigest with
    | some l, some r => l == r
    | none, none => true
    | _, _ => false

def sameRoute (left right : Route) : Bool :=
  left.present == right.present && left.functionID == right.functionID &&
    left.resourceRevision == right.resourceRevision && left.routeRevision == right.routeRevision &&
    left.enabled == right.enabled && left.targets == right.targets &&
    left.affinity == right.affinity && left.affinityHeader == right.affinityHeader &&
    left.hashVersion == right.hashVersion && left.saltID == right.saltID && left.salt == right.salt

def revisionsDoNotRegress (current next : Snapshot) : Validation :=
  checks [
    ⟨next.function.resourceRevision < current.function.resourceRevision ||
        next.trigger.resourceRevision < current.trigger.resourceRevision,
      classified .staleGeneration "function or trigger resource revision regressed"⟩,
    ⟨next.function.resourceRevision == current.function.resourceRevision &&
        !sameFunction current.function next.function,
      classified .staleGeneration "function content changed without a resource revision"⟩,
    ⟨next.trigger.resourceRevision == current.trigger.resourceRevision &&
        !sameHTTPTrigger current.trigger next.trigger,
      classified .staleGeneration "http trigger content changed without a resource revision"⟩,
    ⟨current.route.present && !next.route.present,
      classified .staleGeneration
        "an existing route cannot disappear from an incremental snapshot"⟩,
    ⟨current.route.present && next.route.present &&
        (next.route.resourceRevision < current.route.resourceRevision ||
          next.route.routeRevision < current.route.routeRevision),
      classified .staleGeneration "route revision regressed"⟩,
    ⟨current.route.present && next.route.present &&
        next.route.resourceRevision == current.route.resourceRevision &&
        next.route.routeRevision == current.route.routeRevision &&
        !sameRoute current.route next.route,
      classified .staleGeneration "route content changed without a resource or route revision"⟩]

/-! ## Suppressions -/

/-- The suppressed identities that the new endpoints still contain. -/
def retainedSuppressions (previous : GoMap GoString AssignmentIdentity)
    (endpoints : List Endpoint) : GoMap GoString AssignmentIdentity :=
  if previous.len = 0 then ∅
  else
    endpoints.foldl (fun retained endpoint =>
      match previous.get? endpoint.assignment.assignmentID with
      | some identity =>
        if identity = endpoint.assignment then retained.set identity.assignmentID identity
        else retained
      | none => retained) ∅

def FunctionRecord.suppresses (record : FunctionRecord) (assignment : AssignmentIdentity) : Bool :=
  record.suppressed.get? assignment.assignmentID == some assignment

def visibleSnapshot (record : FunctionRecord) : View where
  snapshot := record.snapshot
  endpoints :=
    if record.suppressed.len = 0 then record.snapshot.endpointList
    else record.snapshot.endpointList.filter fun e => !record.suppresses e.assignment

/-! ## Methods -/

namespace Store

/-- The store after one call of its clock; an unhealthy one also asks for a Full Sync. -/
def ticked (s : Store) : Store :=
  match s.toClockGuard.read s.clock with
  | (some _, guard) => { s with toClockGuard := guard }
  | (none, guard) => { s with toClockGuard := guard, needsFullSync := true }

def elapsedLocked : Op GoError Store Duration := do
  let s ← get
  set s.ticked
  Op.orFail (s.toClockGuard.read s.clock).1
    (classified .controlPlaneStale "gateway monotonic clock is unhealthy")

def usableLocked (s : Store) (record : FunctionRecord) (now : Duration) : Bool :=
  if s.maxStale = 0 then s.watchConnected
  else record.receivedAt ≤ now && now - record.receivedAt < s.maxStale

/-- The record of a snapshot received at `now`. -/
def received (s : Store) (snapshot : Snapshot) (now : Duration) : FunctionRecord where
  snapshot := snapshot
  receivedAt := now
  suppressed := retainedSuppressions
    (match s.functions.get? snapshot.functionID with
      | some current => current.suppressed
      | none => ∅) snapshot.endpointList

def checkRevisions (s : Store) (snapshot : Snapshot) : Validation :=
  match s.functions.get? snapshot.functionID with
  | some current => revisionsDoNotRegress current.snapshot snapshot
  | none => .ok ()

def replaced (s : Store) (event : Event) (fingerprint : SHA256) (now : Duration) : Store :=
  { s with
    functions := event.snapshots.foldl
      (fun next snapshot => next.set snapshot.functionID (s.received snapshot now)) ∅
    position := ⟨event.discoveryEpoch, event.servingSequence, fingerprint⟩
    fullSynced := true
    needsFullSync := false
    watchConnected := true }

def applyFullLocked (event : Event) (fingerprint : SHA256) : Op GoError Store Unit := do
  let s ← get
  Op.failIf (event.discoveryEpoch == s.position.epoch && event.servingSequence < s.position.sequence)
    (classified .staleGeneration "full sync serving sequence regressed")
  Op.ofExcept (checkAll s.checkRevisions event.snapshots)
  let now ← elapsedLocked
  let s ← get
  set (s.replaced event fingerprint now)

/-- Whether there is room for a Function that is not held yet. -/
def checkCapacity (s : Store) (snapshot : Snapshot) : Validation :=
  checks [
    ⟨(s.functions.get? snapshot.functionID).isNone && s.maxFunctions ≤ s.functions.len,
      classified .overloaded "gateway function serving cache is full"⟩]

def advanced (s : Store) (event : Event) (snapshot : Snapshot) (fingerprint : SHA256)
    (now : Duration) : Store :=
  { s with
    functions := s.functions.set snapshot.functionID (s.received snapshot now)
    position := ⟨event.discoveryEpoch, event.servingSequence, fingerprint⟩
    watchConnected := true }

/-- Refuse the event and every later incremental one. -/
def requireFullSync (message : GoString) : Op GoError Store Unit := do
  let s ← get
  set { s with needsFullSync := true }
  throw (classified .controlPlaneStale message)

def applyIncrementalLocked (event : Event) (fingerprint : SHA256) : Op GoError Store Unit := do
  let s ← get
  Op.failIf (!s.fullSynced || s.needsFullSync)
    (classified .controlPlaneStale "gateway requires a complete serving Full Sync")
  if s.position.epoch < event.discoveryEpoch then
    requireFullSync "a higher discovery epoch requires Full Sync"
  else
    Op.failIf (event.servingSequence ≤ s.position.sequence)
      (classified .staleGeneration "serving sequence regressed")
    -- `math.MaxUint64`
    if s.position.sequence = 18446744073709551615 ∨
        event.servingSequence ≠ s.position.sequence + 1 then
      requireFullSync "serving sequence gap requires Full Sync"
    else
      let snapshot ← Op.orFail event.snapshots.head? (.crash "index out of range")
      Op.ofExcept (s.checkRevisions snapshot)
      Op.ofExcept (s.checkCapacity snapshot)
      let now ← elapsedLocked
      let s ← get
      set (s.advanced event snapshot fingerprint now)

def apply (event : Event) : Op GoError Store Unit := do
  let s ← get
  let (normalized, fingerprint) ← Op.ofExcept (normalizeEvent event s.maxFunctions)
  Op.failIf (!s.clockHealthy)
    (classified .controlPlaneStale "gateway monotonic clock is unhealthy")
  Op.failIf (normalized.discoveryEpoch < s.position.epoch)
    (classified .staleGeneration "serving discovery epoch regressed")
  if samePosition normalized s.position then
    Op.failIf (fingerprint != s.position.fingerprint)
      (classified .staleGeneration "serving watch position was reused with different content")
  else if normalized.full then
    applyFullLocked normalized fingerprint
  else
    applyIncrementalLocked normalized fingerprint

def setWatchConnected (connected : Bool) : Op GoError Store Unit := do
  let s ← get
  set { s with watchConnected := connected }

def requiresFullSync : GoError :=
  classified .controlPlaneStale "gateway serving view requires Full Sync"

def lookup (functionID : GoString) : Op GoError Store View := do
  Op.failIf (!identifierPattern functionID) (invalid "function_id" "must be a valid identifier")
  let now ← elapsedLocked
  let s ← get
  Op.failIf (!s.fullSynced || s.needsFullSync) requiresFullSync
  let record ← Op.orFail (s.functions.get? functionID)
    (classified .notFound "function serving snapshot was not found")
  Op.failIf (!s.usableLocked record now)
    (classified .controlPlaneStale "function serving snapshot is stale")
  return visibleSnapshot record

def lookupAll : Op GoError Store (List View) := do
  let now ← elapsedLocked
  let s ← get
  Op.failIf (!s.fullSynced || s.needsFullSync) requiresFullSync
  Op.failIf (s.functions.toList.any fun entry => !s.usableLocked entry.2 now)
    (classified .controlPlaneStale "gateway serving view contains a stale function")
  return sortFunc (compareOn fun view => view.snapshot.functionID)
    (s.functions.toList.map fun entry => visibleSnapshot entry.2)

def suppressEndpoint (functionID : GoString) (assignment : AssignmentIdentity) :
    Op GoError Store Unit := do
  Op.failIf (!identifierPattern functionID) (invalid "function_id" "must be a valid identifier")
  Op.ofExcept assignment.validate
  let s ← get
  let record ← Op.orFail (s.functions.get? functionID)
    (classified .notFound "function serving snapshot was not found")
  let endpoint ← Op.orFail
    (record.snapshot.endpointList.find? fun e =>
      e.assignment.assignmentID = assignment.assignmentID)
    (classified .staleAssignment "endpoint failure does not match an authoritative endpoint")
  Op.failIf (endpoint.assignment != assignment)
    (classified .staleAssignment "endpoint failure fence is stale")
  set { s with
    functions := s.functions.set functionID
      { record with suppressed := record.suppressed.set assignment.assignmentID assignment } }

def status (s : Store) : Status where
  discoveryEpoch := s.position.epoch
  servingSequence := s.position.sequence
  functions := s.functions.len
  fullSynced := s.fullSynced
  needsFullSync := s.needsFullSync
  watchConnected := s.watchConnected
  clockHealthy := s.clockHealthy

end Store

/-! ## Runs -/

inductive Call where
  | apply (event : Event)
  | setWatchConnected (connected : Bool)
  | lookup (functionID : GoString)
  | lookupAll
  | suppressEndpoint (functionID : GoString) (assignment : AssignmentIdentity)
  | status

inductive Answer where
  /-- The returned error; nil for the method that returns nothing. -/
  | done (result : Except GoError Unit)
  | view (result : Except GoError View)
  | views (result : Except GoError (List View))
  | status (status : Status)

/-- One method call, its result wrapped as an answer. -/
def Store.perform {α : Type} (s : Store) (m : Op GoError Store α)
    (answer : Except GoError α → Answer) : Answer × Store :=
  (answer (Op.exec m s).1, (Op.exec m s).2)

def Store.step (s : Store) : Call → Answer × Store
  | .apply event => s.perform (apply event) .done
  | .setWatchConnected connected => s.perform (setWatchConnected connected) .done
  | .lookup functionID => s.perform (lookup functionID) .view
  | .lookupAll => s.perform lookupAll .views
  | .suppressEndpoint functionID assignment =>
    s.perform (suppressEndpoint functionID assignment) .done
  | .status => (.status s.status, s)

def storeMachine : Machine Store Call Answer := ⟨Store.step⟩

abbrev StoreEvent := Lib.Event Store Call Answer

end MiniCloud.GatewayDiscovery
