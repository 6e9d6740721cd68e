import MiniCloud.Discovery.Snapshot
import MiniCloud.Scheduler
import MiniCloud.ServingAuth.Gate

/-!
# Building snapshots

`internal/discovery/builder.go`: one complete serving view from the projections of a Function and
the candidates for its endpoints. A candidate that misses a criterion is left out with the reasons;
a candidate without a proper identifier, a second one with the same identifier, or one endpoint too
many fails the whole build.

`Round(0)` on the generation time drops a clock reading the model does not have, and the decisions
are returned without the copies the source makes of them.
-/

namespace MiniCloud.Discovery

open Lib Problem Digest Model ServingAuth

/-- The committed intent of an Assignment. -/
inductive AssignmentDesiredState where
  | assigned
  | cancelled
  | other (text : GoString)
  deriving DecidableEq

/-- Committed intent, Worker state, Replica readiness, installed authorization and address. -/
structure EndpointCandidate where
  assignment : AssignmentIdentity
  desiredState : AssignmentDesiredState
  worker : Scheduler.WorkerSnapshot
  replicaReady : Bool
  authorization : Option Authorization
  address : GoString

/-- Whether a candidate entered the snapshot, and why not. -/
structure CandidateDecision where
  assignmentID : GoString
  included : Bool
  reasons : List ExclusionReason
  deriving DecidableEq

structure Input where
  discoveryEpoch : UInt64
  servingSequence : UInt64
  generatedAt : Time
  function : Function
  trigger : HTTPTrigger
  route : Route
  candidates : List EndpointCandidate

structure Result where
  snapshot : Snapshot
  candidates : List CandidateDecision

/-- `New` refuses a limit outside the v1 bounds. -/
structure Builder where
  maxEndpoints : Int
  positive : 1 ≤ maxEndpoints
  bounded : maxEndpoints ≤ hardMaxEndpoints

/-- What the authorization of a candidate adds to its reasons. -/
def authorizationReasons (discoveryEpoch : UInt64) (candidate : EndpointCandidate) :
    List ExclusionReason :=
  match candidate.authorization with
  | none => [.authorizationNotInstalled]
  | some authorization =>
    if !(authorization.validate hardMaxTTL).isOk ||
        authorization.fence.assignment != candidate.assignment ||
        authorization.fence.discoveryEpoch != discoveryEpoch then [.authorizationMismatch]
    else []

/-- One test of a candidate: the reason, when the test fails. -/
def excludedIf (bad : Bool) (reason : ExclusionReason) : List ExclusionReason :=
  if bad then [reason] else []

def exclusionReasons (snapshot : Snapshot) (candidate : EndpointCandidate) :
    List ExclusionReason :=
  excludedIf (snapshot.function.lifecycle != .active) .functionNotActive ++
  excludedIf (!snapshot.trigger.enabled) .triggerDisabled ++
  excludedIf (!snapshot.route.present || !snapshot.route.enabled) .routeDisabled ++
  excludedIf (!candidate.assignment.validate.isOk) .invalidAssignment ++
  excludedIf (candidate.desiredState != .assigned) .assignmentNotAssigned ++
  authorizationReasons snapshot.discoveryEpoch candidate ++
  excludedIf (candidate.assignment.mode != .normal) .assignmentModeNotNormal ++
  excludedIf (!candidate.worker.validate.isOk) .invalidWorkerObservation ++
  excludedIf (candidate.worker.session != candidate.assignment.worker) .workerSessionMismatch ++
  excludedIf (candidate.worker.intent != .schedulable) .workerNotSchedulable ++
  excludedIf (candidate.worker.state != .ready) .workerNotReady ++
  excludedIf (candidate.worker.drain != .notDraining) .workerDraining ++
  excludedIf (!candidate.replicaReady) .replicaNotReady ++
  routeMismatchReasons snapshot.route.targets candidate.assignment ++
  excludedIf (!validEndpointAddress candidate.address) .invalidAddress

def compareCandidates (left right : EndpointCandidate) : Ordering :=
  compareEndpointIdentity left.assignment right.assignment

/-- The endpoint an included candidate becomes. -/
def EndpointCandidate.endpoint (candidate : EndpointCandidate) : Endpoint where
  assignment := candidate.assignment
  address := candidate.address
  state := .ready

/-- The snapshot `Build` starts from. -/
def Input.snapshot (input : Input) : Snapshot where
  schemaVersion := servingSchemaVersion
  functionID := input.function.id
  discoveryEpoch := input.discoveryEpoch
  servingSequence := input.servingSequence
  generatedAt := input.generatedAt
  function := input.function
  trigger := input.trigger
  route := input.route
  endpoints := some []
  checksum := []

/-- What the loop over the candidates has collected. -/
structure Collected where
  seen : List GoString
  decisions : List CandidateDecision
  endpoints : List Endpoint

namespace Builder

/-- One pass of the loop over the candidates. -/
def collectOne (b : Builder) (snapshot : Snapshot) (acc : Collected)
    (candidate : EndpointCandidate) : Except GoError Collected := do
  let assignmentID := candidate.assignment.assignmentID
  checks [
    mustNot (!identifierPattern assignmentID) "candidates.assignment_id"
      "must be a valid identifier",
    mustNot (acc.seen.contains assignmentID) "candidates.assignment_id"
      "contains a duplicate Assignment ID"]
  let reasons := exclusionReasons snapshot candidate
  let included := reasons == []
  let decided : Collected := {
    acc with
    seen := assignmentID :: acc.seen
    decisions := acc.decisions ++ [⟨assignmentID, included, reasons⟩] }
  if included then
    if b.maxEndpoints ≤ acc.endpoints.length then
      .error (.problem ⟨.overloaded, "serving endpoint limit exceeded", ""⟩)
    else .ok { decided with endpoints := acc.endpoints ++ [candidate.endpoint] }
  else .ok decided

def build (b : Builder) (input : Input) : Except GoError Result := do
  checks [⟨hardMaxEndpoints < input.candidates.length,
    .problem ⟨.overloaded, "endpoint candidate limit exceeded", ""⟩⟩]
  let snapshot := input.snapshot
  snapshot.validateHeader
  snapshot.function.validate
  snapshot.trigger.validate snapshot.functionID
  snapshot.route.validate snapshot.functionID
  let targets := sortFunc compareRouteTargets snapshot.route.targets
  let snapshot := { snapshot with route := { snapshot.route with targets := targets } }
  let candidates := sortFunc compareCandidates input.candidates
  let collected ← candidates.foldlM (b.collectOne snapshot) ⟨[], [], []⟩
  let snapshot :=
    { snapshot with endpoints := some (sortFunc compareEndpoints collected.endpoints) }
  let checksum ← calculateChecksum snapshot
  let snapshot := { snapshot with checksum := checksum }
  snapshot.validate.mapError (.wrap "validating built serving snapshot")
  .ok ⟨snapshot, collected.decisions⟩

end Builder

end MiniCloud.Discovery
