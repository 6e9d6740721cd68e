import MiniCloud.ControlPlane.Route
import MiniCloud.Scheduler

/-!
# Assignments

`internal/controlplane/assignment.go`: committed placements and, per target, how many of them are
still wanted. `Install` holds the mutexes of all four stores and writes only its own.
-/

namespace MiniCloud.ControlPlane

open Lib Problem Digest Model

def defaultMaxAssignments : Nat := 100000

inductive AssignmentDesiredState where
  | assigned
  | cancelled
  deriving DecidableEq

/-- One committed placement and its desired state. -/
structure AssignmentRecord where
  functionID : GoString
  placement : Scheduler.Assignment
  desiredState : AssignmentDesiredState
  createdAt : Time
  updatedAt : Time
  createdRaftIndex : UInt64
  lastAppliedIndex : UInt64
  resourceRevision : UInt64
  deriving DecidableEq

structure InstallAssignmentCommand where
  functionID : GoString
  placement : Scheduler.Assignment
  ifNoneMatch : Bool
  expectedScalingRevision : UInt64
  appliedIndex : UInt64
  updatedAt : Time

structure CancelAssignmentCommand where
  assignmentID : GoString
  expectedResourceRevision : UInt64
  appliedIndex : UInt64
  updatedAt : Time

/-- What the replicas of one Deployment generation are counted under. -/
structure AssignmentTarget where
  functionID : GoString
  versionID : GoString
  admissionEpoch : UInt64
  deploymentGeneration : UInt64
  deriving DecidableEq

structure AssignmentStore where
  maxAssignments : Nat
  records : GoMap GoString AssignmentRecord
  activeCounts : GoMap AssignmentTarget UInt32
  deriving DecidableEq

def newAssignmentStore : AssignmentStore := ⟨defaultMaxAssignments, ∅, ∅⟩

/-- The counter of one target; a missing entry reads as zero. -/
def AssignmentStore.activeCount (s : AssignmentStore) (target : AssignmentTarget) : UInt32 :=
  (s.activeCounts.get? target).getD 0

def assignmentTargetFor (functionID : GoString) (target : RouteTarget) : AssignmentTarget where
  functionID := functionID
  versionID := target.versionID
  admissionEpoch := target.admissionEpoch
  deploymentGeneration := target.deploymentGeneration

def assignmentTargetForRecord (record : AssignmentRecord) : AssignmentTarget where
  functionID := record.functionID
  versionID := record.placement.versionID
  admissionEpoch := record.placement.admissionEpoch
  deploymentGeneration := record.placement.deploymentGeneration

def validateInstallAssignment (command : InstallAssignmentCommand) : Validation := do
  checks [
    mustNot (!identifierPattern command.functionID) "function_id" "must be a valid identifier",
    mustNot (!command.ifNoneMatch) "if_none_match" "must be true when creating assignment intent",
    mustNot (command.expectedScalingRevision == 0) "expected_scaling_revision"
      "must be greater than zero"]
  wrapping "validating assignment placement" command.placement.validate
  checks [mustNot (command.appliedIndex == 0) "applied_index" "must be greater than zero"]
  validateUTC "updated_at" command.updatedAt

def validateCancelAssignment (command : CancelAssignmentCommand) : Validation := do
  checks [
    mustNot (!identifierPattern command.assignmentID) "assignment_id"
      "must be a valid identifier",
    mustNot (command.expectedResourceRevision == 0) "expected_resource_revision"
      "must be greater than zero",
    mustNot (command.appliedIndex == 0) "applied_index" "must be greater than zero"]
  validateUTC "updated_at" command.updatedAt

def targetMatches (placement : Scheduler.Assignment) (target : RouteTarget) : Bool :=
  placement.versionID == target.versionID &&
  placement.admissionEpoch == target.admissionEpoch &&
  placement.deploymentGeneration == target.deploymentGeneration &&
  placement.policyDigest == target.effectivePolicyDigest

def runtimeMatches (placement : Scheduler.Assignment) (version : Version)
    (deployment : Deployment) : Bool :=
  placement.artifactDigest == version.artifactDigest &&
  placement.artifactSize == version.artifactSize &&
  placement.abi == version.abi &&
  placement.hostAPI == version.hostAPIProfile &&
  placement.featureProfile == version.runtimeFeatureProfile &&
  placement.memoryMiB == deployment.resourceLimits.memoryMiB

/-- The current Ready target a placement is for, and its Deployment. -/
def validatePlacementLocked (catalog : Catalog) (releases : ReleaseStore) (routes : RouteStore)
    (command : InstallAssignmentCommand) : Except GoError (RouteTarget × Deployment) := do
  let placement := command.placement
  let function ← orError (catalog.functionsByID.get? command.functionID)
    (classified .notFound "assignment function was not found")
  checks [⟨function.lifecycle != .active,
    classified .conflict "assignment function is not active"⟩]
  let noRoute := classified .conflict "assignment function has no current enabled route"
  let route ← orError (routes.routes.get? command.functionID) noRoute
  checks [⟨!route.enabled || route.routeRevision != function.activeRouteRevision, noRoute⟩]
  wrapping "validating assignment route target" (validateReadyTargetLocked releases route function)
  checks [
    mustNot (command.updatedAt.before route.updatedAt ||
        command.appliedIndex ≤ route.createdRaftIndex)
      "assignment" "must be committed after the current route"]
  let target ← firstTarget route
  checks [⟨!targetMatches placement target,
    classified .staleGeneration "assignment does not match the current route target"⟩]
  let version := (releases.versions.get? target.versionID).getD default
  let deployment := (releases.deployments.get? target.versionID).getD default
  checks [⟨!runtimeMatches placement version deployment,
    classified .conflict "assignment runtime does not match the admitted policy"⟩]
  return (target, deployment)

/-- The record an accepted placement starts as. -/
def candidateRecord (command : InstallAssignmentCommand) : AssignmentRecord where
  functionID := command.functionID
  placement := command.placement
  desiredState := .assigned
  createdAt := command.updatedAt
  updatedAt := command.updatedAt
  createdRaftIndex := command.appliedIndex
  lastAppliedIndex := command.appliedIndex
  resourceRevision := 1

/-- Retain a complete placement as Assigned intent. -/
def AssignmentStore.install (catalog : Catalog) (releases : ReleaseStore) (routes : RouteStore)
    (command : InstallAssignmentCommand) : Op GoError AssignmentStore AssignmentRecord := do
  Op.ofExcept (validateInstallAssignment command)
  let s ← get
  let assignmentID := command.placement.assignmentID
  Op.failIf (s.records.get? assignmentID).isSome
    (classified .conflict "assignment id was already used")
  Op.failIf (s.maxAssignments ≤ s.records.len)
    (classified .overloaded "assignment store is full")
  let (target, deployment) ← Op.ofExcept (validatePlacementLocked catalog releases routes command)
  Op.failIf (command.expectedScalingRevision != deployment.scalingRevision)
    (revisionConflict "scaling_revision" command.expectedScalingRevision
      deployment.scalingRevision)
  let targetKey := assignmentTargetFor command.functionID target
  Op.failIf (deployment.desiredReplicas ≤ s.activeCount targetKey)
    (classified .conflict "deployment desired replica count is already satisfied")
  set { s with
    records := s.records.set assignmentID (candidateRecord command)
    activeCounts := s.activeCounts.set targetKey (s.activeCount targetKey + 1) }
  return candidateRecord command

/-- The record after its cancellation. -/
def cancelledRecord (record : AssignmentRecord) (command : CancelAssignmentCommand) :
    AssignmentRecord :=
  { record with
    desiredState := .cancelled
    updatedAt := command.updatedAt
    lastAppliedIndex := command.appliedIndex
    resourceRevision := record.resourceRevision + 1 }

/-- Withdraw one Assignment intent, at the exact current revision. -/
def AssignmentStore.cancel (command : CancelAssignmentCommand) :
    Op GoError AssignmentStore AssignmentRecord := do
  Op.ofExcept (validateCancelAssignment command)
  let s ← get
  let record ← Op.orFail (s.records.get? command.assignmentID)
    (classified .notFound "assignment was not found")
  Op.failIf (record.resourceRevision != command.expectedResourceRevision)
    (revisionConflict "resource_revision" command.expectedResourceRevision
      record.resourceRevision)
  Op.failIf (record.desiredState != .assigned)
    (classified .conflict "assignment is already cancelled")
  Op.failIf (command.updatedAt.before record.updatedAt)
    (invalid "updated_at" "must not precede the assignment update time")
  Op.failIf (command.appliedIndex ≤ record.lastAppliedIndex)
    (invalid "applied_index" "must advance the assignment apply position")
  Op.failIf (record.resourceRevision == maxUint64)
    (classified .conflict "assignment revision space is exhausted")
  let targetKey := assignmentTargetForRecord record
  Op.failIf (s.activeCount targetKey == 0)
    (.text "assignment store invariant: active count is missing")
  set { s with
    records := s.records.set command.assignmentID (cancelledRecord record command)
    activeCounts := s.activeCounts.set targetKey (s.activeCount targetKey - 1) }
  return cancelledRecord record command

end MiniCloud.ControlPlane
