import MiniCloud.ControlPlane.Catalog
import MiniCloud.Model.Deployment
import MiniCloud.Validator

/-!
# Version admission

`internal/controlplane/release.go`: Versions, the validation attempt each Validating Version is
fenced by, and the first Deployment of each Ready one.

`CreateVersion` reads the parent Function before it takes the store's own mutex. The model makes
the read and the insertion one step: a Function once found is never removed, and no command moves
it to one of the two lifecycles the read refuses, so the answer cannot change in between.
-/

namespace MiniCloud.ControlPlane

open Lib Problem Digest Model Validator

def defaultMaxVersionsPerFunction : Nat := 100
/-- `256 << 10`. -/
def defaultMaxLogBytes : Int := 262144

structure CreateVersionCommand where
  ifNoneMatch : Bool
  appliedIndex : UInt64
  version : Version

structure StartValidationCommand where
  versionID : GoString
  expectedResourceRevision : UInt64
  validationID : GoString
  updatedAt : Time
  appliedIndex : UInt64

structure CompleteValidationCommand where
  versionID : GoString
  expectedResourceRevision : UInt64
  report : Report
  deployment : Option Deployment
  updatedAt : Time
  appliedIndex : UInt64

def validateCreateVersion (command : CreateVersionCommand) : Validation := do
  let version := command.version
  checks [
    mustNot (!command.ifNoneMatch) "if_none_match" "is required when creating a version",
    mustNot (command.appliedIndex == 0) "applied_index" "must be greater than zero"]
  version.validate
  checks [
    mustNot (version.state != .uploaded || version.validationError.isSome) "state"
      "new version must be Uploaded without a validation error",
    mustNot (version.id != version.versionID || version.admissionEpoch != 1) "version"
      "new version id must match version id with admission epoch one",
    mustNot (version.runtimeFeatureProfile != WasmProfile.featureProfile)
      "runtime_feature_profile" "must use the fixed v1 feature profile",
    mustNot (version.createdRaftIndex != command.appliedIndex || version.resourceRevision != 1)
      "version" "must be created at this applied index with resource revision one"]

def validateStartValidation (command : StartValidationCommand) : Validation := do
  checks [
    mustNot (!identifierPattern command.versionID || !identifierPattern command.validationID)
      "validation" "version id and validation id must be valid identifiers",
    mustNot (command.expectedResourceRevision == 0 || command.appliedIndex == 0) "revision"
      "expected resource revision and applied index must be greater than zero"]
  validateUTC "updated_at" command.updatedAt

def validateCompleteValidation (command : CompleteValidationCommand) : Validation := do
  checks [
    mustNot (!identifierPattern command.versionID || command.expectedResourceRevision == 0 ||
        command.appliedIndex == 0)
      "validation" "version id, expected revision, and applied index are required"]
  validateUTC "updated_at" command.updatedAt
  checks [
    mustNot (!command.report.validate.isOk) "report" "must be a valid validator report",
    mustNot (command.report.valid && command.deployment.isNone) "deployment"
      "is required for a successful validation",
    mustNot (!command.report.valid && command.deployment.isSome) "deployment"
      "is not allowed for a failed validation"]

def validateReportForVersion (report : Report) (version : Version) : Validation :=
  checks [
    mustNot (report.artifactDigest != version.artifactDigest ||
        report.artifactSize != version.artifactSize ||
        report.runtimeFeatureProfile != version.runtimeFeatureProfile)
      "report" "does not match immutable version artifact or runtime profile",
    mustNot (report.runtimeEngine != WasmProfile.engineCompiler) "report.runtime_engine"
      "must use the fixed Local Core compiler engine",
    mustNot (!report.valid &&
        (!Text.validUTF8 report.message || maxOperationMessage < report.message.length))
      "report.message" "must be safe UTF-8 within 512 bytes"]

def capabilitiesSubset (granted requested : List CapabilityRequest) : Bool :=
  granted.all fun c => (requested.map CapabilityRequest.key).contains c.key

/-- The effective policy of a Version under a Deployment. -/
def effectivePolicy (version : Version) (deployment : Deployment) : EffectivePolicy where
  versionID := version.versionID
  admissionEpoch := version.admissionEpoch
  deploymentGeneration := deployment.generation
  artifactDigest := version.artifactDigest
  artifactSize := version.artifactSize
  abi := version.abi
  hostAPIProfile := version.hostAPIProfile
  runtimeFeatureProfile := version.runtimeFeatureProfile
  resourceLimits := deployment.resourceLimits
  maxConcurrency := version.resourceRequest.maxConcurrency
  grantedCapabilities := deployment.grantedCapabilities

/-- Limits equal to the Version's request, with the fixed log bound. -/
def exactLimits (deployment : Deployment) (version : Version) : Bool :=
  deployment.resourceLimits.timeout == version.resourceRequest.timeout &&
  deployment.resourceLimits.memoryMiB == version.resourceRequest.memoryMiB &&
  deployment.resourceLimits.maxInputBytes == version.resourceRequest.maxInputBytes &&
  deployment.resourceLimits.maxOutputBytes == version.resourceRequest.maxOutputBytes &&
  deployment.resourceLimits.maxLogBytes == defaultMaxLogBytes

def validateInitialDeployment (deployment : Deployment) (version : Version)
    (appliedIndex : UInt64) (updatedAt : Time) : Validation := do
  deployment.validate
  checks [
    mustNot (deployment.versionID != version.versionID || deployment.generation != 1 ||
        deployment.scalingRevision != 1 || deployment.createdRaftIndex != appliedIndex ||
        deployment.resourceRevision != 1 || !deployment.createdAt.equal updatedAt ||
        !deployment.updatedAt.equal updatedAt || !exactLimits deployment version ||
        deployment.minReplicas != 1 || deployment.maxReplicas != 1 ||
        deployment.desiredReplicas != 1 || deployment.readyReplicas != 0 ||
        deployment.targetConcurrency != version.resourceRequest.maxConcurrency ||
        deployment.scalingMode != .manual || deployment.idleTimeout != 0 ||
        deployment.desiredPhase != .active)
      "deployment" "must be the fixed Local Core generation one policy",
    mustNot (!capabilitiesSubset deployment.grantedCapabilities version.requestedCapabilities)
      "deployment.granted_capabilities" "must be requested by the version"]
  let policyDigest ← wrapping "calculating initial effective policy"
    (effectivePolicy version deployment).digest
  checks [
    mustNot (deployment.effectivePolicyDigest != policyDigest)
      "deployment.effective_policy_digest" "does not match generation one effective policy"]

/-! ## The store -/

structure ReleaseStore where
  versions : GoMap GoString Version
  versionCountByFunc : GoMap GoString Nat
  validationIDByVersion : GoMap GoString GoString
  deployments : GoMap GoString Deployment
  deriving DecidableEq

def newReleaseStore : ReleaseStore := ⟨∅, ∅, ∅, ∅⟩

/-- The counter of one Function; a missing entry reads as zero. -/
def ReleaseStore.versionCount (s : ReleaseStore) (functionID : GoString) : Nat :=
  (s.versionCountByFunc.get? functionID).getD 0

/-- Retain one immutable Version in Uploaded state. -/
def ReleaseStore.createVersion (functions : Catalog) (command : CreateVersionCommand) :
    Op GoError ReleaseStore Version := do
  Op.ofExcept (validateCreateVersion command)
  let version := command.version
  let (function, _) ← Op.ofExcept (wrapping "resolving version parent function"
    (functions.getFunction version.functionID))
  Op.failIf (function.lifecycle == .deleting || function.lifecycle == .tombstoned)
    (classified .conflict "function does not accept new versions")
  let s ← get
  Op.failIf (s.versions.get? version.versionID).isSome
    (classified .conflict "version id already exists")
  Op.failIf (defaultMaxVersionsPerFunction ≤ s.versionCount version.functionID)
    (classified .overloaded "function version limit reached")
  set { s with
    versions := s.versions.set version.versionID version
    versionCountByFunc := s.versionCountByFunc.set version.functionID
      (s.versionCount version.functionID + 1) }
  return version

/-- The Version once its validation has started. -/
def startedVersion (version : Version) (command : StartValidationCommand) : Version :=
  { version with
    state := .validating
    updatedAt := command.updatedAt
    resourceRevision := version.resourceRevision + 1 }

/-- Move an Uploaded Version to Validating, fenced by the attempt's id. -/
def ReleaseStore.startValidation (command : StartValidationCommand) :
    Op GoError ReleaseStore Version := do
  Op.ofExcept (validateStartValidation command)
  let s ← get
  let version ← Op.orFail (s.versions.get? command.versionID)
    (classified .notFound "version was not found")
  Op.failIf (version.resourceRevision != command.expectedResourceRevision)
    (revisionConflict "resource_revision" command.expectedResourceRevision
      version.resourceRevision)
  Op.failIf (version.state != .uploaded)
    (classified .conflict "version is not awaiting validation")
  let started := startedVersion version command
  Op.ofExcept (wrapping "validating started version" started.validate)
  set { s with
    versions := s.versions.set started.versionID started
    validationIDByVersion := s.validationIDByVersion.set started.versionID command.validationID }
  return started

/-- The Version after a rejected validation. -/
def failedVersion (version : Version) (command : CompleteValidationCommand) : Version :=
  { version with
    updatedAt := command.updatedAt
    resourceRevision := version.resourceRevision + 1
    state := .failed
    validationError := some ⟨Code.ofText command.report.code, command.report.message⟩ }

/-- The Version after a successful validation. -/
def readyVersion (version : Version) (command : CompleteValidationCommand) : Version :=
  { version with
    updatedAt := command.updatedAt
    resourceRevision := version.resourceRevision + 1
    state := .ready }

/-- Consume the report of the current attempt, once. -/
def ReleaseStore.completeValidation (command : CompleteValidationCommand) :
    Op GoError ReleaseStore (Version × Option Deployment) := do
  Op.ofExcept (validateCompleteValidation command)
  let s ← get
  let version ← Op.orFail (s.versions.get? command.versionID)
    (classified .notFound "version was not found")
  Op.failIf (version.resourceRevision != command.expectedResourceRevision)
    (revisionConflict "resource_revision" command.expectedResourceRevision
      version.resourceRevision)
  Op.failIf (version.state != .validating)
    (classified .staleGeneration "version is no longer validating")
  Op.failIf ((s.validationIDByVersion.get? version.versionID).getD "" !=
      command.report.validationID)
    (classified .staleGeneration "validator report does not match the active validation")
  Op.ofExcept (validateReportForVersion command.report version)
  Op.failIf (command.updatedAt.before version.updatedAt)
    (invalid "updated_at" "must not precede the current version update time")
  if !command.report.valid then
    let failed := failedVersion version command
    Op.ofExcept (wrapping "validating failed version" failed.validate)
    set { s with
      versions := s.versions.set failed.versionID failed
      validationIDByVersion := s.validationIDByVersion.delete failed.versionID }
    return (failed, none)
  -- the command was checked to carry a Deployment when its report is valid
  let deployment ← Op.orFail command.deployment (.crash "nil pointer dereference")
  Op.ofExcept (validateInitialDeployment deployment
    { version with
      updatedAt := command.updatedAt
      resourceRevision := version.resourceRevision + 1 }
    command.appliedIndex command.updatedAt)
  let ready := readyVersion version command
  Op.ofExcept (wrapping "validating ready version" ready.validate)
  set { s with
    versions := s.versions.set ready.versionID ready
    deployments := s.deployments.set ready.versionID deployment
    validationIDByVersion := s.validationIDByVersion.delete ready.versionID }
  return (ready, some deployment)

/-- The current Version and its Deployment, when validation succeeded. -/
def ReleaseStore.get (s : ReleaseStore) (versionID : GoString) :
    Except GoError (Version × Option Deployment) := do
  checks [mustNot (!identifierPattern versionID) "version_id" "must be a valid identifier"]
  match s.versions.get? versionID with
  | none => .error (classified .notFound "version was not found")
  | some version => .ok (version, s.deployments.get? versionID)

end MiniCloud.ControlPlane
