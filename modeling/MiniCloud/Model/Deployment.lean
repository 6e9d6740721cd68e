import MiniCloud.Model.Version

/-!
# Deployments and effective policies

`internal/model/deployment.go` and `effective_policy.go`: one generation of execution policy with
its scaling state, and the digest that names the policy a Version runs under.
-/

namespace MiniCloud.Model

open Lib Problem Digest

def maxReplicasV1 : UInt32 := 100

inductive ScalingMode where
  | manual
  | auto
  | other (text : GoString)
  deriving DecidableEq

instance : Inhabited ScalingMode := ⟨.other ""⟩

/-- The persisted desired phase of one immutable generation. -/
inductive DeploymentPhase where
  | active
  | draining
  | stopped
  | deleting
  | other (text : GoString)
  deriving DecidableEq

instance : Inhabited DeploymentPhase := ⟨.other ""⟩

def ScalingMode.valid : ScalingMode → Bool
  | .manual | .auto => true
  | .other _ => false

def DeploymentPhase.valid : DeploymentPhase → Bool
  | .active | .draining | .stopped | .deleting => true
  | .other _ => false

/-- The approved execution envelope for a generation. -/
structure ResourceLimits where
  timeout : Duration
  memoryMiB : UInt32
  maxInputBytes : Int
  maxOutputBytes : Int
  maxLogBytes : Int
  deriving DecidableEq, Inhabited

structure Deployment extends Metadata where
  versionID : GoString
  generation : UInt64
  scalingRevision : UInt64
  resourceLimits : ResourceLimits
  grantedCapabilities : List CapabilityRequest
  effectivePolicyDigest : SHA256
  minReplicas : UInt32
  maxReplicas : UInt32
  desiredReplicas : UInt32
  readyReplicas : UInt32
  targetConcurrency : UInt32
  scalingMode : ScalingMode
  idleTimeout : Duration
  desiredPhase : DeploymentPhase
  deriving DecidableEq, Inhabited

/-- The request rules apply to the limits too, at concurrency one. -/
def ResourceLimits.validate (l : ResourceLimits) : Validation := do
  ResourceRequest.validate {
    timeout := l.timeout, memoryMiB := l.memoryMiB, maxConcurrency := 1,
    maxInputBytes := l.maxInputBytes, maxOutputBytes := l.maxOutputBytes }
  checks [
    mustNot (l.maxLogBytes ≤ 0 || 262144 < l.maxLogBytes)
      "resource_limits.max_log_bytes" "must be within 256 KiB"]

def Deployment.validate (d : Deployment) : Validation := do
  d.toMetadata.validate
  checks [
    mustNot (!idPattern d.versionID) "version_id" "must be a valid identifier",
    mustNot (d.generation == 0) "generation" "must be greater than zero",
    mustNot (d.scalingRevision == 0) "scaling_revision" "must be greater than zero"]
  d.resourceLimits.validate
  validateCapabilities d.grantedCapabilities
  checks [
    mustNot (!encodedPattern d.effectivePolicyDigest) "effective_policy_digest"
      "must be a lowercase SHA-256 digest",
    mustNot (d.maxReplicas == 0 || maxReplicasV1 < d.maxReplicas) "max_replicas"
      "must be between 1 and 100",
    mustNot (d.maxReplicas < d.minReplicas) "min_replicas" "must not exceed max_replicas",
    mustNot (d.desiredReplicas < d.minReplicas || d.maxReplicas < d.desiredReplicas)
      "desired_replicas" "must be within the replica bounds",
    mustNot (d.maxReplicas < d.readyReplicas) "ready_replicas" "must not exceed max_replicas",
    mustNot (d.targetConcurrency == 0) "target_concurrency" "must be greater than zero",
    mustNot (!d.scalingMode.valid) "scaling_mode" "is not supported",
    mustNot (d.idleTimeout < 0) "idle_timeout" "must not be negative",
    mustNot (!d.desiredPhase.valid) "desired_phase" "is not supported"]

/-! ## Effective policy -/

def effectivePolicyDomain : GoString := "effective-policy"
def effectivePolicySchemaVersion : GoString := "v1"

/-- The immutable v1 execution policy installed for a Deployment generation. -/
structure EffectivePolicy where
  versionID : GoString
  admissionEpoch : UInt64
  deploymentGeneration : UInt64
  artifactDigest : SHA256
  artifactSize : Int
  abi : GoString
  hostAPIProfile : GoString
  runtimeFeatureProfile : GoString
  resourceLimits : ResourceLimits
  maxConcurrency : UInt32
  grantedCapabilities : List CapabilityRequest
  deriving DecidableEq

def EffectivePolicy.validate (p : EffectivePolicy) : Validation := do
  checks [
    mustNot (!idPattern p.versionID) "version_id" "must be a valid identifier",
    mustNot (p.admissionEpoch == 0) "admission_epoch" "must be greater than zero",
    mustNot (p.deploymentGeneration == 0) "deployment_generation" "must be greater than zero",
    mustNot (!encodedPattern p.artifactDigest) "artifact_digest"
      "must be a lowercase sha-256 digest",
    mustNot (p.artifactSize < 1 || maxArtifactBytes < p.artifactSize) "artifact_size"
      "must be within the v1 artifact size limit",
    mustNot (p.abi != abiWASICommandV1) "abi" "only wasi-command-v1 is supported in v1",
    mustNot (p.hostAPIProfile != hostAPIProfileNone) "host_api_profile"
      "only none is supported in v1",
    mustNot (p.runtimeFeatureProfile == []) "runtime_feature_profile" "is required"]
  p.resourceLimits.validate
  checks [
    mustNot (p.resourceLimits.timeout % Duration.millisecond != 0) "resource_limits.timeout"
      "must use whole milliseconds",
    mustNot (p.maxConcurrency == 0) "max_concurrency" "must be greater than zero"]
  match validateCapabilities p.grantedCapabilities with
  | .ok () => .ok ()
  | .error err =>
    -- the capability check speaks of `requested_capabilities`; here the field is another
    match err.asProblem with
    | some e => .error (invalid "granted_capabilities" e.message)
    | none => .error err

def compareCapabilities : CapabilityRequest → CapabilityRequest → Ordering :=
  compareLex (compareOn CapabilityRequest.name) (compareOn CapabilityRequest.version)

/-- `canonicalResourceLimitsV1`. -/
def ResourceLimits.canonical (l : ResourceLimits) : Json Json.Num :=
  .obj [
    ("timeout_ms", .ofInt (l.timeout / Duration.millisecond)),
    ("memory_mib", .ofNat l.memoryMiB.toNat),
    ("max_input_bytes", .ofInt l.maxInputBytes),
    ("max_output_bytes", .ofInt l.maxOutputBytes),
    ("max_log_bytes", .ofInt l.maxLogBytes)]

def CapabilityRequest.toJSON (c : CapabilityRequest) : Json Json.Num :=
  .obj [("name", .ofGoString c.name), ("version", .ofGoString c.version)]

/-- `canonicalEffectivePolicyV1` with its capabilities in order. -/
def EffectivePolicy.canonical (p : EffectivePolicy) : Json Json.Num :=
  .obj [
    ("version_id", .ofGoString p.versionID),
    ("admission_epoch", .ofNat p.admissionEpoch.toNat),
    ("deployment_generation", .ofNat p.deploymentGeneration.toNat),
    ("artifact_digest", .ofGoString p.artifactDigest),
    ("artifact_size", .ofInt p.artifactSize),
    ("abi", .ofGoString p.abi),
    ("host_api_profile", .ofGoString p.hostAPIProfile),
    ("runtime_feature_profile", .ofGoString p.runtimeFeatureProfile),
    ("resource_limits", p.resourceLimits.canonical),
    ("max_concurrency", .ofNat p.maxConcurrency.toNat),
    ("granted_capabilities",
      .arr ((sortFunc compareCapabilities p.grantedCapabilities).map CapabilityRequest.toJSON))]

def EffectivePolicy.digest (p : EffectivePolicy) : Except GoError SHA256 := do
  p.validate
  canonicalJSON effectivePolicyDomain effectivePolicySchemaVersion p.canonical

end MiniCloud.Model
