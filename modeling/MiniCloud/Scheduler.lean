import MiniCloud.ServingAuth.Identity
import MiniCloud.Validator
import MiniCloud.WorkerCache.Key

/-!
# Placements

`internal/scheduler/types.go`: the placement the scheduler hands to the control plane and the
observation of a Worker, with their validators.
-/

namespace MiniCloud.Scheduler

open Lib Problem Digest Model ServingAuth

def maxWorkerSlots : UInt64 := 1024

/-- The immutable placement result. -/
structure Assignment where
  commandID : GoString
  assignmentID : GoString
  worker : WorkerSession
  versionID : GoString
  artifactDigest : SHA256
  artifactSize : Int
  abi : GoString
  hostAPI : GoString
  featureProfile : GoString
  memoryMiB : UInt32
  requiredSlots : UInt64
  admissionEpoch : UInt64
  deploymentGeneration : UInt64
  policyDigest : SHA256
  deriving DecidableEq

/-- The normal-serving identity of a placement. -/
def Assignment.identity (a : Assignment) : AssignmentIdentity where
  worker := a.worker
  assignmentID := a.assignmentID
  versionID := a.versionID
  admissionEpoch := a.admissionEpoch
  deploymentGeneration := a.deploymentGeneration
  policyDigest := a.policyDigest
  mode := .normal

def Assignment.validate (a : Assignment) : Validation := do
  checks [mustNot (!identifierPattern a.commandID) "command_id" "must be a valid identifier"]
  a.identity.validate
  checks [
    mustNot (!encodedPattern a.artifactDigest) "artifact_digest"
      "must be a lowercase sha-256 digest",
    mustNot (a.artifactSize < 1 || maxArtifactBytes < a.artifactSize) "artifact_size"
      "must be within the v1 artifact size limit",
    mustNot (a.abi != abiWASICommandV1) "abi" "is not supported",
    mustNot (a.hostAPI != hostAPIProfileNone) "host_api" "is not supported",
    mustNot (a.featureProfile != WasmProfile.featureProfile) "feature_profile" "is not supported",
    mustNot (!(WasmProfile.new WasmProfile.engineCompiler a.memoryMiB).isOk) "memory_mib"
      "is not a supported runtime memory tier",
    mustNot (a.requiredSlots == 0 || maxWorkerSlots < a.requiredSlots) "required_slots"
      "must be within the v1 worker slot limit"]

/-! ## Worker observations -/

def maxRequiredLabels : Nat := 32
def maxCacheHints : Nat := 4096

/-- The persisted Worker control intent. -/
inductive SchedulingIntent where
  | schedulable
  | draining
  | removed
  | other (text : GoString)
  deriving DecidableEq

/-- The Leader-derived condition of a Worker session. -/
inductive SessionState where
  | joining
  | ready
  | suspect
  | unavailable
  | other (text : GoString)
  deriving DecidableEq

/-- Orthogonal to intent and session liveness. -/
inductive DrainState where
  | notDraining
  | draining
  | drained
  | other (text : GoString)
  deriving DecidableEq

def SchedulingIntent.valid : SchedulingIntent → Bool
  | .schedulable | .draining | .removed => true
  | .other _ => false

def SessionState.valid : SessionState → Bool
  | .joining | .ready | .suspect | .unavailable => true
  | .other _ => false

def DrainState.valid : DrainState → Bool
  | .notDraining | .draining | .drained => true
  | .other _ => false

/-- The runtime compatibility a Worker advertises. -/
structure RuntimeProfile where
  name : GoString
  version : GoString
  engine : GoString
  goos : GoString
  goarch : GoString
  abi : GoString
  hostAPI : GoString
  featureProfile : GoString
  memoryMiB : UInt32

structure Capacity where
  memoryMiB : UInt64
  allocatedMemoryMiB : UInt64
  slots : UInt64
  allocatedSlots : UInt64

/-- Advisory observations that only rank Workers. -/
structure CacheHints where
  artifacts : GoMap SHA256 Unit
  compiled : GoMap WorkerCache.Key Unit

/-- A point-in-time Worker observation. -/
structure WorkerSnapshot where
  session : WorkerSession
  runtime : RuntimeProfile
  intent : SchedulingIntent
  state : SessionState
  drain : DrainState
  capacity : Capacity
  labels : GoMap GoString GoString
  cache : CacheHints

/-- One pass of the loop over the labels; every failure is the same error. -/
def validLabel (label : GoString × GoString) : Bool :=
  labelKeyPattern label.1 && Text.validUTF8 label.2 && label.2.length ≤ 256

def WorkerSnapshot.validate (w : WorkerSnapshot) : Validation := do
  w.session.validate
  checks [
    mustNot (!w.intent.valid || !w.state.valid || !w.drain.valid) "worker_state"
      "intent or session state is unsupported",
    mustNot (w.runtime.name != WasmProfile.runtimeName ||
        w.runtime.version != WasmProfile.runtimeVersion || w.runtime.goos == [] ||
        w.runtime.goarch == [] || w.runtime.abi != abiWASICommandV1 ||
        w.runtime.hostAPI != hostAPIProfileNone ||
        w.runtime.featureProfile != WasmProfile.featureProfile) "runtime"
      "runtime profile is incomplete",
    mustNot (!(WasmProfile.new w.runtime.engine w.runtime.memoryMiB).isOk) "runtime"
      "runtime engine or memory tier is unsupported",
    mustNot (w.capacity.memoryMiB < w.capacity.allocatedMemoryMiB ||
        w.capacity.slots < w.capacity.allocatedSlots || maxWorkerSlots < w.capacity.slots)
      "capacity" "allocation exceeds capacity",
    mustNot (maxRequiredLabels < w.labels.len || maxCacheHints < w.cache.artifacts.len ||
        maxCacheHints < w.cache.compiled.len) "worker_observation"
      "contains more entries than the v1 bound",
    mustNot (!w.labels.toList.all validLabel) "labels" "contains an invalid label"]

end MiniCloud.Scheduler
