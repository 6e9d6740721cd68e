import MiniCloud.Digest
import MiniCloud.Model.Function

/-!
# Versions

`internal/model/version.go`: the immutable execution inputs of one artifact and the admission
state, which is the only part a command may change.
-/

namespace MiniCloud.Model

open Lib Problem Digest

def abiWASICommandV1 : GoString := "wasi-command-v1"
def hostAPIProfileNone : GoString := "none"
/-- `256 << 20`. -/
def maxArtifactBytes : Int := 268435456

def supportedMemoryMiB : List UInt32 := [64, 128, 256, 512]

/-- The version admission lifecycle; `other` is an unsupported text. -/
inductive VersionState where
  | uploaded
  | validating
  | ready
  | failed
  | deprecated
  | deleting
  | tombstoned
  | other (text : GoString)
  deriving DecidableEq

instance : Inhabited VersionState := ⟨.other ""⟩

def VersionState.valid : VersionState → Bool
  | .uploaded | .validating | .ready | .failed | .deprecated | .deleting | .tombstoned => true
  | .other _ => false

/-- Uploader-supplied diagnostic data, never trusted for admission. -/
structure ToolchainMetadata where
  name : GoString
  version : GoString
  provenance : GoString
  deriving DecidableEq, Inhabited

/-- The immutable resource request in a Version manifest. -/
structure ResourceRequest where
  timeout : Duration
  memoryMiB : UInt32
  maxConcurrency : UInt32
  maxInputBytes : Int
  maxOutputBytes : Int
  deriving DecidableEq, Inhabited

/-- A versioned optional host capability request. -/
structure CapabilityRequest where
  name : GoString
  version : GoString
  deriving DecidableEq, Inhabited

/-- A stable code and non-sensitive diagnostic summary. -/
structure SafeError where
  code : Code
  message : GoString
  deriving DecidableEq

structure Version extends Metadata where
  functionID : GoString
  versionID : GoString
  artifactDigest : SHA256
  manifestDigest : SHA256
  artifactSize : Int
  abi : GoString
  hostAPIProfile : GoString
  runtimeFeatureProfile : GoString
  toolchain : ToolchainMetadata
  admissionEpoch : UInt64
  resourceRequest : ResourceRequest
  requestedCapabilities : List CapabilityRequest
  state : VersionState
  validationError : Option SafeError
  deriving DecidableEq, Inhabited

def ResourceRequest.validate (r : ResourceRequest) : Validation :=
  checks [
    mustNot (r.timeout ≤ 0 || 30 * Duration.second < r.timeout)
      "resource_request.timeout" "must be between zero and 30 seconds",
    mustNot (!supportedMemoryMiB.contains r.memoryMiB)
      "resource_request.memory_mib" "must be one of 64, 128, 256, or 512",
    mustNot (r.maxConcurrency == 0)
      "resource_request.max_concurrency" "must be greater than zero",
    mustNot (r.maxInputBytes ≤ 0 || 1048576 < r.maxInputBytes)
      "resource_request.max_input_bytes" "must be within 1 MiB",
    mustNot (r.maxOutputBytes ≤ 0 || 1048576 < r.maxOutputBytes)
      "resource_request.max_output_bytes" "must be within 1 MiB"]

/-- The key a set of capabilities is indexed by. -/
def CapabilityRequest.key (c : CapabilityRequest) : GoString := c.name ++ [0] ++ c.version

def validateCapabilities (capabilities : List CapabilityRequest) : Validation :=
  checkEach
    (fun c => checks [mustNot (!labelKeyPattern c.name || c.version == [])
      "requested_capabilities" "contains an invalid capability"])
    CapabilityRequest.key
    (invalid "requested_capabilities" "contains a duplicate capability") [] capabilities

/-- The tests on the fields no command changes. -/
def Version.immutableChecks (v : Version) : List (Check GoError) := [
  mustNot (!idPattern v.functionID) "function_id" "must be a valid identifier",
  mustNot (!idPattern v.versionID) "version_id" "must be a valid identifier",
  mustNot (!encodedPattern v.artifactDigest) "artifact_digest"
    "must be a lowercase SHA-256 digest",
  mustNot (!encodedPattern v.manifestDigest) "manifest_digest"
    "must be a lowercase SHA-256 digest",
  mustNot (v.artifactSize ≤ 0 || maxArtifactBytes < v.artifactSize) "artifact_size"
    "must be within the v1 artifact size limit",
  mustNot (v.abi != abiWASICommandV1) "abi" "only wasi-command-v1 is supported in v1",
  mustNot (v.hostAPIProfile != hostAPIProfileNone) "host_api_profile"
    "only none is supported in v1",
  mustNot (v.runtimeFeatureProfile == []) "runtime_feature_profile" "is required",
  mustNot (v.toolchain.name == [] || v.toolchain.version == []) "toolchain_metadata"
    "name and version are required",
  mustNot (v.toolchain.provenance == []) "toolchain_metadata" "provenance is required",
  mustNot (v.admissionEpoch == 0) "admission_epoch" "must be greater than zero"]

/-- The tests on the admission state. -/
def Version.stateChecks (v : Version) : List (Check GoError) := [
  mustNot (!v.state.valid) "state" "is not a supported version state",
  mustNot (v.state == .failed && v.validationError.isNone) "validation_error"
    "is required for a failed version",
  mustNot (v.validationError.any fun e => e.code.text == [] || e.message == [])
    "validation_error" "code and message are required",
  mustNot (v.validationError.any fun e => !known e.code) "validation_error"
    "code is not a stable v1 error",
  mustNot (v.state != .failed && v.validationError.isSome) "validation_error"
    "is only allowed for a failed version"]

def Version.validate (v : Version) : Validation := do
  v.toMetadata.validate
  checks v.immutableChecks
  v.resourceRequest.validate
  validateCapabilities v.requestedCapabilities
  checks v.stateChecks

theorem Version.validate_ok {v : Version} : v.validate = .ok () ↔
    v.toMetadata.Valid ∧ (∀ c ∈ v.immutableChecks, c.fails = false) ∧
      v.resourceRequest.validate = .ok () ∧ validateCapabilities v.requestedCapabilities = .ok () ∧
      ∀ c ∈ v.stateChecks, c.fails = false := by
  rw [Version.validate, seq_ok, seq_ok, seq_ok, seq_ok, checks_ok, checks_ok, Metadata.validate_ok]

/-- A validation error stands exactly on failed Versions. -/
theorem Version.validationError_iff {v : Version} (h : v.validate = .ok ()) :
    v.validationError.isSome ↔ v.state = .failed := by
  have hs := (Version.validate_ok.mp h).2.2.2.2
  have h1 := hs _ (by simp only [Version.stateChecks, List.mem_cons]; exact .inr (.inl rfl))
  have h2 := hs _ (by
    simp only [Version.stateChecks, List.mem_cons]; exact .inr (.inr (.inr (.inr (.inl rfl)))))
  simp only [mustNot_fails, Bool.and_eq_false_iff] at h1 h2
  constructor
  · intro hne
    rcases h2 with h2 | h2
    · simpa using h2
    · simp [hne] at h2
  · intro hf
    rcases h1 with h1 | h1
    · simp [hf] at h1
    · simpa using h1

end MiniCloud.Model
