import MiniCloud.Lib.BigEndian
import MiniCloud.Model.Version

/-!
# The validator protocol

The fixed runtime profile (`internal/wasmprofile`), and the request to and the report of the
validator subprocess (`internal/validator/protocol`). What a report says about memory and
isolation is carried by no check and left out.
-/

namespace MiniCloud

open Lib Problem Digest Model

namespace WasmProfile

def runtimeName : GoString := "wazero"
def runtimeVersion : GoString := "v1.12.0"
def featureProfile : GoString := "wazero-core-v2-v1"
def engineCompiler : GoString := "compiler"
def engineInterpreter : GoString := "interpreter"

def memoryTiersMiB : List UInt32 := [64, 128, 256, 512]

def validMemoryTier (memoryMiB : UInt32) : Bool := memoryTiersMiB.contains memoryMiB

/-- The runtime choices that affect compilation. -/
structure Profile where
  engine : GoString
  memoryLimitMiB : UInt32

def new (engine : GoString) (memoryLimitMiB : UInt32) : Except GoError Profile := do
  checks [
    ⟨engine != engineCompiler && engine != engineInterpreter,
      .text "unsupported wasm runtime engine"⟩,
    ⟨!validMemoryTier memoryLimitMiB, .text "unsupported wasm memory tier"⟩]
  return ⟨engine, memoryLimitMiB⟩

end WasmProfile

namespace Validator

def schemaVersion : GoString := "validator-v1"
def codeOK : GoString := "ok"

/-- `^[A-Za-z0-9._:-]{1,128}$`. -/
def validationIDPattern (s : GoString) : Bool := Text.matchClass isIdByte 1 128 s

/-! ## Requests -/

/-- `64 << 10`. -/
def maxHeaderBytes : Nat := 65536
/-- `256 << 20`. -/
def hardArtifactBytes : Int := 268435456
def frameMagic : GoString := "MCVAL001"

/-- Trusted policy metadata, sent ahead of the artifact. `none` is a nil slice. -/
structure Request where
  schemaVersion : GoString
  validationID : GoString
  artifactDigest : SHA256
  artifactSize : Int
  abi : GoString
  hostAPIProfile : GoString
  runtimeFeatureProfile : GoString
  runtimeEngine : GoString
  memoryLimitMiB : UInt32
  requestedCapabilities : Option (List CapabilityRequest)

def Request.validate (r : Request) : Validation :=
  checks [
    ⟨r.schemaVersion != Validator.schemaVersion,
      .text "validator protocol: unsupported schema version"⟩,
    ⟨!validationIDPattern r.validationID, .text "validator protocol: invalid validation id"⟩,
    ⟨!encodedPattern r.artifactDigest, .text "validator protocol: invalid artifact digest"⟩,
    ⟨r.artifactSize < 1 || hardArtifactBytes < r.artifactSize,
      .text "validator protocol: invalid artifact size"⟩,
    ⟨r.abi != abiWASICommandV1, .text "validator protocol: unsupported abi"⟩,
    ⟨r.hostAPIProfile != hostAPIProfileNone,
      .text "validator protocol: unsupported host api profile"⟩,
    ⟨r.runtimeFeatureProfile != WasmProfile.featureProfile,
      .text "validator protocol: unsupported runtime feature profile"⟩,
    ⟨r.runtimeEngine != WasmProfile.engineCompiler &&
        r.runtimeEngine != WasmProfile.engineInterpreter,
      .text "validator protocol: unsupported runtime engine"⟩,
    ⟨!WasmProfile.validMemoryTier r.memoryLimitMiB,
      .text "validator protocol: unsupported memory tier"⟩,
    ⟨r.requestedCapabilities.isNone,
      .text "validator protocol: requested capabilities must be an array"⟩]

def capabilityJSON (c : CapabilityRequest) : Json Json.Num :=
  .obj [("name", .str c.name), ("version", .str c.version)]

def Request.toJSON (r : Request) : Json Json.Num :=
  .obj [
    ("schema_version", .str r.schemaVersion),
    ("validation_id", .str r.validationID),
    ("artifact_digest", .str r.artifactDigest),
    ("artifact_size", .ofInt r.artifactSize),
    ("abi", .str r.abi),
    ("host_api_profile", .str r.hostAPIProfile),
    ("runtime_feature_profile", .str r.runtimeFeatureProfile),
    ("runtime_engine", .str r.runtimeEngine),
    ("memory_limit_mib", .ofNat r.memoryLimitMiB.toNat),
    ("requested_capabilities",
      .ofOption (fun cs => .arr (cs.map capabilityJSON)) r.requestedCapabilities)]

/-- The stream of `NewRequestReader`: what it sends first, and how many artifact bytes follow. -/
structure RequestFrame where
  head : GoString
  artifactSize : Int
  deriving DecidableEq

/-- Frame a request. The artifact reader is there; a nil one is refused. -/
def newRequestReader (request : Request) : Except GoError RequestFrame := do
  request.validate
  let header := request.toJSON.marshal
  checks [⟨maxHeaderBytes < header.length,
    .text "validator protocol: request header exceeds limit"⟩]
  return ⟨frameMagic ++ bigEndian 4 header.length ++ header, request.artifactSize⟩

/-! ## Reports -/

/-- An observed function or memory import. -/
structure Import where
  module : GoString
  name : GoString
  kind : GoString
  deriving DecidableEq

/-- The validator's only output. `none` is a nil slice. -/
structure Report where
  schemaVersion : GoString
  validationID : GoString
  valid : Bool
  code : GoString
  reason : GoString
  message : GoString
  artifactDigest : SHA256
  artifactSize : Int
  runtimeName : GoString
  runtimeVersion : GoString
  runtimeFeatureProfile : GoString
  runtimeEngine : GoString
  imports : Option (List Import)
  exports : Option (List GoString)
  compileNanoseconds : Int
  deriving DecidableEq

/-- The response shape, checked without trusting the child. -/
def Report.validate (r : Report) : Validation :=
  checks [
    ⟨r.schemaVersion != Validator.schemaVersion || !validationIDPattern r.validationID,
      .text "validator protocol: invalid report identity"⟩,
    ⟨r.message == [] || r.reason == [],
      .text "validator protocol: invalid report classification"⟩,
    ⟨!encodedPattern r.artifactDigest,
      .text "validator protocol: invalid report artifact digest"⟩,
    ⟨r.artifactSize < 1 || r.runtimeName != WasmProfile.runtimeName ||
        r.runtimeVersion != WasmProfile.runtimeVersion,
      .text "validator protocol: invalid report runtime metadata"⟩,
    ⟨r.runtimeFeatureProfile != WasmProfile.featureProfile || r.imports.isNone || r.exports.isNone,
      .text "validator protocol: incomplete report metadata"⟩,
    ⟨r.runtimeEngine != WasmProfile.engineCompiler &&
        r.runtimeEngine != WasmProfile.engineInterpreter,
      .text "validator protocol: invalid report runtime engine"⟩,
    ⟨r.compileNanoseconds < 0, .text "validator protocol: invalid report timing"⟩,
    ⟨r.valid && r.code != codeOK, .text "validator protocol: valid report must use ok code"⟩,
    ⟨!r.valid && !known (Code.ofText r.code),
      .text "validator protocol: rejected report must use a stable error code"⟩]

end Validator

end MiniCloud
