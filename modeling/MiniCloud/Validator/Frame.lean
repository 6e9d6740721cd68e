import MiniCloud.Lib.Json.Decode
import MiniCloud.Lib.Reader
import MiniCloud.StrictJson
import MiniCloud.Validator

/-!
# Frames of the validator protocol

A request travels in one frame (`internal/validator/protocol`): a magic, the length of the header,
the header and the artifact. The parent streams it from wherever the artifact comes from, and the
child reads it from a pipe, so both ends see readers and not byte strings.

The texts of `encoding/json`'s errors are left out.
-/

namespace MiniCloud

open Lib Problem Digest Model

def Lib.ReadError.error : ReadError → GoError
  | .eof => .text "EOF"
  | .unexpectedEOF => .text "unexpected EOF"
  | .other cause => .text cause

namespace Validator

/-- `32 << 20`. -/
def defaultArtifactBytes : Int := 33554432

/-- The magic and four bytes for the length of the header. -/
def frameStart : Nat := frameMagic.length + 4

/-! ## Writing -/

/-- The reader of `NewRequestReader`: the start of the frame, the header and the artifact. -/
def requestStream (frame : RequestFrame) (artifact : Reader) : Reader :=
  .multi [
    .ofBytes (frame.head.take frameStart),
    .ofBytes (frame.head.drop frameStart),
    .exact artifact frame.artifactSize.toNat]

/-! ## Reading -/

def capabilityFields : List (Json.Field CapabilityRequest) := [
  .of "name" (·.name) (fun x c => { c with name := x }) Json.decodeString,
  .of "version" (·.version) (fun x c => { c with version := x }) Json.decodeString]

def requestFields : List (Json.Field Request) := [
  .of "schema_version" (·.schemaVersion) (fun x r => { r with schemaVersion := x })
    Json.decodeString,
  .of "validation_id" (·.validationID) (fun x r => { r with validationID := x }) Json.decodeString,
  .of "artifact_digest" (·.artifactDigest) (fun x r => { r with artifactDigest := x })
    Json.decodeString,
  .of "artifact_size" (·.artifactSize) (fun x r => { r with artifactSize := x }) Json.decodeInt64,
  .of "abi" (·.abi) (fun x r => { r with abi := x }) Json.decodeString,
  .of "host_api_profile" (·.hostAPIProfile) (fun x r => { r with hostAPIProfile := x })
    Json.decodeString,
  .of "runtime_feature_profile" (·.runtimeFeatureProfile)
    (fun x r => { r with runtimeFeatureProfile := x }) Json.decodeString,
  .of "runtime_engine" (·.runtimeEngine) (fun x r => { r with runtimeEngine := x })
    Json.decodeString,
  .of "memory_limit_mib" (·.memoryLimitMiB.toNat)
    (fun x r => { r with memoryLimitMiB := UInt32.ofNat x }) (Json.decodeUint 32),
  .of "requested_capabilities" (·.requestedCapabilities)
    (fun x r => { r with requestedCapabilities := x })
    (Json.decodeSlice (Json.decodeStruct capabilityFields) ⟨[], []⟩)]

/-- The zero value that a header is decoded into. -/
def zeroRequest : Request where
  schemaVersion := []
  validationID := []
  artifactDigest := []
  artifactSize := 0
  abi := []
  hostAPIProfile := []
  runtimeFeatureProfile := []
  runtimeEngine := []
  memoryLimitMiB := 0
  requestedCapabilities := none

def decodeHeader (header : GoString) : Except GoError Request := do
  wrapping "validator protocol: validating request header" (StrictJson.validate header 16)
  match (Json.parse .replace header).bind fun v => Json.decodeStruct requestFields v zeroRequest with
  | none => throw (.text "validator protocol: decoding request header")
  | some request => return request

/-- `io.ReadFull` with its error in context. -/
def readPart (context : GoString) (source : Reader) (size : Nat) :
    Except GoError (GoString × Reader) :=
  match source.readFull false size with
  | .error e => .error (.wrap context e.error)
  | .ok part => .ok part

/-- The artifact limit of a reader. -/
def artifactLimit (maxArtifactBytes : Int) : Int :=
  if maxArtifactBytes = 0 then defaultArtifactBytes else maxArtifactBytes

/-- Read one complete frame and verify its bytes. The source is there; a nil one is refused. -/
def readRequest (source : Reader) (maxArtifactBytes : Int) :
    Except GoError (Request × GoString) := do
  let limit := artifactLimit maxArtifactBytes
  checks [⟨limit < 1 || hardArtifactBytes < limit,
    .text "validator protocol: artifact limit is outside v1 bounds"⟩]
  let start ← readPart "validator protocol: reading frame prefix" source frameStart
  let headerSize := ofBigEndian (start.1.drop frameMagic.length)
  checks [
    ⟨start.1.take frameMagic.length != frameMagic,
      .text "validator protocol: unsupported frame magic"⟩,
    ⟨headerSize = 0 || maxHeaderBytes < headerSize,
      .text "validator protocol: invalid request header size"⟩]
  let header ← readPart "validator protocol: reading request header" start.2 headerSize
  let request ← decodeHeader header.1
  request.validate
  checks [⟨limit < request.artifactSize,
    .text "validator protocol: artifact exceeds configured limit"⟩]
  let artifact ← readPart "validator protocol: reading artifact" header.2
    request.artifactSize.toNat
  checks [
    -- one more read has to find the end
    ⟨artifact.2.bytes 0 != [] || artifact.2.err 0 != some .eof,
      .text "validator protocol: frame contains trailing artifact bytes"⟩,
    ⟨sum artifact.1 != request.artifactDigest,
      .text "validator protocol: artifact digest mismatch"⟩]
  return (request, artifact.1)

end Validator

end MiniCloud
