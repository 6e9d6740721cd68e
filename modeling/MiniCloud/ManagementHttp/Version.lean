import MiniCloud.LocalController.Controller

/-!
# Versions at the management boundary

`internal/managementhttp`: what a create-version request becomes before it reaches the controller
(`versionInput`), and the projection of a Version that a management client sees (`versionView`).
-/

namespace MiniCloud.ManagementHttp

open Lib Problem Digest Model LocalController

/-- The requested resources, with the timeout in whole milliseconds. -/
structure ResourceRequestBody where
  timeoutMS : Int64
  memoryMiB : UInt32
  maxConcurrency : UInt32
  maxInputBytes : Int
  maxOutputBytes : Int

structure CreateVersionRequest where
  artifactDigest : GoString
  manifestDigest : GoString
  toolchain : ToolchainMetadata
  resourceRequest : ResourceRequestBody
  requestedCapabilities : Option (List CapabilityRequest)

structure MetadataBody where
  id : GoString
  ns : GoString
  createdAt : Time
  updatedAt : Time
  createdRaftIndex : UInt64
  resourceRevision : UInt64

structure VersionBody extends MetadataBody where
  functionID : GoString
  versionID : GoString
  artifactDigest : SHA256
  manifestDigest : SHA256
  artifactSize : Int
  abi : GoString
  hostAPIProfile : GoString
  runtimeFeatureProfile : GoString
  toolchain : ToolchainMetadata
  admissionEpoch : UInt64
  resourceRequest : ResourceRequestBody
  requestedCapabilities : List CapabilityRequest
  state : VersionState
  validationError : Option SafeError

/-- `time.Duration(ms) * time.Millisecond`: a product of 64-bit integers. -/
def durationMS (ms : Int64) : Duration := (ms * 1000000).toInt

/-- `Duration.Milliseconds`. -/
def milliseconds (d : Duration) : Int64 := Int64.ofInt (d.tdiv Duration.millisecond)

def versionInput (functionID : GoString) (body : CreateVersionRequest) :
    Except GoError CreateVersionInput := do
  let artifactDigest ← (parseSHA256 body.artifactDigest).mapError fun _ =>
    invalid "artifact_digest" "must be a lowercase sha-256 digest"
  let manifestDigest ← (parseSHA256 body.manifestDigest).mapError fun _ =>
    invalid "manifest_digest" "must be a lowercase sha-256 digest"
  checks [mustNot (decide (body.resourceRequest.timeoutMS < 1))
    "resource_request.timeout_ms" "must be greater than zero"]
  pure {
    functionID := functionID
    artifactDigest := artifactDigest
    manifestDigest := manifestDigest
    toolchain := body.toolchain
    resourceRequest := {
      timeout := durationMS body.resourceRequest.timeoutMS
      memoryMiB := body.resourceRequest.memoryMiB
      maxConcurrency := body.resourceRequest.maxConcurrency
      maxInputBytes := body.resourceRequest.maxInputBytes
      maxOutputBytes := body.resourceRequest.maxOutputBytes }
    requestedCapabilities := some (body.requestedCapabilities.getD []) }

def metadataView (m : Metadata) : MetadataBody :=
  ⟨m.id, m.ns, m.createdAt, m.updatedAt, m.createdRaftIndex, m.resourceRevision⟩

def versionView (version : Version) : VersionBody :=
  { metadataView version.toMetadata with
    functionID := version.functionID
    versionID := version.versionID
    artifactDigest := version.artifactDigest
    manifestDigest := version.manifestDigest
    artifactSize := version.artifactSize
    abi := version.abi
    hostAPIProfile := version.hostAPIProfile
    runtimeFeatureProfile := version.runtimeFeatureProfile
    toolchain := version.toolchain
    admissionEpoch := version.admissionEpoch
    resourceRequest := {
      timeoutMS := milliseconds version.resourceRequest.timeout
      memoryMiB := version.resourceRequest.memoryMiB
      maxConcurrency := version.resourceRequest.maxConcurrency
      maxInputBytes := version.resourceRequest.maxInputBytes
      maxOutputBytes := version.resourceRequest.maxOutputBytes }
    requestedCapabilities := version.requestedCapabilities
    state := version.state
    validationError := version.validationError }

end MiniCloud.ManagementHttp
