import MiniCloud.Lib.Json.Members
import MiniCloud.LocalController.Controller

/-!
# Operation requests

The second half of `localcontroller/operation.go`: the request each management write is
remembered by. A write that cannot be put into a request with a digest is refused before the
operation lock is taken.
-/

namespace MiniCloud.LocalController

open Lib Problem Digest Model ControlPlane

def functionsPath : GoString := "/v1/functions"
def versionsSuffix : GoString := "/versions"
def routeSuffix : GoString := "/route"
def tokenRotateSuffix : GoString := "/invocation-token:rotate"

/-! ## Bodies -/

def lifecycleText : FunctionLifecycle → GoString
  | .active => "Active"
  | .disabled => "Disabled"
  | .deleting => "Deleting"
  | .tombstoned => "Tombstoned"
  | .other text => text

def authPolicyText : AuthPolicy → GoString
  | .token => "token"
  | .public => "public"
  | .other text => text

def CreateFunctionInput.toJSON (input : CreateFunctionInput) : Json Json.Num :=
  .obj [
    ("name", .str input.name),
    ("labels", .ofOption (Json.ofMap .str) input.labels),
    ("auth_policy", .str (authPolicyText input.authPolicy))]

def SetFunctionLifecycleInput.toJSON (input : SetFunctionLifecycleInput) : Json Json.Num :=
  .obj [("lifecycle", .str (lifecycleText input.lifecycle))]

def toolchainJSON (t : ToolchainMetadata) : Json Json.Num :=
  .obj [("name", .str t.name), ("version", .str t.version), ("provenance", .str t.provenance)]

def resourceRequestJSON (r : ResourceRequest) : Json Json.Num :=
  .obj [
    ("timeout", .ofInt r.timeout),
    ("memory_mib", .ofNat r.memoryMiB.toNat),
    ("max_concurrency", .ofNat r.maxConcurrency.toNat),
    ("max_input_bytes", .ofInt r.maxInputBytes),
    ("max_output_bytes", .ofInt r.maxOutputBytes)]

def capabilitiesJSON (capabilities : List CapabilityRequest) : Json Json.Num :=
  .arr (capabilities.map fun c => .obj [("name", .str c.name), ("version", .str c.version)])

def CreateVersionInput.toJSON (input : CreateVersionInput) : Json Json.Num :=
  .obj [
    ("function_id", .str input.functionID),
    ("artifact_digest", .str input.artifactDigest),
    ("manifest_digest", .str input.manifestDigest),
    ("toolchain", toolchainJSON input.toolchain),
    ("resource_request", resourceRequestJSON input.resourceRequest),
    ("requested_capabilities", .ofOption capabilitiesJSON input.requestedCapabilities)]

def PublishRouteInput.toJSON (input : PublishRouteInput) : Json Json.Num :=
  .obj [("version_id", .str input.versionID)]

/-! ## Requests -/

/-- The canonical path of one Function-scoped write. -/
def functionPath (functionID suffix : GoString) : Except GoError GoString :=
  if identifierPattern functionID then .ok (functionsPath ++ "/" ++ functionID ++ suffix)
  else .error (invalid "function_id" "must be a valid identifier")

def operationBody (value : Json Json.Num) : Except GoError GoString :=
  if maxOperationBodyBytes < value.marshal.length then
    .error (invalid "body" "exceeds the management operation body limit")
  else .ok value.marshal

def validOperationRequest (request : Request) : Except GoError Request := do
  let _ ← wrapping "validating management operation request" request.digest
  .ok request

def createFunctionRequest (input : CreateFunctionInput) : Except GoError Request := do
  let body ← operationBody input.toJSON
  validOperationRequest {
    method := "POST"
    path := functionsPath
    preconditions := ⟨true, none, none⟩
    bodyPresent := true
    body := some body
    artifactDigest := none }

def setFunctionLifecycleRequest (input : SetFunctionLifecycleInput) : Except GoError Request := do
  let path ← functionPath input.functionID ""
  let body ← operationBody input.toJSON
  validOperationRequest {
    method := "PATCH"
    path := path
    preconditions := ⟨false, some input.expectedResourceRevision, none⟩
    bodyPresent := true
    body := some body
    artifactDigest := none }

def rotateInvocationTokenRequest (input : RotateInvocationTokenInput) :
    Except GoError Request := do
  let path ← functionPath input.functionID tokenRotateSuffix
  validOperationRequest {
    method := "POST"
    path := path
    preconditions := ⟨false, some input.expectedResourceRevision, none⟩
    bodyPresent := false
    body := none
    artifactDigest := none }

def createVersionRequest (input : CreateVersionInput) : Except GoError Request := do
  let path ← functionPath input.functionID versionsSuffix
  let body ← operationBody input.toJSON
  validOperationRequest {
    method := "POST"
    path := path
    preconditions := ⟨true, none, none⟩
    bodyPresent := true
    body := some body
    artifactDigest := some input.artifactDigest }

def publishRouteRequest (input : PublishRouteInput) : Except GoError Request := do
  let path ← functionPath input.functionID routeSuffix
  let body ← operationBody input.toJSON
  validOperationRequest {
    method := "PUT"
    path := path
    preconditions := ⟨false, none, some input.expectedActiveRouteRevision⟩
    bodyPresent := true
    body := some body
    artifactDigest := none }

end MiniCloud.LocalController
