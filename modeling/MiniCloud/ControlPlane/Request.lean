import MiniCloud.Lib.Url
import MiniCloud.Model.Route
import MiniCloud.StrictJson

/-!
# Control requests

The first half of `internal/controlplane/operation.go`: operation keys, the non-secret material
of a management request, and the digest that decides whether two requests are the same.
-/

namespace MiniCloud.ControlPlane

open Lib Problem Digest Model

def defaultNamespace : GoString := "default"

def operationDigestDomain : GoString := "control-operation-request"
def operationDigestVersion : GoString := "v1"

def maxOperationBodyBytes : Nat := 1048576
def maxOperationPathBytes : Nat := 4096
def maxOperationMessage : Nat := 512

/-- `^[A-Za-z0-9._:-]{1,128}$`. -/
def identifierPattern (s : GoString) : Bool := Text.matchClass isIdByte 1 128 s

/-- An HTTP token of at most 16 bytes. -/
def httpMethodPattern (s : GoString) : Bool := Text.matchClass isTokenByte 1 16 s

def revisionConflict (kind : GoString) (expected actual : UInt64) : GoError :=
  .revisionConflict kind expected actual

def validateUTC (field : GoString) (value : Time) : Validation :=
  checks [
    mustNot value.isZero field "is required",
    mustNot (!value.isUTC) field "must use UTC"]

theorem validateUTC_ok {field : GoString} {value : Time} :
    validateUTC field value = .ok () ↔ value.isZero = false ∧ value.isUTC = true := by
  simp [validateUTC, checks_ok]

/-- A client-supplied Operation ID in the scope of its authenticated principal. -/
structure OperationKey where
  principal : GoString
  ns : GoString
  operationID : GoString
  deriving DecidableEq

def OperationKey.validate (k : OperationKey) : Validation :=
  checks [
    mustNot (!identifierPattern k.principal) "principal" "must be a valid identifier",
    mustNot (k.ns != defaultNamespace) "namespace" "only default is supported in v1",
    mustNot (!identifierPattern k.operationID) "operation_id" "must be a valid identifier"]

/-- The optimistic-concurrency inputs of a request. Absent is distinct from zero. -/
structure Preconditions where
  ifNoneMatch : Bool
  expectedResourceRevision : Option UInt64
  expectedActiveRouteRevision : Option UInt64
  deriving DecidableEq

def Preconditions.validate (p : Preconditions) : Validation :=
  checks [
    mustNot (p.ifNoneMatch &&
        (p.expectedResourceRevision.isSome || p.expectedActiveRouteRevision.isSome))
      "preconditions" "if-none-match cannot be combined with expected revisions",
    mustNot (p.expectedResourceRevision == some 0) "expected_resource_revision"
      "must be greater than zero"]

/-- The material of one operation digest. A nil `body` and an empty one are different values. -/
structure Request where
  method : GoString
  path : GoString
  preconditions : Preconditions
  bodyPresent : Bool
  body : Option GoString
  artifactDigest : Option SHA256
  deriving DecidableEq

def canonicalMethod (value : GoString) : Except GoError GoString :=
  if httpMethodPattern value then .ok (Text.toUpper value)
  else .error (invalid "method" "must be a valid HTTP token within 16 bytes")

def canonicalPath (value : GoString) : Except GoError GoString := do
  checks [
    mustNot (value == [] || maxOperationPathBytes < value.length || !Text.validUTF8 value ||
        value.contains 0 || value.head? != some 0x2F)
      "path" "must be a valid absolute path within 4096 bytes",
    mustNot (value.contains 0x3F || value.contains 0x23) "path"
      "must not contain a query or fragment"]
  match Url.parseRequestPath value with
  | none => .error (invalid "path" "must be a valid absolute URI path")
  | some parsed => do
    checks [
      mustNot (!Text.validUTF8 parsed) "path" "must be a valid absolute URI path",
      mustNot (Url.escapePath parsed != value) "path" "must use canonical percent encoding"]
    .ok (Url.escapePath parsed)

/-- `len` of a byte slice; nil has length zero. -/
def bodyBytes (body : Option GoString) : GoString := body.getD []

def validateBody (present : Bool) (body : Option GoString) : Validation :=
  if present then do
    checks [
      mustNot (bodyBytes body == [] || maxOperationBodyBytes < (bodyBytes body).length) "body"
        "must be a JSON value within the management body limit"]
    match StrictJson.validate (bodyBytes body) 32 with
    | .ok () => .ok ()
    | .error _ => .error (invalid "body" "must be bounded strict JSON")
  else
    checks [
      mustNot (bodyBytes body != []) "body" "must be absent when body_present is false"]

/--
The raw body inside the marshalled request. `json.Marshal` copies it after checking its syntax;
the canonicaliser that reads the result refuses an unpaired surrogate, which the syntax allows.
-/
def marshalBody : Option GoString → Except GoError (Json Json.Num)
  | none => .ok .null
  | some bytes =>
    match Json.parse .replace bytes with
    | none => .error (.wrap "marshaling canonical control operation request" (.text "invalid json"))
    | some _ =>
      match Json.parse .reject bytes with
      | none => .error (.wrap "canonicalizing json" (.text "invalid json"))
      | some tree => .ok tree

/-- `canonicalRequest`, as the tree of its JSON text. -/
def canonicalRequest (method path : GoString) (p : Preconditions) (bodyPresent : Bool)
    (body : Json Json.Num) (artifactDigest : Option SHA256) : Json Json.Num :=
  .obj [
    ("method", .ofGoString method),
    ("path", .ofGoString path),
    ("if_none_match", .bool p.ifNoneMatch),
    ("expected_resource_revision",
      .ofOption (fun n : UInt64 => .ofNat n.toNat) p.expectedResourceRevision),
    ("expected_active_route_revision",
      .ofOption (fun n : UInt64 => .ofNat n.toNat) p.expectedActiveRouteRevision),
    ("body_present", .bool bodyPresent),
    ("body", body),
    ("artifact_digest", .ofOption .ofGoString artifactDigest)]

/-- The versioned, domain-separated digest of one control request. -/
def Request.digest (r : Request) : Except GoError SHA256 := do
  let method ← canonicalMethod r.method
  let path ← canonicalPath r.path
  r.preconditions.validate
  validateBody r.bodyPresent r.body
  checks [
    mustNot (r.artifactDigest.any fun d => !encodedPattern d) "artifact_digest"
      "must be a lowercase sha-256 digest"]
  let body ← marshalBody r.body
  canonicalJSON operationDigestDomain operationDigestVersion
    (canonicalRequest method path r.preconditions r.bodyPresent body r.artifactDigest)

end MiniCloud.ControlPlane
