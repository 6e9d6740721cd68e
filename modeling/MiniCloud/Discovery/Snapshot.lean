import MiniCloud.Lib.Net
import MiniCloud.Model.Route
import MiniCloud.ServingAuth.Identity

/-!
# Serving snapshots

`internal/discovery/types.go` and `checksum.go`: one complete, checksummed serving view of a
Function, and everything `Snapshot.Validate` tests. `Clone` copies memory that the model does not
have, so it has no counterpart; `cloneRoute` turns nil slices into empty ones, which a list does
not tell apart. Only for the endpoints does the source look at the difference, so they alone are
an `Option`.
-/

namespace MiniCloud

open Lib

/-- The text of a lifecycle, which is a string type. -/
def Model.FunctionLifecycle.text : Model.FunctionLifecycle → GoString
  | .active => "Active"
  | .disabled => "Disabled"
  | .deleting => "Deleting"
  | .tombstoned => "Tombstoned"
  | .other text => text

def Model.AffinitySource.text : Model.AffinitySource → GoString
  | .requestID => "request_id"
  | .idempotencyKey => "idempotency_key"
  | .header => "header"
  | .other text => text

def ServingAuth.Mode.text : ServingAuth.Mode → GoString
  | .normal => "normal"
  | .drainOnly => "drain-only"
  | .other text => text

namespace Discovery

open Problem Digest Model ServingAuth

def servingSchemaVersion : GoString := "minicloud-serving-v1"
def servingChecksumDomain : GoString := "serving-snapshot"
def servingChecksumVersion : GoString := "v1"
def hardMaxEndpoints : Nat := 1000
def maxEndpointAddressBytes : Nat := 512

inductive AuthPolicy where
  | «public»
  | token
  | other (text : GoString)
  deriving DecidableEq

def AuthPolicy.text : AuthPolicy → GoString
  | .public => "public"
  | .token => "token"
  | .other text => text

/-- `Ready` is the only state a Gateway is told of. -/
inductive EndpointState where
  | ready
  | other (text : GoString)
  deriving DecidableEq

def EndpointState.text : EndpointState → GoString
  | .ready => "Ready"
  | .other text => text

/-- Why a candidate is left out. -/
inductive ExclusionReason where
  | functionNotActive
  | triggerDisabled
  | routeDisabled
  | invalidAssignment
  | assignmentNotAssigned
  | authorizationNotInstalled
  | authorizationMismatch
  | assignmentModeNotNormal
  | invalidWorkerObservation
  | workerSessionMismatch
  | workerNotSchedulable
  | workerNotReady
  | workerDraining
  | replicaNotReady
  | routeTargetMissing
  | admissionEpochMismatch
  | deploymentGenerationMismatch
  | policyDigestMismatch
  | invalidAddress
  deriving DecidableEq

/-! ## Projections -/

/-- The serving-safe Function projection. -/
structure Function where
  id : GoString
  name : GoString
  resourceRevision : UInt64
  lifecycle : FunctionLifecycle
  deriving DecidableEq

structure HTTPTrigger where
  id : GoString
  functionID : GoString
  resourceRevision : UInt64
  enabled : Bool
  authPolicy : AuthPolicy
  tokenVerifierDigest : Option SHA256
  deriving DecidableEq

/-- The routing projection; `present = false` is a Function without a published Route. -/
structure Route where
  present : Bool
  functionID : GoString
  resourceRevision : UInt64
  routeRevision : UInt64
  enabled : Bool
  targets : List RouteTarget
  affinity : AffinitySource
  affinityHeader : GoString
  hashVersion : GoString
  saltID : GoString
  salt : GoString
  deriving DecidableEq

structure Endpoint where
  assignment : AssignmentIdentity
  address : GoString
  state : EndpointState
  deriving DecidableEq

/-- One atomic Function-scoped serving view. -/
structure Snapshot where
  schemaVersion : GoString
  functionID : GoString
  discoveryEpoch : UInt64
  servingSequence : UInt64
  generatedAt : Time
  function : Function
  trigger : HTTPTrigger
  route : Route
  /-- `none` is the nil slice. -/
  endpoints : Option (List Endpoint)
  checksum : SHA256
  deriving DecidableEq

/-- The endpoints a loop over the slice visits. -/
def Snapshot.endpointList (s : Snapshot) : List Endpoint := s.endpoints.getD []

/-! ## Validation -/

/-- `^[A-Za-z0-9.-]{1,253}$`. -/
def hostnamePattern (s : GoString) : Bool :=
  Text.matchClass (fun b => Text.isLetter b || Text.isDigit b || Text.oneOf ".-" b) 1 253 s

/-- One label of a host name. -/
def validLabel (label : GoString) : Bool :=
  label != [] && label.length ≤ 63 && label.head? != some '-'.toUInt8 &&
    label.getLast? != some '-'.toUInt8

def validEndpointAddress (address : GoString) : Bool :=
  if address == [] || maxEndpointAddressBytes < address.length || !Text.validUTF8 address ||
      !Net.isTrimmed address then false
  else
    match Net.splitHostPort address with
    | none => false
    | some (host, portText) =>
      if host == [] then false
      else
        match Net.parseUint 16 portText with
        | none => false
        | some port =>
          if port = 0 then false
          else if Net.isAddr host then true
          else hostnamePattern host && (host.splitOn Net.bDot).all validLabel

def Endpoint.validate (e : Endpoint) : Validation :=
  checks [
    mustNot (!e.assignment.validate.isOk) "endpoint.assignment"
      "contains an invalid Assignment fence",
    mustNot (e.assignment.mode != .normal || e.state != .ready) "endpoint"
      "is not a normal ready Endpoint",
    mustNot (!validEndpointAddress e.address) "endpoint.address"
      "is not a valid internal address"]

def Snapshot.validateHeader (s : Snapshot) : Validation :=
  checks [
    mustNot (s.schemaVersion != servingSchemaVersion) "schema_version" "is not supported",
    mustNot (!identifierPattern s.functionID) "function_id" "must be a valid identifier",
    mustNot (s.discoveryEpoch == 0) "discovery_epoch" "must be greater than zero",
    mustNot (s.servingSequence == 0) "serving_sequence" "must be greater than zero",
    mustNot (s.generatedAt.isZero || !s.generatedAt.isUTC) "generated_at"
      "must be a non-zero UTC time"]

def Function.validate (f : Function) : Validation :=
  checks [
    mustNot (!identifierPattern f.id || !functionNamePattern f.name) "function"
      "contains an invalid ID or name",
    mustNot (f.resourceRevision == 0) "function.resource_revision" "must be greater than zero",
    mustNot (!f.lifecycle.valid) "function.lifecycle" "is not supported"]

def HTTPTrigger.validateAuth (t : HTTPTrigger) : Validation :=
  match t.authPolicy with
  | .public =>
    checks [
      mustNot t.tokenVerifierDigest.isSome "http_trigger.token_verifier_digest"
        "must be absent for public auth"]
  | .token =>
    match t.tokenVerifierDigest with
    | none => .error (invalid "http_trigger.token_verifier_digest" "is required for token auth")
    | some verifier =>
      checks [
        mustNot (!encodedPattern verifier) "http_trigger.token_verifier_digest"
          "must be a lowercase SHA-256 digest"]
  | .other _ => .error (invalid "http_trigger.auth_policy" "is not supported")

def HTTPTrigger.validate (t : HTTPTrigger) (functionID : GoString) : Validation := do
  checks [
    mustNot (!identifierPattern t.id || t.functionID != functionID) "http_trigger"
      "contains an invalid ID or Function reference",
    mustNot (t.resourceRevision == 0) "http_trigger.resource_revision" "must be greater than zero"]
  t.validateAuth

/-- What an absent Route must look like. -/
def Route.isBlank (r : Route) : Bool :=
  r.resourceRevision == 0 && r.routeRevision == 0 && !r.enabled && r.targets == [] &&
    r.affinity == .other "" && r.affinityHeader == [] && r.hashVersion == [] && r.saltID == [] &&
    r.salt == []

def Route.validateAffinity (r : Route) : Validation :=
  match r.affinity with
  | .requestID | .idempotencyKey =>
    checks [
      mustNot (r.affinityHeader != []) "route.affinity_header" "is only valid for header affinity"]
  | .header =>
    checks [
      mustNot (!Text.validUTF8 r.affinityHeader || !httpTokenPattern r.affinityHeader)
        "route.affinity_header" "is required for header affinity"]
  | .other _ => .error (invalid "route.affinity" "is not supported")

def validateTarget (t : RouteTarget) : Validation :=
  checks [
    mustNot (!identifierPattern t.versionID || t.admissionEpoch == 0 ||
        t.deploymentGeneration == 0 || t.weightBasisPoints == 0 ||
        totalRouteWeightBasisPoints < t.weightBasisPoints) "route.targets"
      "contains an invalid target",
    mustNot (!encodedPattern t.effectivePolicyDigest) "route.targets"
      "contains an invalid policy digest"]

def Route.validate (r : Route) (functionID : GoString) : Validation := do
  checks [
    mustNot (r.functionID != functionID) "route.function_id" "must match the snapshot Function"]
  if !r.present then
    checks [mustNot (!r.isBlank) "route" "an absent Route must contain only its Function ID"]
  else
    checks [
      mustNot (r.resourceRevision == 0 || r.routeRevision == 0) "route.revision"
        "resource and Route revisions must be greater than zero",
      mustNot (maxRouteTargets < r.targets.length) "route.targets"
        "must not contain more than 32 entries",
      mustNot (r.enabled == (r.targets == [])) "route.targets"
        "must be non-empty exactly when the Route is enabled",
      mustNot (r.hashVersion != hashVersionSHA256BPSV1 || !identifierPattern r.saltID ||
          r.salt.length != 16) "route.hash" "contains an unsupported hash profile or Salt"]
    r.validateAffinity
    checkEach validateTarget RouteTarget.key (invalid "route.targets" "contains a duplicate target")
      [] r.targets
    checks [
      mustNot (r.targets != [] && totalWeight r.targets != totalRouteWeightBasisPoints)
        "route.targets" "weights must total 10000 basis points"]

def compareRouteTargets : RouteTarget → RouteTarget → Ordering :=
  compareLex (compareOn RouteTarget.versionID) (compareOn RouteTarget.deploymentGeneration)

def compareEndpointIdentity : AssignmentIdentity → AssignmentIdentity → Ordering :=
  compareLex (compareOn AssignmentIdentity.versionID) <|
  compareLex (compareOn AssignmentIdentity.deploymentGeneration) <|
  compareLex (compareOn AssignmentIdentity.assignmentID) <|
  compareLex (compareOn fun a => a.worker.workerID) <|
  compareLex (compareOn fun a => a.worker.bootID) (compareOn fun a => a.worker.sessionEpoch)

def compareEndpoints (left right : Endpoint) : Ordering :=
  compareEndpointIdentity left.assignment right.assignment

def routeMismatchReasons (targets : List RouteTarget) (assignment : AssignmentIdentity) :
    List ExclusionReason :=
  let versions := targets.filter fun t => t.versionID = assignment.versionID
  if versions = [] then [.routeTargetMissing]
  else
    match versions.find? fun t => t.deploymentGeneration = assignment.deploymentGeneration with
    | none => [.deploymentGenerationMismatch]
    | some target =>
      (if target.admissionEpoch ≠ assignment.admissionEpoch then [.admissionEpochMismatch] else []) ++
      (if target.effectivePolicyDigest ≠ assignment.policyDigest then [.policyDigestMismatch]
        else [])

/-! ## Checksum -/

def Function.toJSON (f : Function) : Json Json.Num :=
  .obj [
    ("id", .ofGoString f.id),
    ("name", .ofGoString f.name),
    ("resource_revision", .ofNat f.resourceRevision.toNat),
    ("lifecycle", .ofGoString f.lifecycle.text)]

/-- A member with `omitempty`. -/
def omitEmpty (key : GoString) (value : Option GoString) : List (GoString × Json Json.Num) :=
  value.toList.map fun text => (key, .ofGoString text)

def HTTPTrigger.toJSON (t : HTTPTrigger) : Json Json.Num :=
  let members : List (GoString × Json Json.Num) := [
    ("id", .ofGoString t.id),
    ("function_id", .ofGoString t.functionID),
    ("resource_revision", .ofNat t.resourceRevision.toNat),
    ("enabled", .bool t.enabled),
    ("auth_policy", .ofGoString t.authPolicy.text)]
  .obj (members ++ omitEmpty "token_verifier_digest" t.tokenVerifierDigest)

def targetJSON (t : RouteTarget) : Json Json.Num :=
  .obj [
    ("version_id", .ofGoString t.versionID),
    ("admission_epoch", .ofNat t.admissionEpoch.toNat),
    ("deployment_generation", .ofNat t.deploymentGeneration.toNat),
    ("effective_policy_digest", .ofGoString t.effectivePolicyDigest),
    ("weight_basis_points", .ofNat t.weightBasisPoints.toNat)]

def Route.toJSON (r : Route) : Json Json.Num :=
  let members : List (GoString × Json Json.Num) := [
    ("present", .bool r.present),
    ("function_id", .ofGoString r.functionID),
    ("resource_revision", .ofNat r.resourceRevision.toNat),
    ("route_revision", .ofNat r.routeRevision.toNat),
    ("enabled", .bool r.enabled),
    ("targets", .arr (r.targets.map targetJSON)),
    ("affinity_source", .ofGoString r.affinity.text)]
  let hashMembers : List (GoString × Json Json.Num) := [
    ("hash_version", .ofGoString r.hashVersion),
    ("salt_id", .ofGoString r.saltID),
    ("salt", .ofBytes r.salt)]
  let header := if r.affinityHeader = [] then none else some r.affinityHeader
  .obj (members ++ omitEmpty "affinity_header" header ++ hashMembers)

/-- `canonicalEndpointV1`. -/
def Endpoint.canonical (e : Endpoint) : Json Json.Num :=
  .obj [
    ("assignment_id", .ofGoString e.assignment.assignmentID),
    ("version_id", .ofGoString e.assignment.versionID),
    ("admission_epoch", .ofNat e.assignment.admissionEpoch.toNat),
    ("deployment_generation", .ofNat e.assignment.deploymentGeneration.toNat),
    ("effective_policy_digest", .ofGoString e.assignment.policyDigest),
    ("mode", .ofGoString e.assignment.mode.text),
    ("worker_id", .ofGoString e.assignment.worker.workerID),
    ("boot_id", .ofGoString e.assignment.worker.bootID),
    ("session_epoch", .ofNat e.assignment.worker.sessionEpoch.toNat),
    ("address", .ofGoString e.address),
    ("state", .ofGoString e.state.text)]

/-- `canonicalSnapshotV1`: every field but the checksum itself. -/
def Snapshot.canonical (s : Snapshot) : Json Json.Num :=
  .obj [
    ("schema_version", .ofGoString s.schemaVersion),
    ("function_id", .ofGoString s.functionID),
    ("discovery_epoch", .ofNat s.discoveryEpoch.toNat),
    ("serving_sequence", .ofNat s.servingSequence.toNat),
    ("generated_at", .ofGoString s.generatedAt.format),
    ("function", s.function.toJSON),
    ("http_trigger", s.trigger.toJSON),
    ("route", s.route.toJSON),
    ("endpoints", .arr (s.endpointList.map Endpoint.canonical))]

def calculateChecksum (s : Snapshot) : Except GoError SHA256 :=
  canonicalJSON servingChecksumDomain servingChecksumVersion s.canonical

/-- One pass of the loop over the endpoints, up to the duplicate test. -/
def Snapshot.validateEndpoints (s : Snapshot) : List GoString → List Endpoint → Validation
  | _, [] => .ok ()
  | seen, e :: rest => do
    e.validate
    checks [
      mustNot (e.assignment.assignmentID ∈ seen) "endpoints.assignment_id"
        "contains a duplicate Assignment ID",
      mustNot (routeMismatchReasons s.route.targets e.assignment != []) "endpoints"
        "contains an Endpoint outside the Route target fence"]
    s.validateEndpoints (e.assignment.assignmentID :: seen) rest

/-- Whether the Function may have endpoints at all. -/
def Snapshot.serving (s : Snapshot) : Bool :=
  s.function.lifecycle == .active && s.trigger.enabled && s.route.present && s.route.enabled

def Snapshot.validate (s : Snapshot) : Validation := do
  s.validateHeader
  s.function.validate
  checks [
    mustNot (s.functionID != s.function.id) "function_id" "must match the Function projection"]
  s.trigger.validate s.functionID
  s.route.validate s.functionID
  checks [
    mustNot (hardMaxEndpoints < s.endpointList.length) "endpoints" "exceeds the v1 endpoint limit",
    mustNot s.endpoints.isNone "endpoints" "must be an explicit array",
    mustNot (!isSortedFunc compareRouteTargets s.route.targets) "route.targets"
      "must use canonical target order",
    mustNot (!isSortedFunc compareEndpoints s.endpointList) "endpoints"
      "must use canonical endpoint order",
    mustNot (s.endpointList != [] && !s.serving) "endpoints"
      "must be empty when serving is disabled"]
  s.validateEndpoints [] s.endpointList
  checks [
    mustNot (!encodedPattern s.checksum) "checksum" "must be a lowercase SHA-256 digest"]
  let want ← calculateChecksum s
  checks [
    mustNot (s.checksum != want) "checksum" "does not match the complete serving snapshot"]

end Discovery

end MiniCloud
