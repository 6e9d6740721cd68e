import MiniCloud.Digest
import MiniCloud.Model.Function

/-!
# Routes

`internal/model/route.go`: one complete routing snapshot of a Function. The weights of a route
are summed in `uint32`, as in the source; at most 32 targets of at most 10000 basis points each
stay far below its range.
-/

namespace MiniCloud.Model

open Lib Problem Digest

def totalRouteWeightBasisPoints : UInt32 := 10000
def maxRouteTargets : Nat := 32
def hashVersionSHA256BPSV1 : GoString := "sha256-bps-v1"

/-- An HTTP token byte: letters, digits and the fifteen marks of the grammar. -/
def isTokenByte (b : UInt8) : Bool :=
  Text.isLetter b || Text.isDigit b || Text.oneOf "!#$%&'*+.^_`|~-" b

def httpTokenPattern (s : GoString) : Bool := s != [] && s.all isTokenByte

/-- The stable input used by Route hashing. -/
inductive AffinitySource where
  | requestID
  | idempotencyKey
  | header
  | other (text : GoString)
  deriving DecidableEq

instance : Inhabited AffinitySource := ⟨.other ""⟩

/-- One admitted execution-policy generation and its share of the traffic. -/
structure RouteTarget where
  versionID : GoString
  admissionEpoch : UInt64
  deploymentGeneration : UInt64
  effectivePolicyDigest : SHA256
  weightBasisPoints : UInt32
  deriving DecidableEq, Inhabited

structure Route extends Metadata where
  functionID : GoString
  routeRevision : UInt64
  targets : List RouteTarget
  affinity : AffinitySource
  affinityHeader : GoString
  hashVersion : GoString
  saltID : GoString
  salt : GoString
  enabled : Bool
  deriving DecidableEq, Inhabited

def RouteTarget.key (t : RouteTarget) : GoString :=
  t.versionID ++ [0] ++ Text.decimal t.deploymentGeneration.toNat

def RouteTarget.validate (t : RouteTarget) : Validation :=
  checks [
    mustNot (!idPattern t.versionID) "targets" "contains an invalid version_id",
    mustNot (t.admissionEpoch == 0 || t.deploymentGeneration == 0) "targets"
      "contains a zero epoch or generation",
    mustNot (!encodedPattern t.effectivePolicyDigest) "targets"
      "contains an invalid policy digest",
    mustNot (t.weightBasisPoints == 0 || totalRouteWeightBasisPoints < t.weightBasisPoints)
      "targets" "contains an invalid weight"]

def totalWeight (targets : List RouteTarget) : UInt32 :=
  targets.foldl (fun total t => total + t.weightBasisPoints) 0

def validateRouteTargets (targets : List RouteTarget) : Validation := do
  checkEach RouteTarget.validate RouteTarget.key
    (invalid "targets" "contains a duplicate target") [] targets
  checks [
    mustNot (targets != [] && totalWeight targets != totalRouteWeightBasisPoints) "targets"
      "weights must total 10000 basis points"]

def Route.validateAffinity (r : Route) : Validation :=
  match r.affinity with
  | .requestID | .idempotencyKey =>
    checks [
      mustNot (r.affinityHeader != []) "affinity_header" "is only valid for header affinity"]
  | .header =>
    checks [
      mustNot (!httpTokenPattern r.affinityHeader) "affinity_header"
        "must be a valid HTTP field name"]
  | .other _ => .error (invalid "affinity_source" "is not supported")

def Route.validate (r : Route) : Validation := do
  r.toMetadata.validate
  checks [
    mustNot (!idPattern r.functionID) "function_id" "must be a valid identifier",
    mustNot (r.routeRevision == 0) "route_revision" "must be greater than zero",
    mustNot (maxRouteTargets < r.targets.length) "targets"
      "must not contain more than 32 entries",
    mustNot (!r.enabled && r.targets != []) "targets" "must be empty when the route is disabled",
    mustNot (r.enabled && r.targets == []) "targets" "must not be empty when the route is enabled"]
  validateRouteTargets r.targets
  r.validateAffinity
  checks [
    mustNot (r.hashVersion != hashVersionSHA256BPSV1) "hash_version" "is not supported",
    mustNot (!idPattern r.saltID) "salt_id" "must be a valid identifier",
    mustNot (r.salt.length != 16) "salt" "must contain exactly 128 bits"]

/-- The P0 single-target feature gate. -/
def Route.validateCore (r : Route) : Validation := do
  r.validate
  checks [
    mustNot (r.enabled && r.targets.length != 1) "targets"
      "core mode requires exactly one target"]

/-- An enabled Core route has one target. -/
theorem Route.targets_of_core {r : Route} (h : r.validateCore = .ok ()) (he : r.enabled = true) :
    ∃ t, r.targets = [t] := by
  have hc := checks_ok.mp (seq_ok.mp h).2
  simp [he] at hc
  exact List.length_eq_one_iff.mp hc

theorem Route.routeRevision_ne_zero {r : Route} (h : r.validateCore = .ok ()) :
    r.routeRevision ≠ 0 := by
  have hc := checks_ok.mp (seq_ok.mp (seq_ok.mp (seq_ok.mp h).1).2).1
  simp at hc
  exact hc.2.1

end MiniCloud.Model
