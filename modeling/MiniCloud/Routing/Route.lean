import MiniCloud.Lib.BigEndian
import MiniCloud.Model.ServingRoute

/-!
# Route selection

`internal/routing`: the deterministic weighted selector. A request's affinity key is hashed together
with the identity of the route, the hash gives one of 10000 buckets, and the bucket falls into the
interval of one target.
-/

namespace MiniCloud.Routing

open Lib Problem Digest Model

def lengthPrefixBytes : Nat := 4
/-- `math.MaxUint32`. -/
def maxUint32 : Nat := 4294967295
/-- `math.MaxInt` of a 64-bit platform. -/
def maxInt : Nat := 9223372036854775807

/-- The reproducible result of selecting one target. -/
structure Decision where
  digest : SHA256
  bucket : UInt32
  target : RouteTarget
  deriving DecidableEq

def hashFields (route : ServingRoute) (affinityKey : GoString) : List GoString := [
  hashVersionSHA256BPSV1,
  route.functionID,
  bigEndian 8 route.routeRevision.toNat,
  route.salt,
  affinityKey]

/-- Five fields below 4 GiB stay far below the range of the `uint64` they are counted in. -/
def hashPreimage (route : ServingRoute) (affinityKey : GoString) : Except GoError GoString := do
  let fields := hashFields route affinityKey
  checks (fields.map fun field =>
    mustNot (maxUint32 < field.length) "route_hash_input"
      "field exceeds the v1 length-prefix limit")
  let totalBytes := (fields.map fun field => lengthPrefixBytes + field.length).sum
  checks [mustNot (maxInt < totalBytes) "route_hash_input"
    "fields exceed the platform input limit"]
  return fields.flatMap (frame lengthPrefixBytes)

/-- The high word of `u * 10000`, where `u` is what the first eight bytes spell. -/
def bucketFromHash (hash : GoString) : UInt32 :=
  UInt32.ofNat (ofBigEndian (hash.take 8) * totalRouteWeightBasisPoints.toNat / 2 ^ 64)

/-- The loop over the targets, behind the weights it has summed. -/
def targetForBucketFrom (bucket cumulative : UInt32) : List RouteTarget → Option RouteTarget
  | [] => none
  | target :: rest =>
    if bucket < cumulative + target.weightBasisPoints then some target
    else targetForBucketFrom bucket (cumulative + target.weightBasisPoints) rest

def targetForBucket (targets : List RouteTarget) (bucket : UInt32) : Option RouteTarget :=
  targetForBucketFrom bucket 0 targets

def compareTargets : RouteTarget → RouteTarget → Ordering :=
  compareLex (compareOn RouteTarget.versionID) (compareOn RouteTarget.deploymentGeneration)

/-- The unexported `selectServing`, behind the validation of its callers. -/
def selectValidated (route : ServingRoute) (affinityKey : GoString) : Except GoError Decision := do
  checks [⟨!route.enabled, .problem ⟨.functionDisabled, "route is disabled", ""⟩⟩]
  let preimage ← hashPreimage route affinityKey
  let bucket := bucketFromHash (Sha256.hash preimage)
  match targetForBucket (sortFunc compareTargets route.targets) bucket with
  | some target => return ⟨scheme ++ Sha256.hex (Sha256.hash preimage), bucket, target⟩
  | none => throw (.text "routing: validated target intervals do not cover bucket")

def select (route : Route) (affinityKey : GoString) : Except GoError Decision := do
  route.validate
  selectValidated route.servingRoute affinityKey

def selectServing (route : ServingRoute) (affinityKey : GoString) : Except GoError Decision := do
  route.validate
  selectValidated route affinityKey

end MiniCloud.Routing
