import MiniCloud.Discovery.Snapshot
import MiniCloud.Lib.Machine

/-!
# The endpoint balancer

`internal/gatewayroute/balancer.go`: with the Route target fixed, one Endpoint of exactly that
target is chosen, the one with the fewest invocations in flight. A Lease points to a release
state shared by all its copies; the states live in a list and a pointer is a position in it, so
that a call of `Release` is about a pointer, copied or not.

`Acquire` reads its arguments before it takes the mutex and touches the balancer only under it;
the body of `Release` runs once under the mutex. Each is one step.
-/

namespace MiniCloud.GatewayRoute

open Lib Problem Digest Model ServingAuth Discovery

/-- What a round-robin cursor belongs to. -/
structure TargetKey where
  functionID : GoString
  versionID : GoString
  generation : UInt64
  deriving DecidableEq

structure Balancer where
  inflight : GoMap AssignmentIdentity UInt64
  roundRobin : GoMap TargetKey UInt64

/-- `sync.Once` and the identity it is to release. -/
structure ReleaseState where
  identity : AssignmentIdentity
  done : Bool
  deriving DecidableEq

/-- One selected Endpoint; the zero Lease has no state. -/
structure Lease where
  endpoint : Endpoint
  state : Option Nat
  deriving DecidableEq

def Balancer.new : Balancer := ⟨∅, ∅⟩

/-- `b.inflight[identity]`, zero where the map has no entry. -/
def Balancer.inflightOf (b : Balancer) (identity : AssignmentIdentity) : UInt64 :=
  (b.inflight.get? identity).getD 0

def Balancer.cursor (b : Balancer) (key : TargetKey) : UInt64 := (b.roundRobin.get? key).getD 0

def validateTarget (t : RouteTarget) : Validation :=
  checks [
    mustNot (!identifierPattern t.versionID) "route_target.version_id"
      "must be a valid identifier",
    mustNot (t.admissionEpoch == 0 || t.deploymentGeneration == 0 || t.weightBasisPoints == 0 ||
        totalRouteWeightBasisPoints < t.weightBasisPoints) "route_target"
      "contains an invalid epoch, generation, or weight",
    mustNot (!encodedPattern t.effectivePolicyDigest) "route_target.effective_policy_digest"
      "must be a lowercase SHA-256 digest"]

/-- The Endpoints that serve a target. -/
def serves (target : RouteTarget) (endpoint : Endpoint) : Bool :=
  endpoint.state == .ready && endpoint.assignment.mode == .normal &&
    endpoint.assignment.versionID == target.versionID &&
    endpoint.assignment.admissionEpoch == target.admissionEpoch &&
    endpoint.assignment.deploymentGeneration == target.deploymentGeneration &&
    endpoint.assignment.policyDigest == target.effectivePolicyDigest

/-- The loop over the Endpoints. One that is invalid fails the call even if it serves another
target. -/
def eligibleFrom (target : RouteTarget) : List GoString → List Endpoint →
    Except GoError (List Endpoint)
  | _, [] => .ok []
  | seen, endpoint :: rest => do
    endpoint.validate
    if !serves target endpoint then eligibleFrom target seen rest
    else if seen.contains endpoint.assignment.assignmentID then
      throw (invalid "endpoints" "contains a duplicate Assignment ID")
    else
      let more ← eligibleFrom target (endpoint.assignment.assignmentID :: seen) rest
      return endpoint :: more

def compareEndpoints : Endpoint → Endpoint → Ordering :=
  compareOn fun e => e.assignment.assignmentID

/-- What `Acquire` has computed when it takes the mutex. -/
def eligible (functionID : GoString) (target : RouteTarget) (endpoints : List Endpoint) :
    Except GoError (List Endpoint) := do
  checks [mustNot (!identifierPattern functionID) "function_id" "must be a valid identifier"]
  validateTarget target
  let found ← eligibleFrom target [] endpoints
  if found.length == 0 then
    throw (classified .noReadyReplica "selected Route target has no ready Endpoint")
  return sortFunc compareEndpoints found

def targetKey (functionID : GoString) (target : RouteTarget) : TargetKey :=
  ⟨functionID, target.versionID, target.deploymentGeneration⟩

/-- The least occupancy among the Endpoints, the first of them given apart. -/
def Balancer.minimum (b : Balancer) (first : Endpoint) (rest : List Endpoint) : UInt64 :=
  rest.foldl (fun least e => min least (b.inflightOf e.assignment)) (b.inflightOf first.assignment)

def Balancer.tied (b : Balancer) : List Endpoint → List Endpoint
  | [] => []
  | first :: rest =>
    (first :: rest).filter fun e => b.inflightOf e.assignment == b.minimum first rest

/-- The critical section: one of the tied Endpoints, by the cursor of the target. -/
def Balancer.choose (b : Balancer) (key : TargetKey) (endpoints : List Endpoint) :
    Except GoError (Endpoint × Balancer) :=
  match (b.tied endpoints)[(b.cursor key).toNat % (b.tied endpoints).length]? with
  | none => .error (.crash "index out of range")
  | some chosen =>
    .ok (chosen,
      ⟨b.inflight.set chosen.assignment (b.inflightOf chosen.assignment + 1),
        b.roundRobin.set key (b.cursor key + 1)⟩)

/-- The body of `Release` that runs once. -/
def Balancer.release (b : Balancer) (identity : AssignmentIdentity) : Balancer :=
  if b.inflightOf identity ≤ 1 then { b with inflight := b.inflight.delete identity }
  else { b with inflight := b.inflight.set identity (b.inflightOf identity - 1) }

/-! ## Calls -/

/-- A balancer with the release states of the Leases it has handed out, oldest first. -/
structure State where
  balancer : Balancer
  states : List ReleaseState

def State.new : State := ⟨Balancer.new, []⟩

/-- `Acquire`, and `Release` of a Lease by its release state. -/
inductive Call where
  | acquire (functionID : GoString) (target : RouteTarget) (endpoints : List Endpoint)
  | release (state : Option Nat)

def State.acquire (s : State) (functionID : GoString) (target : RouteTarget)
    (endpoints : List Endpoint) : Except GoError Lease × State :=
  match eligible functionID target endpoints with
  | .error err => (.error err, s)
  | .ok found =>
    match s.balancer.choose (targetKey functionID target) found with
    | .error err => (.error err, s)
    | .ok (chosen, balancer) =>
      (.ok ⟨chosen, some s.states.length⟩, ⟨balancer, s.states ++ [⟨chosen.assignment, false⟩]⟩)

def State.release (s : State) (state : Option Nat) : State :=
  match state with
  | none => s
  | some pointer =>
    match s.states[pointer]? with
    | none => s
    | some r =>
      if r.done then s
      else ⟨s.balancer.release r.identity, s.states.set pointer ⟨r.identity, true⟩⟩

/-- Every call is atomic; `Release` has no result. -/
def machine : Machine State Call (Option (Except GoError Lease)) where
  step s
    | .acquire functionID target endpoints =>
      (some (s.acquire functionID target endpoints).1, (s.acquire functionID target endpoints).2)
    | .release state => (none, s.release state)

/-- The number of release states of an identity that have not been used. -/
def unreleased (states : List ReleaseState) (identity : AssignmentIdentity) : Nat :=
  states.countP fun r => r.identity == identity && !r.done

/-- The Leases on an identity that have not been released. -/
def State.outstanding (s : State) (identity : AssignmentIdentity) : Nat :=
  unreleased s.states identity

end MiniCloud.GatewayRoute
