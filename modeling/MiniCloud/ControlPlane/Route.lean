import MiniCloud.ControlPlane.Release

/-!
# Routes

`internal/controlplane/route.go`. `Publish` holds the mutexes of all three stores, so it is one
step on the catalog and the routes that reads the releases; `ServingStates` is one read of all
three.
-/

namespace MiniCloud.ControlPlane

open Lib Problem Digest Model

def maxUint64 : UInt64 := 0xffffffffffffffff

structure PublishRouteCommand where
  functionID : GoString
  expectedActiveRouteRevision : UInt64
  route : Route
  updatedAt : Time
  appliedIndex : UInt64

/-- The current Route of each Function, and every Route id ever used. -/
structure RouteStore where
  routes : GoMap GoString Route
  routeIDs : GoMap GoString Unit
  deriving DecidableEq

def newRouteStore : RouteStore := ⟨∅, ∅⟩

/-- One complete input to a serving snapshot. -/
structure ServingState where
  function : Function
  trigger : HTTPTrigger
  route : Option Route
  version : Option Version
  deployment : Option Deployment

def validatePublishRoute (command : PublishRouteCommand) : Validation := do
  let route := command.route
  checks [
    mustNot (!identifierPattern command.functionID || route.functionID != command.functionID)
      "function_id" "must match a valid route function id",
    mustNot (command.appliedIndex == 0) "applied_index" "must be greater than zero"]
  validateUTC "updated_at" command.updatedAt
  route.validateCore
  checks [
    mustNot (route.createdRaftIndex != command.appliedIndex || route.resourceRevision != 1 ||
        !route.createdAt.equal command.updatedAt || !route.updatedAt.equal command.updatedAt)
      "route" "must be a new immutable snapshot from this command"]

/-- `route.Targets[0]`, a panic on an empty slice. -/
def firstTarget (route : Route) : Except GoError RouteTarget :=
  match route.targets with
  | [] => .error (.crash "index out of range [0] with length 0")
  | target :: _ => .ok target

/-- The stored Version is one a Route of `function` may send traffic to. -/
def readyVersionFor (function : Function) (target : RouteTarget) (version : Version) : Bool :=
  version.functionID == function.id && version.state == .ready &&
    version.admissionEpoch == target.admissionEpoch

def activeDeploymentFor (target : RouteTarget) (deployment : Deployment) : Bool :=
  deployment.generation == target.deploymentGeneration && deployment.desiredPhase == .active &&
    deployment.effectivePolicyDigest == target.effectivePolicyDigest

def validateReadyTargetLocked (releases : ReleaseStore) (route : Route) (function : Function) :
    Validation := do
  let target ← firstTarget route
  checks [
    ⟨!(releases.versions.get? target.versionID).any (readyVersionFor function target),
      classified .conflict "route target is not a ready version for this function"⟩,
    ⟨!(releases.deployments.get? target.versionID).any (activeDeploymentFor target),
      classified .conflict "route target does not match an active deployment policy"⟩]

/-- The Function once the command's Route is its current one. -/
def routedFunction (function : Function) (command : PublishRouteCommand) : Function :=
  { function with
    activeRouteRevision := command.route.routeRevision
    updatedAt := command.updatedAt
    resourceRevision := function.resourceRevision + 1 }

/-- Replace one Function's Route and advance its route pointer. -/
def RouteStore.publish (releases : ReleaseStore) (command : PublishRouteCommand) :
    Op GoError (Catalog × RouteStore) (Route × Function) := do
  Op.ofExcept (validatePublishRoute command)
  let (catalog, s) ← get
  let route := command.route
  let function ← Op.orFail (catalog.functionsByID.get? command.functionID)
    (classified .notFound "function was not found")
  Op.failIf (command.expectedActiveRouteRevision != function.activeRouteRevision)
    (revisionConflict "active_route_revision" command.expectedActiveRouteRevision
      function.activeRouteRevision)
  Op.failIf (function.activeRouteRevision == maxUint64 || function.resourceRevision == maxUint64)
    (classified .conflict "function revision space is exhausted")
  Op.failIf (route.routeRevision != function.activeRouteRevision + 1)
    (invalid "route.route_revision" "must advance the active route revision by one")
  Op.failIf (command.updatedAt.before function.updatedAt)
    (invalid "updated_at" "must not precede the current function update time")
  Op.failIf (s.routeIDs.get? route.id).isSome
    (classified .conflict "route id was already used")
  Op.failIf (route.enabled && function.lifecycle != .active)
    (classified .conflict "only an active function may publish an enabled route")
  Op.ofExcept (if route.enabled then validateReadyTargetLocked releases route function else .ok ())
  let updated := routedFunction function command
  Op.ofExcept updated.validate
  set (({ catalog with functionsByID := catalog.functionsByID.set updated.id updated } : Catalog),
    ({ routes := s.routes.set updated.id route, routeIDs := s.routeIDs.set route.id () } :
      RouteStore))
  return (route, updated)

/-- The current Route of one Function. -/
def RouteStore.get (s : RouteStore) (functionID : GoString) : Except GoError Route := do
  checks [mustNot (!identifierPattern functionID) "function_id" "must be a valid identifier"]
  match s.routes.get? functionID with
  | none => .error (classified .notFound "route was not found")
  | some route => .ok route

/-- One pass of the loop of `ServingStates`. -/
def servingState (catalog : Catalog) (releases : ReleaseStore) (s : RouteStore)
    (function : Function) : Except GoError ServingState := do
  let triggerID ← orError (catalog.triggerIDByFunc.get? function.id)
    (.text "catalog invariant: function has no default HTTP trigger")
  let trigger ← orError (catalog.triggersByID.get? triggerID)
    (.text "catalog invariant: default HTTP trigger was not found")
  match s.routes.get? function.id with
  | none =>
    checks [⟨function.activeRouteRevision != 0,
      .text "route store invariant: function active route is missing"⟩]
    return ⟨function, trigger, none, none, none⟩
  | some route =>
    checks [⟨route.routeRevision != function.activeRouteRevision,
      .text "route store invariant: route revision does not match function"⟩]
    wrapping "route store invariant: validating persisted route" route.validateCore
    if route.enabled then
      wrapping "route store invariant: validating ready target"
        (validateReadyTargetLocked releases route function)
      let target ← firstTarget route
      let version ← orError (releases.versions.get? target.versionID)
        (.text "route store invariant: ready route version was not found")
      let deployment ← orError (releases.deployments.get? target.versionID)
        (.text "route store invariant: ready route deployment was not found")
      return ⟨function, trigger, some route, some version, some deployment⟩
    else
      return ⟨function, trigger, some route, none, none⟩

/-- A consistent aggregate read of the three stores, ordered by creation position. -/
def servingStates (catalog : Catalog) (releases : ReleaseStore) (s : RouteStore) :
    Except GoError (List ServingState) := do
  let states ← catalog.functionsByID.toList.mapM
    fun (_, function) => servingState catalog releases s function
  return sortFunc (fun a b => compareFunction a.function b.function) states

end MiniCloud.ControlPlane
