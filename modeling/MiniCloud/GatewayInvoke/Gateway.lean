import MiniCloud.Abi.Envelope
import MiniCloud.GatewayDiscovery.Store
import MiniCloud.GatewayRoute.Balancer
import MiniCloud.Routing.Route
import MiniCloud.ServingAuth.Gate

/-!
# The gateway's invocation coordinator

`internal/gatewayinvoke/gateway.go`: one serving view is read, one Route target and one Endpoint
are chosen from it, and the invocation goes to the Worker at that Endpoint with the fence of the
view. The resolver and the Workers behind it are outside, so a call is given what they answer; what
it hands to a Worker is part of its answer.
-/

namespace MiniCloud.GatewayInvoke

open Lib Problem Model ServingAuth Discovery GatewayDiscovery GatewayRoute Routing

/-- The authenticated request, with the affinity key an outer boundary derived. -/
structure Request where
  functionID : GoString
  affinityKey : GoString
  invocation : Abi.Request
  timeout : Duration

/-- One call of `EndpointInvoker.Invoke`, with the address its invoker was resolved from. -/
structure Forwarded where
  address : GoString
  fence : InvocationFence
  invocation : Abi.Request
  timeout : Duration

/-- The caller's context and the resolver; `ρ` is `wasmexec.Result`. -/
structure Outside (ρ : Type) where
  canceled : Option GoError
  resolve : GoString → Except GoError (Option (Forwarded → ρ × Option GoError))

/-- The execution identity selected for one call. -/
structure Result (ρ : Type) where
  invocationID : GoString
  versionID : GoString
  routeRevision : UInt64
  discoveryEpoch : UInt64
  endpoint : Endpoint
  execution : Option ρ

/-- What a call returns, and what it sent to Workers. -/
structure Answer (ρ : Type) where
  result : Option (Result ρ)
  error : Option GoError
  forwarded : List Forwarded

def servingRoute (route : Discovery.Route) : ServingRoute where
  functionID := route.functionID
  routeRevision := route.routeRevision
  targets := route.targets
  hashVersion := route.hashVersion
  salt := route.salt
  enabled := route.enabled

/-- What `Invoke` does with a view before it asks the balancer. -/
def selectTarget (view : View) (affinityKey : GoString) : Except GoError Decision := do
  checks [⟨view.snapshot.function.lifecycle != .active || !view.snapshot.trigger.enabled ||
      !view.snapshot.route.present,
    .problem ⟨.functionDisabled, "function does not have an enabled serving view", ""⟩⟩]
  wrapping "selecting route target"
    (selectServing (servingRoute view.snapshot.route) affinityKey)

/-- The only read of the store, and the choice made from it. -/
def look (request : Request) : Op GoError Store (View × Decision) := do
  let view ← Op.mapError (.wrap "looking up serving view") (Store.lookup request.functionID)
  Op.ofExcept ((selectTarget view request.affinityKey).map fun decision => (view, decision))

/-- The call of the Worker, under the fence of the view. -/
def fencedCall (request : Request) (view : View) (endpoint : Endpoint) : Forwarded :=
  ⟨endpoint.address, ⟨endpoint.assignment, view.snapshot.discoveryEpoch⟩, request.invocation,
    request.timeout⟩

/-- What `Invoke` does while it holds the Lease. -/
def forward {ρ : Type} (outside : Outside ρ) (request : Request) (view : View)
    (decision : Decision) (endpoint : Endpoint) : Answer ρ :=
  let result : Result ρ := ⟨request.invocation.invocationID, decision.target.versionID,
    view.snapshot.route.routeRevision, view.snapshot.discoveryEpoch, endpoint, none⟩
  match outside.resolve endpoint.address with
  | .error err => ⟨some result, some (.wrap "resolving endpoint" err), []⟩
  | .ok none =>
    ⟨some result, some (.text "resolving endpoint: resolver returned no worker invoker"), []⟩
  | .ok (some invoker) =>
    let call := fencedCall request view endpoint
    ⟨some { result with execution := some (invoker call).1 },
      (invoker call).2.map (.wrap "invoking endpoint"), [call]⟩

def refused {ρ : Type} (err : GoError) : Answer ρ := ⟨none, some err, []⟩

structure Gateway where
  discovery : Store
  balancer : State

/-- One call that nothing runs in between of. -/
def Gateway.invoke {ρ : Type} (g : Gateway) (outside : Outside ρ) (request : Request) :
    Answer ρ × Gateway :=
  match outside.canceled with
  | some err => (refused err, g)
  | none =>
    match Op.exec (look request) g.discovery with
    | (.error err, discovery) => (refused err, ⟨discovery, g.balancer⟩)
    | (.ok (view, decision), discovery) =>
      match g.balancer.acquire request.functionID decision.target view.endpoints with
      | (.error err, balancer) =>
        (refused (.wrap "acquiring endpoint" err), ⟨discovery, balancer⟩)
      | (.ok lease, balancer) =>
        (forward outside request view decision lease.endpoint,
          ⟨discovery, balancer.release lease.state⟩)

end MiniCloud.GatewayInvoke
