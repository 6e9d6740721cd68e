import MiniCloud.Discovery.Publisher
import MiniCloud.GatewayDiscovery.Store
import MiniCloud.LocalController.System

/-!
# Local serving sync

`internal/localserving`: one complete read of the control plane, projected, built and applied to
the gateway's store of the same process. `FullSync` holds its own mutex throughout and takes the
locks of the three control-plane stores for the read only, so between two calls, and around one,
the controller moves freely.
-/

namespace MiniCloud.LocalServing

open Lib Problem ControlPlane Discovery GatewayDiscovery

/-- What the candidate source answers during one call. -/
abbrev CandidateSource := ServingState → UInt64 → Except GoError (List EndpointCandidate)

/-! ## Projections -/

def projectAuthPolicy : ControlPlane.AuthPolicy → Discovery.AuthPolicy
  | .token => .token
  | .public => .public
  | .other text => .other text

def projectFunction (function : Model.Function) : Discovery.Function where
  id := function.id
  name := function.name
  resourceRevision := function.resourceRevision
  lifecycle := function.lifecycle

def projectTrigger (trigger : ControlPlane.HTTPTrigger) : Discovery.HTTPTrigger where
  id := trigger.id
  functionID := trigger.functionID
  resourceRevision := trigger.resourceRevision
  enabled := trigger.enabled
  authPolicy := projectAuthPolicy trigger.authPolicy
  tokenVerifierDigest := trigger.tokenVerifierDigest

def projectRoute (state : ServingState) : Discovery.Route :=
  match state.route with
  | none => {
    present := false
    functionID := state.function.id
    resourceRevision := 0
    routeRevision := 0
    enabled := false
    targets := []
    affinity := .other ""
    affinityHeader := []
    hashVersion := []
    saltID := []
    salt := [] }
  | some route => {
    present := true
    functionID := route.functionID
    resourceRevision := route.resourceRevision
    routeRevision := route.routeRevision
    enabled := route.enabled
    targets := route.targets
    affinity := route.affinity
    affinityHeader := route.affinityHeader
    hashVersion := route.hashVersion
    saltID := route.saltID
    salt := route.salt }

def projectInput (state : ServingState) (generatedAt : Time) : Input where
  discoveryEpoch := 0
  servingSequence := 0
  generatedAt := generatedAt
  function := projectFunction state.function
  trigger := projectTrigger state.trigger
  route := projectRoute state
  candidates := []

/-! ## The synchronizer -/

structure Synchronizer where
  publisher : Publisher
  store : Store

/-- One call of `FullSync`: what its context reports at each test, what the candidate source
answers (a nil source is `none`), and what the clock says. -/
structure SyncCall where
  ctx : Nat → Option GoError
  candidates : Option CandidateSource
  now : Time

/-- `ctx.Err()`. -/
def contextError : Option GoError → Validation
  | none => .ok ()
  | some err => .error err

/-- `Controller.ListServingStates`. -/
def listServingStates (ctx : Option GoError) (stores : Stores) :
    Except GoError (List ServingState) := do
  LocalController.checkContext ctx
  (servingStates stores.catalog stores.releases stores.routes).mapError
    (.wrap "listing serving states")

def SyncCall.endpointCandidates (call : SyncCall) (state : ServingState) (epoch : UInt64) :
    Except GoError (List EndpointCandidate) :=
  match call.candidates with
  | none => .ok []
  | some source => source state epoch

/-- One pass of the loop over the states; `%q` of an identifier only adds the quotes. -/
def SyncCall.input (call : SyncCall) (epoch : UInt64) (ctx : Option GoError)
    (state : ServingState) : Except GoError Input := do
  contextError ctx
  let candidates ← (call.endpointCandidates state epoch).mapError
    (.wrap ("listing candidates for function \"" ++ state.function.id ++ "\""))
  .ok { projectInput state call.now with candidates := candidates }

def SyncCall.inputs (call : SyncCall) (epoch : UInt64) :
    Nat → List ServingState → Except GoError (List Input)
  | _, [] => .ok []
  | test, state :: rest => do
    let input ← call.input epoch (call.ctx test) state
    let inputs ← call.inputs epoch (test + 1) rest
    .ok (input :: inputs)

/-- The event that carries a complete batch. -/
def fullEvent (epoch sequence : UInt64) (results : List Result) : GatewayDiscovery.Event :=
  ⟨true, epoch, sequence, results.map Result.snapshot⟩

def Synchronizer.fullSync (call : SyncCall) (stores : Stores) :
    Op GoError Synchronizer Unit := do
  Op.ofExcept (contextError (call.ctx 0))
  Op.ofExcept (contextError (call.ctx 1))
  let states ← Op.ofExcept ((listServingStates (call.ctx 2) stores).mapError
    (.wrap "listing local serving states"))
  let s ← get
  let (epoch, _) := s.publisher.position
  let inputs ← Op.ofExcept (call.inputs epoch 3 states)
  let (results, sequence) ← Op.mapError (.wrap "building local serving Full Sync")
    (Op.onPart (Publisher.buildFull inputs) Synchronizer.publisher
      fun s publisher => { s with publisher := publisher })
  Op.mapError (.wrap "applying local serving Full Sync")
    (Op.onPart (Store.apply (fullEvent epoch sequence results)) Synchronizer.store
      fun s store => { s with store := store })

/-! ## The controller and the synchronizer together -/

structure LocalCore (σ : Type) where
  system : LocalController.System σ
  sync : Synchronizer

inductive CoreMove (σ : Type) where
  | control (move : LocalController.Move σ)
  | fullSync (call : SyncCall)

inductive CoreAnswer where
  | control (response : LocalController.Response)
  | synced (result : Except GoError Unit)

section Steps

variable {σ : Type} (src : LocalController.Sources σ)

def LocalCore.step (core : LocalCore σ) : CoreMove σ → CoreAnswer × LocalCore σ
  | .control move =>
    let moved := core.system.step src move
    (.control moved.1, { core with system := moved.2 })
  | .fullSync call =>
    let synced := Op.exec (Synchronizer.fullSync call core.system.controller.stores) core.sync
    (.synced synced.1, { core with sync := synced.2 })

end Steps

end MiniCloud.LocalServing
