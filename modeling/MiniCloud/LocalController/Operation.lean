import MiniCloud.LocalController.Requests

/-!
# Management operations

The first half of `localcontroller/operation.go`. An operation looks its key up in the ledger,
*prepares* one store command together with the outcome it will be recorded by, and *commits* both
through the ledger.

The source keeps the command in a closure. Here it is data, a `Plan`, so that what is true of a
prepared operation can be said between its phases.
-/

namespace MiniCloud.LocalController

open Lib Problem Digest Model ControlPlane

def functionKind : GoString := "function"
def httpTriggerKind : GoString := "http_trigger"
def versionKind : GoString := "version"
def routeKind : GoString := "route"

/-! ## The five operations -/

inductive OperationInput where
  | createFunction (input : CreateFunctionInput)
  | setFunctionLifecycle (input : SetFunctionLifecycleInput)
  | rotateInvocationToken (input : RotateInvocationTokenInput)
  | createVersion (input : CreateVersionInput)
  | publishRoute (input : PublishRouteInput)

/-- An authenticated idempotency key bound to one write. -/
structure Operation where
  key : OperationKey
  input : OperationInput

def OperationInput.request : OperationInput → Except GoError Request
  | .createFunction input => createFunctionRequest input
  | .setFunctionLifecycle input => setFunctionLifecycleRequest input
  | .rotateInvocationToken input => rotateInvocationTokenRequest input
  | .createVersion input => createVersionRequest input
  | .publishRoute input => publishRouteRequest input

/-! ## Applying -/

/-- What an applied operation hands back to its caller. -/
inductive View where
  | function (view : FunctionView)
  | version (version : Version)
  | route (route : Route) (function : Function)

/-! The store command of each prepared write, and the write. -/

def createFunctionCommand (prepared : PreparedFunction) : CreateFunctionCommand where
  ifNoneMatch := true
  appliedIndex := prepared.command.appliedIndex
  function := prepared.view.function
  trigger := prepared.view.trigger

def applyCreateFunction (prepared : PreparedFunction) : Op GoError Stores FunctionView := do
  let _ ← wrapped "creating function"
    (Stores.onCatalog (Catalog.createFunction (createFunctionCommand prepared)))
  pure prepared.view

def setLifecycleCommand (input : SetFunctionLifecycleInput) (command : CommandMeta) :
    SetFunctionLifecycleCommand where
  functionID := input.functionID
  expectedResourceRevision := input.expectedResourceRevision
  lifecycle := input.lifecycle
  updatedAt := command.time
  appliedIndex := command.appliedIndex

def applyFunctionLifecycle (input : SetFunctionLifecycleInput) (command : CommandMeta) :
    Op GoError Stores Function :=
  wrapped "setting function lifecycle"
    (Stores.onCatalog (Catalog.setFunctionLifecycle (setLifecycleCommand input command)))

def rotateTokenCommand (prepared : PreparedRotation) : RotateInvocationTokenCommand where
  functionID := prepared.input.functionID
  expectedResourceRevision := prepared.input.expectedResourceRevision
  tokenVerifierDigest := prepared.verifier
  updatedAt := prepared.command.time
  appliedIndex := prepared.command.appliedIndex

def applyRotateInvocationToken (prepared : PreparedRotation) : Op GoError Stores FunctionView := do
  let trigger ← wrapped "rotating invocation token"
    (Stores.onCatalog (Catalog.rotateInvocationToken (rotateTokenCommand prepared)))
  let s ← get
  let (function, _) ← Op.ofExcept (wrapping "loading rotated invocation token"
    (s.catalog.getFunction prepared.input.functionID))
  pure ⟨function, trigger, prepared.token⟩

def createVersionCommand (prepared : PreparedVersion) : CreateVersionCommand where
  ifNoneMatch := true
  appliedIndex := prepared.createCommand.appliedIndex
  version := prepared.version

def applyCreateVersion (prepared : PreparedVersion) : Op GoError Stores Version := do
  let s ← get
  wrapped "creating version"
    (Stores.onReleases (ReleaseStore.createVersion s.catalog (createVersionCommand prepared)))

def publishRouteCommand (prepared : PreparedRoute) : PublishRouteCommand where
  functionID := prepared.input.functionID
  expectedActiveRouteRevision := prepared.input.expectedActiveRouteRevision
  route := prepared.route
  updatedAt := prepared.command.time
  appliedIndex := prepared.command.appliedIndex

def applyPublishRoute (prepared : PreparedRoute) : Op GoError Stores (Route × Function) := do
  let s ← get
  wrapped "publishing route"
    (Stores.onRoutes (RouteStore.publish s.releases (publishRouteCommand prepared)))

/-! ## Plans -/

/-- A write whose inputs are drawn and whose outcome is known before any state changes. -/
inductive Plan where
  | createFunction (prepared : PreparedFunction)
  | setFunctionLifecycle (input : SetFunctionLifecycleInput) (command : CommandMeta)
      (revision : UInt64)
  | rotateInvocationToken (prepared : PreparedRotation)
  | createVersion (prepared : PreparedVersion)
  | publishRoute (prepared : PreparedRoute) (current : Function)

def Plan.command : Plan → CommandMeta
  | .createFunction prepared => prepared.command
  | .setFunctionLifecycle _ command _ => command
  | .rotateInvocationToken prepared => prepared.command
  | .createVersion prepared => prepared.createCommand
  | .publishRoute prepared _ => prepared.command

/-- The resources the outcome lists, with the revisions they will have. -/
def Plan.affectedResources : Plan → List AffectedResource
  | .createFunction prepared => [
      ⟨functionKind, prepared.view.function.id, some prepared.view.function.resourceRevision, none⟩,
      ⟨httpTriggerKind, prepared.view.trigger.id, some prepared.view.trigger.resourceRevision,
        none⟩]
  | .setFunctionLifecycle input _ revision =>
    [⟨functionKind, input.functionID, some revision, none⟩]
  | .rotateInvocationToken prepared =>
    [⟨httpTriggerKind, prepared.triggerID, some (prepared.input.expectedResourceRevision + 1),
      none⟩]
  | .createVersion prepared =>
    [⟨versionKind, prepared.version.versionID, some prepared.version.resourceRevision, none⟩]
  | .publishRoute prepared current => [
      ⟨routeKind, prepared.route.id, none, some prepared.route.routeRevision⟩,
      ⟨functionKind, current.id, some (current.resourceRevision + 1), none⟩]

def Plan.credentialIssued : Plan → Bool
  | .createFunction prepared => prepared.view.invocationToken != []
  | .rotateInvocationToken _ => true
  | _ => false

def Plan.outcome (plan : Plan) : Outcome where
  status := .succeeded
  failure := none
  affectedResources := plan.affectedResources
  credentialIssued := plan.credentialIssued

/-- The closure's work; a lifecycle change keeps nothing of its result. -/
def Plan.apply : Plan → Op GoError Stores (Option View)
  | .createFunction prepared => (fun v => some (.function v)) <$> applyCreateFunction prepared
  | .setFunctionLifecycle input command _ =>
    (fun _ => none) <$> applyFunctionLifecycle input command
  | .rotateInvocationToken prepared =>
    (fun v => some (.function v)) <$> applyRotateInvocationToken prepared
  | .createVersion prepared => (fun v => some (.version v)) <$> applyCreateVersion prepared
  | .publishRoute prepared _ =>
    (fun r => some (.route r.1 r.2)) <$> applyPublishRoute prepared

/-- The closure that `CompleteAfter` calls: it stores its result in a variable of the caller. -/
def capture (m : Op GoError Stores (Option View)) : Op GoError (Stores × Option View) Unit := do
  let view ← Op.onPart m Prod.fst fun p s => (s, p.2)
  let (s, _) ← get
  set (s, view)

def Plan.completion (plan : Plan) (key : OperationKey) (request : Request) : Completion where
  key := key
  request := request
  outcome := plan.outcome
  completedAt := plan.command.time
  appliedIndex := plan.command.appliedIndex

section Prepare

variable {σ : Type} (src : Sources σ)

/-- The revision a lifecycle command will produce. An unchanged lifecycle does not advance it. -/
def nextLifecycleRevision (input : SetFunctionLifecycleInput) :
    Op GoError (Controller σ) UInt64 := do
  let (function, _) ← loadFunction "loading function lifecycle" input.functionID
  if function.lifecycle = input.lifecycle then pure function.resourceRevision
  else pure (input.expectedResourceRevision + 1)

def OperationInput.prepare : OperationInput → Op GoError (Controller σ) Plan
  | .createFunction input => .createFunction <$> prepareCreateFunction src input
  | .setFunctionLifecycle input => do
    let command ← nextCommand src
    let revision ← nextLifecycleRevision input
    pure (.setFunctionLifecycle input command revision)
  | .rotateInvocationToken input =>
    .rotateInvocationToken <$> prepareRotateInvocationToken src input
  | .createVersion input => .createVersion <$> prepareCreateVersion src input
  | .publishRoute input => do
    let prepared ← preparePublishRoute src input
    let (current, _) ← loadFunction "loading route function" input.functionID
    pure (.publishRoute prepared current)

end Prepare

/-! ## Errors -/

/-- The known code of an error, or the empty one. -/
def problemCode (err : GoError) : Code :=
  match err.asProblem with
  | some e => if known e.code then e.code else .other ""
  | none => .other ""

def safeProblemMessage (err : GoError) : GoString :=
  match err.asProblem with
  | some e => e.message
  | none => "operation failed"

/-- The failures that are recorded. Codes are compared as strings. -/
def terminalOperationFailure (code : Code) : Bool :=
  [Code.invalidArgument, .notFound, .conflict, .revisionConflict, .staleGeneration].any
    fun c => c.text = code.text

def failureError : Option Failure → GoError
  | none => .text "operation failure record has no safe failure"
  | some failure => classified failure.code failure.message

def replayDisposition (record : Record) : CompletionDisposition :=
  if record.outcome.credentialIssued then .credentialNotReplayable else .replay

def affectedResourceID (outcome : Outcome) (kind : GoString) : Except GoError GoString :=
  match outcome.affectedResources.find? fun r => r.kind = kind with
  | some r => .ok r.id
  | none => .error (.text ("operation outcome does not identify its " ++ kind))

end MiniCloud.LocalController
