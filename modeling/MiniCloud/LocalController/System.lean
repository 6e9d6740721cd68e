import MiniCloud.LocalController.Operation

/-!
# The controller as a system of steps

An operation runs inside one critical section of `operationMu`, but version admission does not
take that lock: its store commands may fall between any two phases of an operation. So the system
moves in smaller steps. A call takes the lock and looks its key up; it prepares; it commits; it
replies and gives the lock back. Between any two of these an admission step may happen.

A prepare step reads the releases at most once, before anything else, and apart from that only
the catalog, which admission never writes; an admission step inside it is the same as one after
it. `commit` is one step because nobody else touches the ledger while the lock is held.
-/

namespace MiniCloud.LocalController

open Lib Problem Digest Model ControlPlane

/-- How far the call that holds the lock has come. -/
inductive Phase where
  | lookedUp (operation : Operation) (request : Request)
  | prepared (operation : Operation) (request : Request) (plan : Plan)
  | replying (operation : Operation) (result : Option CompletionResult) (view : Option View)
      (err : Option GoError)

def Phase.operation : Phase → Operation
  | .lookedUp operation _ => operation
  | .prepared operation _ _ => operation
  | .replying operation _ _ _ => operation

structure System (σ : Type) where
  controller : Controller σ
  holder : Option Phase

def newSystem {σ : Type} (sources : σ) : System σ := ⟨newController sources, none⟩

/-- The result of a call. Disposition and record are zero values where there is no completion. -/
structure Answer where
  result : Option CompletionResult
  view : Option View
  err : Option GoError

/-- A store command that version admission issues. -/
inductive Admission where
  | start (command : StartValidationCommand)
  | complete (command : CompleteValidationCommand)

def Admission.command : Admission → Command
  | .start command => .startValidation command
  | .complete command => .completeValidation command

inductive Move (σ : Type) where
  /-- A call arrives; `ctx` is what its context reports. -/
  | call (ctx : Option GoError) (operation : Operation)
  | prepare
  | commit
  | reply
  /-- Any admission command. Its caller may have drawn from the sources before. -/
  | admission (admission : Admission) (lastCommand : CommandMeta) (sources : σ)
  /-- A version call reads the Version of a replay after it has given the lock back. -/
  | resolveVersion (result : CompletionResult)

inductive Response where
  /-- The lock is taken, or the call goes on. -/
  | waiting
  | answered (answer : Answer)

/-! ## Looking up -/

section Phases

variable {σ : Type} (src : Sources σ)

def checkContext : Option GoError → Validation
  | none => .ok ()
  | some err => .error (.wrap "local controller context is unavailable" err)

/-- The record of a key under an equal request. A key that is not found is no error. -/
def lookupOperation (key : OperationKey) (request : Request) :
    Op GoError Ledger (Option Record) := do
  match ← Op.attempt (Ledger.lookup key) with
  | .error err => if (problemCode err).text = Code.text .notFound then pure none else throw err
  | .ok record =>
    let digestValue ← Op.ofExcept request.digest
    Op.failIf (record.digest != digestValue) conflictError
    pure (some record)

/-- The part of `applyOperation` that the lookup decides. -/
def Operation.lookedUp (operation : Operation) (request : Request) :
    Except GoError (Option Record) → Phase
  | .error err => .replying operation none none (some err)
  | .ok none => .lookedUp operation request
  | .ok (some record) =>
    .replying operation (some ⟨replayDisposition record, record⟩) none
      (if record.outcome.status = .failed then some (failureError record.outcome.failure) else none)

/-! ## Committing -/

def failedOutcome (err : GoError) : Outcome where
  status := .failed
  failure := some ⟨problemCode err, safeProblemMessage err⟩
  affectedResources := []
  credentialIssued := false

/-- A terminal failure is recorded; any other leaves the key unused. -/
def recordOperationFailure (ledger : Ledger) (completion : Completion) (err : GoError) :
    (Option CompletionResult × Option GoError) × Ledger :=
  if terminalOperationFailure (problemCode err) then
    match Op.exec (Ledger.complete { completion with outcome := failedOutcome err }) (ledger, ()) with
    | (.ok result, (ledger, _)) => ((some result, some err), ledger)
    | (.error err', (ledger, _)) => ((none, some (.join err err')), ledger)
  else ((none, some err), ledger)

/-- The part of `applyOperation` after the prepare step. -/
def Controller.commit (c : Controller σ) (operation : Operation) (request : Request)
    (plan : Plan) : Phase × Controller σ :=
  let completion := plan.completion operation.key request
  match Op.exec (Ledger.completeAfter completion (some (capture plan.apply)))
      (c.ledger, (c.stores, none)) with
  | (.ok result, (ledger, (stores, view))) =>
    (.replying operation (some result) view none, { c with ledger := ledger, stores := stores })
  | (.error err, (ledger, (stores, _))) =>
    let recorded := recordOperationFailure ledger completion err
    (.replying operation recorded.1.1 none recorded.1.2,
      { c with ledger := recorded.2, stores := stores })

/-! ## Replying -/

/-- The current view of the Function a record names, or of the request's own Function. -/
def resolveFunctionView (s : Stores) (record : Record) (fallbackFunctionID : GoString) :
    Except GoError FunctionView := do
  let functionID ←
    match affectedResourceID record.outcome functionKind with
    | .ok id => .ok id
    | .error err => if fallbackFunctionID = [] then .error err else .ok fallbackFunctionID
  let (function, trigger) ← wrapping "resolving function operation result"
    (s.catalog.getFunction functionID)
  .ok ⟨function, trigger, []⟩

/-- The view to return: the captured one of an applied write, else the current one. -/
def functionResultView (s : Stores) (result : CompletionResult) (view : Option View)
    (fallbackFunctionID : GoString) : Except GoError FunctionView :=
  match result.disposition, view with
  | .applied, some (.function v) =>
    if v.function.id = [] then resolveFunctionView s result.record fallbackFunctionID else .ok v
  | _, _ => resolveFunctionView s result.record fallbackFunctionID

def functionOperationResult (s : Stores) (result : CompletionResult) (view : Option View)
    (fallbackFunctionID : GoString) : Answer :=
  match functionResultView s result view fallbackFunctionID with
  | .error err => ⟨none, none, some err⟩
  | .ok v =>
    ⟨some result, some (.function v),
      if result.disposition = .credentialNotReplayable then
        some (classified .credentialNotReplayable "operation credential cannot be replayed")
      else none⟩

def replayedVersionResult (s : Stores) (result : CompletionResult) : Answer :=
  let found : Except GoError Version := do
    let versionID ← affectedResourceID result.record.outcome versionKind
    let (version, _) ← wrapping "resolving version operation result" (s.releases.get versionID)
    .ok version
  match found with
  | .error err => ⟨none, none, some err⟩
  | .ok version => ⟨some result, some (.version version), none⟩

def replayedRouteResult (s : Stores) (result : CompletionResult) : Answer :=
  let found : Except GoError (Route × Function) := do
    let functionID ← affectedResourceID result.record.outcome functionKind
    let (function, _) ← wrapping "resolving route operation function"
      (s.catalog.getFunction functionID)
    let route ← wrapping "resolving route operation result" (s.routes.get functionID)
    .ok (route, function)
  match found with
  | .error err => ⟨none, none, some err⟩
  | .ok (route, function) => ⟨some result, some (.route route function), none⟩

/-- What a call without an error returns. A version call goes on after it has replied: an applied
one with admission, a replayed one with `replayedVersionResult`. -/
def OperationInput.result (s : Stores) (result : CompletionResult) (view : Option View) :
    OperationInput → Answer
  | .createFunction _ => functionOperationResult s result view []
  | .setFunctionLifecycle input => functionOperationResult s result none input.functionID
  | .rotateInvocationToken input => functionOperationResult s result view input.functionID
  | .createVersion _ => ⟨some result, view, none⟩
  | .publishRoute _ =>
    if result.disposition = .applied then ⟨some result, view, none⟩
    else replayedRouteResult s result

/-- The answer of the call that holds the lock, from what its phases left. -/
def Operation.answer (s : Stores) (operation : Operation) (result : Option CompletionResult)
    (view : Option View) (err : Option GoError) : Answer :=
  match result, err with
  | some completed, none => operation.input.result s completed view
  | _, _ => ⟨result, none, err⟩

/-! ## Steps -/

def System.call (s : System σ) (ctx : Option GoError) (operation : Operation) :
    Response × System σ :=
  match checkContext ctx, operation.input.request, s.holder with
  | .error err, _, _ => (.answered ⟨none, none, some err⟩, s)
  | .ok (), .error err, _ => (.answered ⟨none, none, some err⟩, s)
  | .ok (), .ok _, some _ => (.waiting, s)
  | .ok (), .ok request, none =>
    let looked := Op.exec (lookupOperation operation.key request) s.controller.ledger
    (.waiting,
      { controller := { s.controller with ledger := looked.2 }
        holder := some (operation.lookedUp request looked.1) })

def System.prepare (s : System σ) : Response × System σ :=
  match s.holder with
  | some (.lookedUp operation request) =>
    match Op.exec (operation.input.prepare src) s.controller with
    | (.error err, c) => (.waiting, ⟨c, some (.replying operation none none (some err))⟩)
    | (.ok plan, c) => (.waiting, ⟨c, some (.prepared operation request plan)⟩)
  | _ => (.waiting, s)

def System.commit (s : System σ) : Response × System σ :=
  match s.holder with
  | some (.prepared operation request plan) =>
    let committed := s.controller.commit operation request plan
    (.waiting, ⟨committed.2, some committed.1⟩)
  | _ => (.waiting, s)

def System.reply (s : System σ) : Response × System σ :=
  match s.holder with
  | some (.replying operation result view err) =>
    (.answered (operation.answer s.controller.stores result view err), ⟨s.controller, none⟩)
  | _ => (.waiting, s)

def System.admission (s : System σ) (admission : Admission) (lastCommand : CommandMeta)
    (sources : σ) : Response × System σ :=
  let stores := (Op.exec admission.command.run s.controller.stores).2
  (.waiting,
    { s with controller :=
        { s.controller with stores := stores, lastCommand := lastCommand, sources := sources } })

def System.step (s : System σ) : Move σ → Response × System σ
  | .call ctx operation => s.call ctx operation
  | .prepare => s.prepare src
  | .commit => s.commit
  | .reply => s.reply
  | .admission admission lastCommand sources => s.admission admission lastCommand sources
  | .resolveVersion result => (.answered (replayedVersionResult s.controller.stores result), s)

def controllerMachine : Machine (System σ) (Move σ) Response := ⟨System.step src⟩

end Phases

abbrev ControllerEvent (σ : Type) := Event (System σ) (Move σ) Response

end MiniCloud.LocalController
