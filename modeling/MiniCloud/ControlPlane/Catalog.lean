import MiniCloud.ControlPlane.Request

/-!
# The Function catalog

`internal/controlplane/catalog.go`: Functions with their default HTTP Trigger, in four maps that
one mutex guards. Each method is one atomic step on the four maps. The source's defensive copies
are plain values here, and `Round(0)` only drops a clock reading the model does not have.
-/

namespace MiniCloud.ControlPlane

open Lib Problem Digest Model

def defaultMaxFunctions : Nat := 1000

/-- The persisted authentication rule of a Trigger. -/
inductive AuthPolicy where
  | token
  | «public»
  | other (text : GoString)
  deriving DecidableEq

instance : Inhabited AuthPolicy := ⟨.other ""⟩

/-- The default invocation Trigger, created together with its Function. -/
structure HTTPTrigger extends Metadata where
  functionID : GoString
  enabled : Bool
  authPolicy : AuthPolicy
  tokenVerifierDigest : Option SHA256
  deriving DecidableEq, Inhabited

/-- The verifier a Trigger must have, or must not have, under its policy. -/
def HTTPTrigger.validateAuth (t : HTTPTrigger) : Validation :=
  match t.authPolicy with
  | .token =>
    match t.tokenVerifierDigest with
    | none => .error (invalid "token_verifier_digest" "is required for token authentication")
    | some d =>
      checks [
        mustNot (!encodedPattern d) "token_verifier_digest" "must be a lowercase SHA-256 digest"]
  | .public =>
    checks [
      mustNot t.tokenVerifierDigest.isSome "token_verifier_digest"
        "is not allowed for public authentication"]
  | .other _ => .error (invalid "auth_policy" "must be token or public")

def HTTPTrigger.validate (t : HTTPTrigger) : Validation := do
  t.toMetadata.validate
  checks [mustNot (!identifierPattern t.functionID) "function_id" "must be a valid identifier"]
  t.validateAuth

theorem HTTPTrigger.validate_metadata {t : HTTPTrigger} (h : t.validate = .ok ()) :
    t.toMetadata.Valid :=
  Metadata.validate_ok.mp (seq_ok.mp h).1

/-- Token authentication comes with a verifier. -/
theorem HTTPTrigger.verifier_of_token {t : HTTPTrigger} (h : t.validate = .ok ())
    (ht : t.authPolicy = .token) : t.tokenVerifierDigest.isSome := by
  have hauth := (seq_ok.mp (seq_ok.mp h).2).2
  rw [HTTPTrigger.validateAuth, ht] at hauth
  cases hd : t.tokenVerifierDigest with
  | none => simp [hd] at hauth
  | some d => rfl

/-! ## Commands -/

structure CreateFunctionCommand where
  ifNoneMatch : Bool
  appliedIndex : UInt64
  function : Function
  trigger : HTTPTrigger

structure RotateInvocationTokenCommand where
  functionID : GoString
  expectedResourceRevision : UInt64
  tokenVerifierDigest : SHA256
  updatedAt : Time
  appliedIndex : UInt64

structure SetFunctionLifecycleCommand where
  functionID : GoString
  expectedResourceRevision : UInt64
  lifecycle : FunctionLifecycle
  updatedAt : Time
  appliedIndex : UInt64

def validateCreateFunction (command : CreateFunctionCommand) : Validation := do
  let function := command.function
  let trigger := command.trigger
  checks [
    mustNot (!command.ifNoneMatch) "if_none_match" "is required when creating a function",
    mustNot (command.appliedIndex == 0) "applied_index" "must be greater than zero"]
  function.validate
  checks [
    mustNot (function.lifecycle != .active) "function.lifecycle"
      "must be Active when creating a function",
    mustNot (function.activeRouteRevision != 0) "function.active_route_revision"
      "must be zero before the first Route is published",
    mustNot (function.createdRaftIndex != command.appliedIndex || function.resourceRevision != 1)
      "function" "must be created at this applied index with resource revision one"]
  trigger.validate
  checks [
    mustNot (trigger.functionID != function.id || !trigger.enabled) "trigger"
      "must be enabled and belong to the created function",
    mustNot (trigger.createdRaftIndex != command.appliedIndex || trigger.resourceRevision != 1 ||
        !trigger.createdAt.equal function.createdAt || !trigger.updatedAt.equal function.updatedAt)
      "trigger" "must share the creation command and timestamp with its function"]

def validateLifecycleCommand (command : SetFunctionLifecycleCommand) : Validation := do
  checks [
    mustNot (!identifierPattern command.functionID) "function_id" "must be a valid identifier",
    mustNot (command.expectedResourceRevision == 0) "expected_resource_revision"
      "must be greater than zero",
    mustNot (command.lifecycle != .active && command.lifecycle != .disabled) "lifecycle"
      "must be Active or Disabled"]
  validateUTC "updated_at" command.updatedAt
  checks [mustNot (command.appliedIndex == 0) "applied_index" "must be greater than zero"]

def validateRotateInvocationToken (command : RotateInvocationTokenCommand) : Validation := do
  checks [
    mustNot (!identifierPattern command.functionID) "function_id" "must be a valid identifier",
    mustNot (command.expectedResourceRevision == 0) "expected_resource_revision"
      "must be greater than zero",
    mustNot (!encodedPattern command.tokenVerifierDigest) "token_verifier_digest"
      "must be a lowercase SHA-256 digest"]
  validateUTC "updated_at" command.updatedAt
  checks [mustNot (command.appliedIndex == 0) "applied_index" "must be greater than zero"]

/-! ## The store -/

structure Catalog where
  functionsByID : GoMap GoString Function
  functionIDByName : GoMap GoString GoString
  triggersByID : GoMap GoString HTTPTrigger
  triggerIDByFunc : GoMap GoString GoString
  deriving DecidableEq

structure CatalogSnapshot where
  functions : List Function
  triggers : List HTTPTrigger

def newCatalog : Catalog := ⟨∅, ∅, ∅, ∅⟩

/-- Create one Function and its default HTTP Trigger. -/
def Catalog.createFunction (command : CreateFunctionCommand) :
    Op GoError Catalog CatalogSnapshot := do
  Op.ofExcept (validateCreateFunction command)
  let c ← get
  let function := command.function
  let trigger := command.trigger
  Op.failIf (c.functionsByID.get? function.id).isSome
    (classified .conflict "function id already exists")
  Op.failIf (c.functionIDByName.get? function.name).isSome
    (classified .conflict "function name already exists")
  Op.failIf (c.triggersByID.get? trigger.id).isSome
    (classified .conflict "trigger id already exists")
  Op.failIf (c.triggerIDByFunc.get? function.id).isSome
    (classified .conflict "function already has a default HTTP trigger")
  Op.failIf (defaultMaxFunctions ≤ c.functionsByID.len)
    (classified .overloaded "function catalog is full")
  set ({
    functionsByID := c.functionsByID.set function.id function
    functionIDByName := c.functionIDByName.set function.name function.id
    triggersByID := c.triggersByID.set trigger.id trigger
    triggerIDByFunc := c.triggerIDByFunc.set function.id trigger.id } : Catalog)
  pure ⟨[function], [trigger]⟩

/-- The Function after a change of lifecycle. -/
def relifedFunction (function : Function) (command : SetFunctionLifecycleCommand) : Function :=
  { function with
    lifecycle := command.lifecycle
    updatedAt := command.updatedAt
    resourceRevision := function.resourceRevision + 1 }

/-- Disable an Active Function or restore a Disabled one, at the exact current revision. -/
def Catalog.setFunctionLifecycle (command : SetFunctionLifecycleCommand) :
    Op GoError Catalog Function := do
  Op.ofExcept (validateLifecycleCommand command)
  let c ← get
  let function ← Op.orFail (c.functionsByID.get? command.functionID)
    (classified .notFound "function was not found")
  Op.failIf (function.resourceRevision != command.expectedResourceRevision)
    (revisionConflict "resource_revision" command.expectedResourceRevision
      function.resourceRevision)
  Op.failIf (function.lifecycle != .active && function.lifecycle != .disabled)
    (classified .conflict "function lifecycle cannot be changed in its current state")
  if function.lifecycle = command.lifecycle then
    return function
  let updated := relifedFunction function command
  Op.ofExcept (wrapping "validating updated function" updated.validate)
  set { c with functionsByID := c.functionsByID.set updated.id updated }
  return updated

/-- The Trigger after a rotation. -/
def rotatedTrigger (trigger : HTTPTrigger) (command : RotateInvocationTokenCommand) :
    HTTPTrigger :=
  { trigger with
    tokenVerifierDigest := some command.tokenVerifierDigest
    updatedAt := command.updatedAt
    resourceRevision := trigger.resourceRevision + 1 }

/-- Replace the only accepted verifier, at the exact current Trigger revision. -/
def Catalog.rotateInvocationToken (command : RotateInvocationTokenCommand) :
    Op GoError Catalog HTTPTrigger := do
  Op.ofExcept (validateRotateInvocationToken command)
  let c ← get
  let triggerID ← Op.orFail (c.triggerIDByFunc.get? command.functionID)
    (classified .notFound "function was not found")
  let trigger ← Op.orFail (c.triggersByID.get? triggerID)
    (.text "catalog invariant: function has no default HTTP trigger")
  Op.failIf (trigger.resourceRevision != command.expectedResourceRevision)
    (revisionConflict "resource_revision" command.expectedResourceRevision
      trigger.resourceRevision)
  Op.failIf (trigger.authPolicy != .token)
    (classified .conflict "public HTTP trigger has no invocation token")
  Op.failIf (trigger.tokenVerifierDigest == some command.tokenVerifierDigest)
    (classified .conflict "invocation token verifier did not change")
  let rotated := rotatedTrigger trigger command
  Op.ofExcept (wrapping "validating rotated HTTP trigger" rotated.validate)
  set { c with triggersByID := c.triggersByID.set triggerID rotated }
  return rotated

/-- A Function and its Trigger by immutable id. -/
def Catalog.getFunction (c : Catalog) (functionID : GoString) :
    Except GoError (Function × HTTPTrigger) := do
  checks [mustNot (!identifierPattern functionID) "function_id" "must be a valid identifier"]
  match c.functionsByID.get? functionID with
  | none => .error (classified .notFound "function was not found")
  | some function =>
    match c.triggersByID.get? ((c.triggerIDByFunc.get? functionID).getD "") with
    | none => .error (.text "catalog invariant: function has no default HTTP trigger")
    | some trigger => .ok (function, trigger)

/-- A Function and its Trigger by name. The source does not test the two later lookups, and a
missing entry would read as the zero value. -/
def Catalog.getFunctionByName (c : Catalog) (name : GoString) :
    Except GoError (Function × HTTPTrigger) :=
  match c.functionIDByName.get? name with
  | none => .error (classified .notFound "function was not found")
  | some functionID =>
    .ok ((c.functionsByID.get? functionID).getD default,
      (c.triggersByID.get? ((c.triggerIDByFunc.get? functionID).getD "")).getD default)

/-- By creation position. -/
def compareFunction : Function → Function → Ordering :=
  compareLex (compareOn fun f => f.createdRaftIndex) (compareOn fun f => f.id)

end MiniCloud.ControlPlane
