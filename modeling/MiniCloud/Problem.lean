import MiniCloud.Lib.Text
import MiniCloud.Lib.Op

/-!
# Errors

`internal/problem`: the stable error catalog and the one structured error type, together with
the other ways the modelled packages build an `error`. A `GoError` is the whole chain, so
`errors.As` is a function on it (`asProblem`) and a wrapped error is not the same value as the
one inside.
-/

namespace MiniCloud

open Lib

namespace Problem

/-- A stable machine-readable error category; `other` is a text outside the v1 catalog. -/
inductive Code where
  | invalidArgument
  | unauthenticated
  | forbidden
  | notFound
  | conflict
  | revisionConflict
  | rollbackUnavailable
  | operationUnknown
  | operationExpired
  | credentialNotReplayable
  | noQuorum
  | controlPlaneStale
  | functionDisabled
  | noReadyReplica
  | overloaded
  | coldStartTimeout
  | functionTimeout
  | invalidModule
  | capabilityDenied
  | functionTrap
  | invalidFunctionResponse
  | outputLimit
  | workerLost
  | staleAssignment
  | staleGeneration
  | artifactUnavailable
  | asyncUnavailable
  | resultExpired
  | other (text : GoString)
  deriving DecidableEq

def Code.text : Code → GoString
  | .invalidArgument => "invalid_argument"
  | .unauthenticated => "unauthenticated"
  | .forbidden => "forbidden"
  | .notFound => "not_found"
  | .conflict => "conflict"
  | .revisionConflict => "revision_conflict"
  | .rollbackUnavailable => "rollback_unavailable"
  | .operationUnknown => "operation_unknown"
  | .operationExpired => "operation_expired"
  | .credentialNotReplayable => "credential_not_replayable"
  | .noQuorum => "no_quorum"
  | .controlPlaneStale => "control_plane_stale"
  | .functionDisabled => "function_disabled"
  | .noReadyReplica => "no_ready_replica"
  | .overloaded => "overloaded"
  | .coldStartTimeout => "cold_start_timeout"
  | .functionTimeout => "function_timeout"
  | .invalidModule => "invalid_module"
  | .capabilityDenied => "capability_denied"
  | .functionTrap => "function_trap"
  | .invalidFunctionResponse => "invalid_function_response"
  | .outputLimit => "output_limit"
  | .workerLost => "worker_lost"
  | .staleAssignment => "stale_assignment"
  | .staleGeneration => "stale_generation"
  | .artifactUnavailable => "artifact_unavailable"
  | .asyncUnavailable => "async_unavailable"
  | .resultExpired => "result_expired"
  | .other text => text

/-- The complete v1 public error catalog. -/
def allCodes : List Code :=
  [.invalidArgument, .unauthenticated, .forbidden, .notFound, .conflict, .revisionConflict,
    .rollbackUnavailable, .operationUnknown, .operationExpired, .credentialNotReplayable,
    .noQuorum, .controlPlaneStale, .functionDisabled, .noReadyReplica, .overloaded,
    .coldStartTimeout, .functionTimeout, .invalidModule, .capabilityDenied, .functionTrap,
    .invalidFunctionResponse, .outputLimit, .workerLost, .staleAssignment, .staleGeneration,
    .artifactUnavailable, .asyncUnavailable, .resultExpired]

/-- The conversion `problem.Code(text)`. -/
def Code.ofText (text : GoString) : Code :=
  (allCodes.find? fun c => c.text = text).getD (.other text)

/-- Whether a code belongs to the stable v1 catalog. Codes are compared as the strings they are. -/
def known (code : Code) : Bool := allCodes.any fun c => c.text = code.text

/-- Safe structured context without implementation errors. -/
structure Error where
  code : Code
  message : GoString
  field : GoString
  deriving DecidableEq

end Problem

/-- The errors of the modelled packages. -/
inductive GoError where
  /-- `*problem.Error`. -/
  | problem (e : Problem.Error)
  /-- `*controlplane.RevisionConflict`. -/
  | revisionConflict (revisionKind : GoString) (expected actual : UInt64)
  /-- `errors.New(text)`. -/
  | text (message : GoString)
  /-- `fmt.Errorf("context: %w", cause)`. -/
  | wrap (context : GoString) (cause : GoError)
  /-- `errors.Join(first, second)`. -/
  | join (first second : GoError)
  /-- A run-time panic. No modelled call reaches one. -/
  | crash (message : GoString)
  deriving DecidableEq

namespace GoError

/-- What `RevisionConflict.Unwrap` returns. -/
def revisionProblem : Problem.Error :=
  ⟨.revisionConflict, "expected revision does not match current resource", ""⟩

/-- `errors.As(err, &problemError)`: the first structured error of the chain. -/
def asProblem : GoError → Option Problem.Error
  | problem e => some e
  | revisionConflict _ _ _ => some revisionProblem
  | text _ => none
  | wrap _ cause => asProblem cause
  | join first second => (asProblem first).or (asProblem second)
  | crash _ => none

end GoError

namespace Problem

/-- A validation failure at an external or persistence boundary. -/
def invalid (field message : GoString) : GoError := .problem ⟨.invalidArgument, message, field⟩

/-- Every package has its own copy of this helper. -/
def classified (code : Code) (message : GoString) : GoError := .problem ⟨code, message, ""⟩

end Problem

/-- A validator's verdict. -/
abbrev Validation := Except GoError Unit

/-- `if err != nil { return fmt.Errorf("context: %w", err) }`. -/
def wrapping {α : Type} (context : GoString) : Except GoError α → Except GoError α
  | .ok a => .ok a
  | .error e => .error (.wrap context e)

@[simp] theorem wrapping_ok {α : Type} {context : GoString} {r : Except GoError α} {a : α} :
    wrapping context r = .ok a ↔ r = .ok a := by
  cases r <;> simp [wrapping]

/-- `v, exists := lookup; if !exists { return err }` in a function that reads only. -/
def orError {α : Type} (v : Option α) (err : GoError) : Except GoError α :=
  match v with
  | some a => .ok a
  | none => .error err

@[simp] theorem orError_ok {α : Type} {v : Option α} {err : GoError} {a : α} :
    orError v err = .ok a ↔ v = some a := by
  cases v <;> simp [orError]

/-- `if bad { return problem.Invalid(field, message) }`, one line of a validator. -/
def mustNot (bad : Bool) (field message : GoString) : Check GoError :=
  ⟨bad, Problem.invalid field message⟩

@[simp] theorem mustNot_fails (bad : Bool) (field message : GoString) :
    (mustNot bad field message).fails = bad := rfl

end MiniCloud
