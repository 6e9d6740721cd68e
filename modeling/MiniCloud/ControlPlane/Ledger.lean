import MiniCloud.ControlPlane.Request

/-!
# The Operation Ledger

The second half of `internal/controlplane/operation.go`: terminal outcomes, and the bounded store
that remembers them so that a retried operation is answered and not repeated.

`complete` runs a caller's callback between its checks and its write. The callback works on state
of the caller's own, so the method runs on a ledger beside that state; a nil callback is `none`.
-/

namespace MiniCloud.ControlPlane

open Lib Problem Digest Model

def defaultMaxOperations : Nat := 100000
def defaultOperationTTL : Duration := 24 * Duration.hour
def defaultOperationTombstoneTTL : Duration := 7 * 24 * Duration.hour

/-- The terminal result class of a management operation. -/
inductive OutcomeStatus where
  | succeeded
  | failed
  | other (text : GoString)
  deriving DecidableEq

/-- A safe, stable terminal error. -/
structure Failure where
  code : Code
  message : GoString
  deriving DecidableEq

/-- The identifiers and revisions an idempotent retry needs. -/
structure AffectedResource where
  kind : GoString
  id : GoString
  resourceRevision : Option UInt64
  routeRevision : Option UInt64
  deriving DecidableEq

/-- The de-sensitized terminal result retained for an Operation. -/
structure Outcome where
  status : OutcomeStatus
  failure : Option Failure
  affectedResources : List AffectedResource
  credentialIssued : Bool
  deriving DecidableEq

/-- The command input that records a final result. -/
structure Completion where
  key : OperationKey
  request : Request
  outcome : Outcome
  completedAt : Time
  appliedIndex : UInt64
  deriving DecidableEq

/-- A completed operation's safely replayable state. -/
structure Record where
  key : OperationKey
  digest : SHA256
  outcome : Outcome
  completedAt : Time
  appliedIndex : UInt64
  deriving DecidableEq

/-- An expired Operation ID, kept without its outcome. -/
structure Tombstone where
  key : OperationKey
  digest : SHA256
  tombstonedAt : Time
  deriving DecidableEq

inductive CompletionDisposition where
  | applied
  | replay
  | credentialNotReplayable
  deriving DecidableEq

structure CompletionResult where
  disposition : CompletionDisposition
  record : Record
  deriving DecidableEq

structure GCResult where
  tombstoned : Nat
  deleted : Nat
  deriving DecidableEq

structure LedgerConfig where
  maxOperations : Nat
  operationTTL : Duration
  tombstoneTTL : Duration
  deriving DecidableEq

structure Ledger where
  maxOperations : Nat
  operationTTL : Duration
  tombstoneTTL : Duration
  records : GoMap OperationKey Record
  tombstones : GoMap OperationKey Tombstone
  deriving DecidableEq

def newLedgerWithConfig (config : LedgerConfig) : Ledger where
  maxOperations := config.maxOperations
  operationTTL := config.operationTTL
  tombstoneTTL := config.tombstoneTTL
  records := ∅
  tombstones := ∅

def defaultLedgerConfig : LedgerConfig where
  maxOperations := defaultMaxOperations
  operationTTL := defaultOperationTTL
  tombstoneTTL := defaultOperationTombstoneTTL

/-- `New`: a ledger with the immutable v1 retention constants. -/
def newLedger : Ledger := newLedgerWithConfig defaultLedgerConfig

/-! ## Validation -/

/-- The receiver is a pointer, nil when the outcome has no failure. -/
def Failure.validate (f : Option Failure) : Validation :=
  match f with
  | none => .error (invalid "failure" "is required for a failed operation")
  | some f =>
    checks [
      mustNot (!known f.code) "failure.code" "must be a stable v1 error code",
      mustNot (f.message == [] || maxOperationMessage < f.message.length ||
          !Text.validUTF8 f.message)
        "failure.message" "must be valid UTF-8 and within 512 bytes"]

def AffectedResource.validate (r : AffectedResource) : Validation :=
  checks [
    mustNot (!identifierPattern r.kind) "affected_resources.kind" "must be a valid identifier",
    mustNot (!identifierPattern r.id) "affected_resources.id" "must be a valid identifier",
    mustNot (r.resourceRevision.isNone && r.routeRevision.isNone) "affected_resources"
      "must include a resource or route revision",
    mustNot (r.resourceRevision == some 0) "affected_resources.resource_revision"
      "must be greater than zero",
    mustNot (r.routeRevision == some 0) "affected_resources.route_revision"
      "must be greater than zero"]

def AffectedResource.key (r : AffectedResource) : GoString := r.kind ++ [0] ++ r.id

def Outcome.validate (o : Outcome) : Validation := do
  checks [
    mustNot (256 < o.affectedResources.length) "affected_resources"
      "exceeds the v1 operation result limit",
    mustNot (o.credentialIssued && o.status != .succeeded) "credential_issued"
      "is only valid for a successful operation",
    mustNot (o.credentialIssued && o.affectedResources == []) "credential_issued"
      "requires at least one affected resource"]
  match o.status with
  | .succeeded =>
    checks [mustNot o.failure.isSome "failure" "is only valid for a failed operation"]
  | .failed => Failure.validate o.failure
  | .other _ => .error (invalid "status" "must be a terminal operation status")
  checkEach AffectedResource.validate AffectedResource.key
    (invalid "affected_resources" "contains a duplicate resource") [] o.affectedResources

def Completion.validateForInsert (c : Completion) : Validation := do
  c.outcome.validate
  validateUTC "completed_at" c.completedAt
  checks [mustNot (c.appliedIndex == 0) "applied_index" "must be greater than zero"]

/-! ## Copies -/

def compareResources : AffectedResource → AffectedResource → Ordering :=
  compareLex (compareOn AffectedResource.kind) (compareOn AffectedResource.id)

instance : Std.TransCmp compareResources :=
  inferInstanceAs (Std.TransCmp (compareLex (compareOn AffectedResource.kind) (compareOn AffectedResource.id)))

/-- A copy of an outcome has its affected resources in order. -/
def cloneOutcome (o : Outcome) : Outcome :=
  { o with affectedResources := sortFunc compareResources o.affectedResources }

def cloneRecord (r : Record) : Record := { r with outcome := cloneOutcome r.outcome }

/-! ## Methods -/

def expiredError : GoError :=
  classified .operationExpired "operation id is retained as an expired tombstone"

def conflictError : GoError :=
  classified .conflict "operation id was already used with a different request"

def fullError : GoError := classified .overloaded "control-plane operation ledger is full"

def applyRequiredError : GoError := .text "control-plane operation apply callback is required"

def notFoundError : GoError := classified .notFound "operation was not found"

/-- The record a completion leaves. -/
def Completion.record (c : Completion) (digest : SHA256) : Record where
  key := c.key
  digest := digest
  outcome := cloneOutcome c.outcome
  completedAt := c.completedAt
  appliedIndex := c.appliedIndex

/-- The answer to a completion whose key is already recorded. -/
def replayResult (current : Record) : CompletionResult where
  disposition := if current.outcome.credentialIssued then .credentialNotReplayable else .replay
  record := cloneRecord current

section Complete

variable {τ : Type}

/-- Work of the caller's own, beside the ledger. -/
def callback (apply : Option (Op GoError τ Unit)) : Op GoError (Ledger × τ) Unit :=
  match apply with
  | none => pure ()
  | some m => Op.onPart m Prod.snd fun s t => (s.1, t)

def Ledger.completeWith (completion : Completion) (apply : Option (Op GoError τ Unit)) :
    Op GoError (Ledger × τ) CompletionResult := do
  Op.ofExcept completion.key.validate
  let (l, _) ← get
  Op.failIf (l.tombstones.get? completion.key).isSome expiredError
  let digestValue ← Op.ofExcept completion.request.digest
  match l.records.get? completion.key with
  | some current =>
    Op.failIf (current.digest != digestValue) conflictError
    pure (replayResult current)
  | none =>
    Op.ofExcept completion.validateForInsert
    Op.failIf (l.maxOperations ≤ l.records.len + l.tombstones.len) fullError
    callback apply
    let (l, t) ← get
    let record := completion.record digestValue
    set ({ l with records := l.records.set completion.key record }, t)
    pure ⟨.applied, cloneRecord record⟩

/-- Persist a terminal result, or return the one already recorded. -/
def Ledger.complete (completion : Completion) : Op GoError (Ledger × τ) CompletionResult :=
  Ledger.completeWith completion none

/-- The same with one resource mutation between the checks and the write. -/
def Ledger.completeAfter (completion : Completion) (apply : Option (Op GoError τ Unit)) :
    Op GoError (Ledger × τ) CompletionResult := do
  Op.failIf apply.isNone applyRequiredError
  Ledger.completeWith completion apply

end Complete

def Ledger.lookup (key : OperationKey) : Op GoError Ledger Record := do
  Op.ofExcept key.validate
  let l ← get
  Op.failIf (l.tombstones.get? key).isSome expiredError
  let record ← Op.orFail (l.records.get? key) notFoundError
  pure (cloneRecord record)

/-- One turn of the first loop of `GC`: an outcome past its retention leaves a tombstone. -/
def Ledger.expireOne (ttl : Duration) (cutoff : Time) (s : GCResult × Ledger)
    (entry : OperationKey × Record) : GCResult × Ledger :=
  if (entry.2.completedAt.add ttl).after cutoff then s
  else
    ({ s.1 with tombstoned := s.1.tombstoned + 1 },
      { s.2 with
        records := s.2.records.delete entry.1
        tombstones := s.2.tombstones.set entry.1 ⟨entry.2.key, entry.2.digest, cutoff⟩ })

/-- One turn of the second loop: a tombstone past its own retention goes. -/
def Ledger.forgetOne (ttl : Duration) (cutoff : Time) (s : GCResult × Ledger)
    (entry : OperationKey × Tombstone) : GCResult × Ledger :=
  if (entry.2.tombstonedAt.add ttl).after cutoff then s
  else
    ({ s.1 with deleted := s.1.deleted + 1 },
      { s.2 with tombstones := s.2.tombstones.delete entry.1 })

/-- The two loops of `GC`. The second one also visits the tombstones the first has just made. -/
def Ledger.collect (cutoff : Time) (l : Ledger) : GCResult × Ledger :=
  let s := l.records.toList.foldl (Ledger.expireOne l.operationTTL cutoff) (⟨0, 0⟩, l)
  s.2.tombstones.toList.foldl (Ledger.forgetOne l.tombstoneTTL cutoff) s

def Ledger.gc (cutoff : Time) : Op GoError Ledger GCResult := do
  Op.ofExcept (validateUTC "cutoff" cutoff)
  let l ← get
  set (l.collect cutoff).2
  pure (l.collect cutoff).1

end MiniCloud.ControlPlane
