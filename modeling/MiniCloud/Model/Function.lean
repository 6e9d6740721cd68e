import MiniCloud.Lib.GoMap
import MiniCloud.Lib.Time
import MiniCloud.Problem

/-!
# Metadata and Functions

`internal/model/metadata.go` and `function.go`. A validator is the list of its tests in source
order, so that its error is the one the source would return first; what acceptance means is then
read off with `checks_ok`.
-/

namespace MiniCloud.Model

open Lib Problem

def defaultNamespace : GoString := "default"

/-- `[A-Za-z0-9._:-]`. -/
def isIdByte (b : UInt8) : Bool := Text.isLetter b || Text.isDigit b || Text.oneOf "._:-" b

/-- `^[A-Za-z0-9._:-]{1,128}$`, the identifier syntax of every package. -/
def idPattern (s : GoString) : Bool := Text.matchClass isIdByte 1 128 s

instance : Inhabited Time := ⟨Time.zero⟩

/-- Embedded by every persistent control-plane object. -/
structure Metadata where
  id : GoString
  ns : GoString
  createdAt : Time
  updatedAt : Time
  createdRaftIndex : UInt64
  resourceRevision : UInt64
  deriving DecidableEq, Inhabited

/-- The common persisted-object contract. -/
def Metadata.validate (m : Metadata) : Validation :=
  checks [
    mustNot (!idPattern m.id) "id" "must contain 1 to 128 allowed characters",
    mustNot (m.ns != defaultNamespace) "namespace" "only default is supported in v1",
    mustNot m.createdAt.isZero "created_at" "is required",
    mustNot (!m.createdAt.isUTC) "created_at" "must use UTC",
    mustNot m.updatedAt.isZero "updated_at" "is required",
    mustNot (!m.updatedAt.isUTC) "updated_at" "must use UTC",
    mustNot (m.updatedAt.before m.createdAt) "updated_at" "must not precede created_at",
    mustNot (m.createdRaftIndex == 0) "created_raft_index" "must be greater than zero",
    mustNot (m.resourceRevision == 0) "resource_revision" "must be greater than zero"]

/-- What a validated object guarantees. -/
structure Metadata.Valid (m : Metadata) : Prop where
  id : idPattern m.id = true
  ns : m.ns = defaultNamespace
  createdAt : m.createdAt.isZero = false ∧ m.createdAt.isUTC = true
  updatedAt : m.updatedAt.isZero = false ∧ m.updatedAt.isUTC = true
  order : m.createdAt.instant ≤ m.updatedAt.instant
  createdRaftIndex : m.createdRaftIndex ≠ 0
  resourceRevision : m.resourceRevision ≠ 0

theorem Metadata.validate_ok {m : Metadata} : m.validate = .ok () ↔ m.Valid := by
  rw [Metadata.validate, checks_ok]
  constructor
  · intro h
    simp at h
    obtain ⟨h1, h2, h3, h4, h5, h6, h7, h8, h9⟩ := h
    exact ⟨h1, h2, ⟨h3, h4⟩, ⟨h5, h6⟩, h7, h8, h9⟩
  · intro h
    simp [h.id, h.ns, h.createdAt, h.updatedAt, h.order, h.createdRaftIndex, h.resourceRevision]

def maxDescriptionBytes : Nat := 512
def maxLabels : Nat := 32
def maxLabelValueBytes : Nat := 256

/-- `^[a-z][a-z0-9-]{0,62}$`. -/
def functionNamePattern (s : GoString) : Bool :=
  Text.matchHeadTail Text.isLower (fun b => Text.isLower b || Text.isDigit b || Text.oneOf "-" b) 62 s

/-- `^[a-z][a-z0-9_.-]{0,62}$`. -/
def labelKeyPattern (s : GoString) : Bool :=
  Text.matchHeadTail Text.isLower
    (fun b => Text.isLower b || Text.isDigit b || Text.oneOf "_.-" b) 62 s

/-- The persisted desired lifecycle of a Function; `other` is an unsupported text. -/
inductive FunctionLifecycle where
  | active
  | disabled
  | deleting
  | tombstoned
  | other (text : GoString)
  deriving DecidableEq

instance : Inhabited FunctionLifecycle := ⟨.other ""⟩

def FunctionLifecycle.valid : FunctionLifecycle → Bool
  | .active | .disabled | .deleting | .tombstoned => true
  | .other _ => false

/-- The stable logical identity addressed by invocation routes. -/
structure Function extends Metadata where
  name : GoString
  description : GoString
  activeRouteRevision : UInt64
  labels : GoMap GoString GoString
  lifecycle : FunctionLifecycle
  deriving DecidableEq

instance : Inhabited Function := ⟨{ (default : Metadata) with
  name := "", description := "", activeRouteRevision := 0, labels := ∅, lifecycle := default }⟩

/-- One pass of the loop over the labels. -/
def validateLabel (key value : GoString) : List (Check GoError) := [
  mustNot (!labelKeyPattern key) "labels" "contains an invalid key",
  mustNot (!Text.validUTF8 value) "labels" "contains a value that is not valid UTF-8",
  mustNot (maxLabelValueBytes < value.length) "labels" "contains a value longer than 256 bytes"]

def Function.validate (f : Function) : Validation := do
  f.toMetadata.validate
  checks <| [
    mustNot (!functionNamePattern f.name) "name" "must match the function name syntax",
    mustNot (!Text.validUTF8 f.description) "description" "must be valid UTF-8",
    mustNot (maxDescriptionBytes < f.description.length) "description" "must not exceed 512 bytes",
    mustNot (maxLabels < f.labels.len) "labels" "must not contain more than 32 entries"] ++
    f.labels.toList.flatMap (fun (key, value) => validateLabel key value) ++ [
    mustNot (!f.lifecycle.valid) "lifecycle" "is not a supported function lifecycle"]

theorem Function.validate_metadata {f : Function} (h : f.validate = .ok ()) : f.toMetadata.Valid :=
  Metadata.validate_ok.mp (seq_ok.mp h).1

end MiniCloud.Model
