import MiniCloud.Lib.Json.Base64
import MiniCloud.Lib.Json.Members
import MiniCloud.Model.Function

/-!
# Envelopes of the invocation protocol

`sdk/go/minicloudabi`: the request a fresh WASI Command instance reads and the response it writes,
each one JSON value. A map or a slice of it can be nil, which the encoder writes as `null` and the
checks refuse, so both are an `Option`; whether a body is nil or empty is nowhere observed.

The typed decoder works on the parsed value. The texts of `encoding/json`'s own errors are left
out, and an error found inside the typed decoder is one outcome.
-/

namespace MiniCloud.Abi

open Lib Problem

def version : GoString := "1.0"

/-- The immutable trigger revision that created an invocation. -/
structure Trigger where
  type : GoString
  id : GoString
  resourceRevision : UInt64
  fireID : GoString
  scheduledTimeUTC : GoString
  receiptID : GoString
  eventID : GoString
  sourceID : GoString
  eventType : GoString
  occurredAt : GoString
  contentType : GoString
  deriving DecidableEq

/-- `map[string][]string`, the type of a query and of both kinds of headers. -/
abbrev Fields := Option (GoMap GoString (Option (List GoString)))

structure Request where
  specVersion : GoString
  invocationID : GoString
  method : GoString
  path : GoString
  query : Fields
  headers : Fields
  body : GoString
  deadlineUnixMS : Int64
  trigger : Trigger
  deriving DecidableEq

structure Response where
  specVersion : GoString
  status : Int
  headers : Fields
  body : GoString
  deriving DecidableEq

/-! ## Encoding -/

/-- A slice of strings. -/
def valuesJSON : Option (List GoString) → Json Json.Num :=
  .ofOption fun values => .arr (values.map .str)

def fieldsJSON : Fields → Json Json.Num := .ofOption (Json.ofMap valuesJSON)

def Trigger.members (t : Trigger) : List (GoString × Json Json.Num) :=
  Json.present [
    ("type", some (.str t.type)),
    ("id", some (.str t.id)),
    ("resource_revision", Json.omitZero t.resourceRevision.toNat),
    ("fire_id", Json.omitEmpty t.fireID),
    ("scheduled_time_utc", Json.omitEmpty t.scheduledTimeUTC),
    ("receipt_id", Json.omitEmpty t.receiptID),
    ("event_id", Json.omitEmpty t.eventID),
    ("source_id", Json.omitEmpty t.sourceID),
    ("event_type", Json.omitEmpty t.eventType),
    ("occurred_at", Json.omitEmpty t.occurredAt),
    ("content_type", Json.omitEmpty t.contentType)]

/-- `Request.MarshalJSON`. -/
def Request.toJSON (r : Request) : Json Json.Num :=
  .obj [
    ("spec_version", .str r.specVersion),
    ("invocation_id", .str r.invocationID),
    ("method", .str r.method),
    ("path", .str r.path),
    ("query", fieldsJSON r.query),
    ("headers", fieldsJSON r.headers),
    ("body_base64", .str (Json.base64 r.body)),
    ("deadline_unix_ms", .ofInt r.deadlineUnixMS.toInt),
    ("trigger", .obj r.trigger.members)]

/-- `Response.MarshalJSON`. -/
def Response.toJSON (r : Response) : Json Json.Num :=
  .obj [
    ("spec_version", .str r.specVersion),
    ("status", .ofInt r.status),
    ("headers", fieldsJSON r.headers),
    ("body_base64", .str (Json.base64 r.body))]

/-! ## Headers and query -/

/-- A character of `[!#$%&'*+.^_|~0-9A-Za-z-]` or a backtick. -/
def isTokenByte (b : UInt8) : Bool :=
  Text.isLetter b || Text.isDigit b || Text.oneOf "!#$%&'*+.^_`|~-" b

def headerNamePattern (s : GoString) : Bool := s != [] && s.all isTokenByte

/-- The strings of an array. -/
def decodeStrings (field : GoString) : List (Json Json.Num) → Except GoError (List GoString)
  | [] => .ok []
  | .str s :: rest => do return s :: (← decodeStrings field rest)
  | _ :: _ => .error (.text ("minicloudabi: " ++ field ++ " must contain only strings"))

def decodeStringArray (v : Json Json.Num) (field : GoString) : Except GoError (List GoString) :=
  match v with
  | .null => .error (.text ("minicloudabi: " ++ field ++ " must be an array"))
  | .arr items => decodeStrings field items
  | _ => .error (.text ("minicloudabi: decoding " ++ field))

/-- `append(old, values...)`: a nil slice stays nil when nothing is appended. -/
def appendValues (old : Option (List GoString)) (values : List GoString) :
    Option (List GoString) :=
  if old = none ∧ values = [] then none else some (old.getD [] ++ values)

/-- The loop of `decodeHeaders`, with the names seen so far and the fields collected. -/
def decodeHeaderMembers (mergeCase : Bool) :
    List (GoString × Json Json.Num) → List GoString → GoMap GoString (Option (List GoString)) →
      Except GoError (GoMap GoString (Option (List GoString)))
  | [], _, fields => .ok fields
  | (name, v) :: rest, exact, fields => do
    checks [
      ⟨!headerNamePattern name, .text "minicloudabi: invalid header name"⟩,
      ⟨exact.contains name, .text "minicloudabi: duplicate header name"⟩]
    let values ← decodeStringArray v "header values"
    let normalized := Text.toLower name
    checks [⟨(fields.get? normalized).isSome && !mergeCase,
      .text "minicloudabi: response contains case-colliding header names"⟩]
    decodeHeaderMembers mergeCase rest (name :: exact)
      (fields.set normalized (appendValues (fields.get? normalized).join values))

def decodeHeaders (v : Json Json.Num) (mergeCase : Bool) :
    Except GoError (GoMap GoString (Option (List GoString))) :=
  match v with
  | .obj members => decodeHeaderMembers mergeCase members [] ∅
  | _ => .error (.text "minicloudabi: headers must be an object")

def decodeStringMembers (field : GoString) :
    List (GoString × Json Json.Num) → GoMap GoString (Option (List GoString)) →
      Except GoError (GoMap GoString (Option (List GoString)))
  | [], valuesByName => .ok valuesByName
  | (name, v) :: rest, valuesByName => do
    let values ← decodeStringArray v (field ++ " values")
    decodeStringMembers field rest (valuesByName.set name (some values))

def decodeStringMap (v : Json Json.Num) (field : GoString) :
    Except GoError (GoMap GoString (Option (List GoString))) :=
  match v with
  | .obj members => decodeStringMembers field members ∅
  | _ => .error (.text ("minicloudabi: " ++ field ++ " must be an object"))

/-! ## Decoding -/

/-- The decoder of a type with an `UnmarshalJSON` of its own: it also gets `null`. -/
def unmarshaler (unmarshal : Json Json.Num →
    Except GoError (GoMap GoString (Option (List GoString)))) (v : Json Json.Num) (_ : Fields) :
    Option Fields :=
  (unmarshal v).toOption.map some

structure RequestWire where
  specVersion : GoString
  invocationID : GoString
  method : GoString
  path : GoString
  query : Fields
  headers : Fields
  bodyBase64 : Option GoString
  deadlineUnixMS : Int64
  trigger : Trigger

structure ResponseWire where
  specVersion : GoString
  status : Int
  headers : Fields
  bodyBase64 : Option GoString

def triggerFields : List (Json.Field Trigger) := [
  .of "type" (·.type) (fun x t => { t with type := x }) Json.decodeString,
  .of "id" (·.id) (fun x t => { t with id := x }) Json.decodeString,
  .of "resource_revision" (·.resourceRevision.toNat)
    (fun x t => { t with resourceRevision := UInt64.ofNat x }) (Json.decodeUint 64),
  .of "fire_id" (·.fireID) (fun x t => { t with fireID := x }) Json.decodeString,
  .of "scheduled_time_utc" (·.scheduledTimeUTC) (fun x t => { t with scheduledTimeUTC := x })
    Json.decodeString,
  .of "receipt_id" (·.receiptID) (fun x t => { t with receiptID := x }) Json.decodeString,
  .of "event_id" (·.eventID) (fun x t => { t with eventID := x }) Json.decodeString,
  .of "source_id" (·.sourceID) (fun x t => { t with sourceID := x }) Json.decodeString,
  .of "event_type" (·.eventType) (fun x t => { t with eventType := x }) Json.decodeString,
  .of "occurred_at" (·.occurredAt) (fun x t => { t with occurredAt := x }) Json.decodeString,
  .of "content_type" (·.contentType) (fun x t => { t with contentType := x }) Json.decodeString]

def requestFields : List (Json.Field RequestWire) := [
  .of "spec_version" (·.specVersion) (fun x w => { w with specVersion := x }) Json.decodeString,
  .of "invocation_id" (·.invocationID) (fun x w => { w with invocationID := x })
    Json.decodeString,
  .of "method" (·.method) (fun x w => { w with method := x }) Json.decodeString,
  .of "path" (·.path) (fun x w => { w with path := x }) Json.decodeString,
  .of "query" (·.query) (fun x w => { w with query := x })
    (unmarshaler fun v => decodeStringMap v "query"),
  .of "headers" (·.headers) (fun x w => { w with headers := x })
    (unmarshaler fun v => decodeHeaders v true),
  .of "body_base64" (·.bodyBase64) (fun x w => { w with bodyBase64 := x })
    Json.decodeStringPointer,
  .of "deadline_unix_ms" (·.deadlineUnixMS.toInt)
    (fun x w => { w with deadlineUnixMS := Int64.ofInt x }) Json.decodeInt64,
  .of "trigger" (·.trigger) (fun x w => { w with trigger := x })
    (Json.decodeStruct triggerFields)]

def responseFields : List (Json.Field ResponseWire) := [
  .of "spec_version" (·.specVersion) (fun x w => { w with specVersion := x }) Json.decodeString,
  .of "status" (·.status) (fun x w => { w with status := x }) Json.decodeInt64,
  .of "headers" (·.headers) (fun x w => { w with headers := x })
    (unmarshaler fun v => decodeHeaders v false),
  .of "body_base64" (·.bodyBase64) (fun x w => { w with bodyBase64 := x })
    Json.decodeStringPointer]

def zeroTrigger : Trigger := ⟨[], [], 0, [], [], [], [], [], [], [], []⟩

def zeroRequestWire : RequestWire := ⟨[], [], [], [], none, none, none, 0, zeroTrigger⟩

def zeroResponseWire : ResponseWire := ⟨[], 0, none, none⟩

def decodeCanonicalBase64 (encoded : GoString) : Except GoError GoString :=
  match Json.decodeBase64 encoded with
  | none => .error (.text "body_base64 is not standard padded base64")
  | some decoded =>
    if Json.base64 decoded ≠ encoded then .error (.text "body_base64 is not canonical")
    else .ok decoded

/-- What both `UnmarshalJSON` methods do with the body. -/
def decodeBody (context : GoString) (bodyBase64 : Option GoString) : Except GoError GoString :=
  match bodyBase64 with
  | none => .error (.text "minicloudabi: body_base64 must be a string")
  | some encoded => wrapping context (decodeCanonicalBase64 encoded)

/-- `decodeKnownFields`: unknown fields are refused, and so is anything behind the value. -/
def decodeKnownFields {α : Type} (fields : List (Json.Field α)) (data : GoString) (zero : α) :
    Except GoError α :=
  orError ((Json.parse .replace data).bind fun v => Json.decodeStruct fields v zero)
    (.text "json: cannot unmarshal")

/-- `Request.UnmarshalJSON`. -/
def unmarshalRequest (data : GoString) : Except GoError Request := do
  let wire ← decodeKnownFields requestFields data zeroRequestWire
  let body ← decodeBody "minicloudabi: decoding request body" wire.bodyBase64
  return {
    specVersion := wire.specVersion
    invocationID := wire.invocationID
    method := wire.method
    path := wire.path
    query := wire.query
    headers := wire.headers
    body := body
    deadlineUnixMS := wire.deadlineUnixMS
    trigger := wire.trigger }

/-- `Response.UnmarshalJSON`. -/
def unmarshalResponse (data : GoString) : Except GoError Response := do
  let wire ← decodeKnownFields responseFields data zeroResponseWire
  let body ← decodeBody "minicloudabi: decoding response body" wire.bodyBase64
  return {
    specVersion := wire.specVersion
    status := wire.status
    headers := wire.headers
    body := body }

end MiniCloud.Abi
