import MiniCloud.Lib.Json.Parse
import MiniCloud.Problem

/-!
# Strict JSON

`internal/strictjson`, on top of the token stream of `encoding/json`'s `Decoder`. The decoder is
the standard library's own state machine: `token` returns the next token and moves the state,
`more` only looks ahead. Commas and colons are consumed inside `token`, in the states that expect
them, and never returned.

The validator walks the tokens with a recursion the data bounds only from outside, so it runs on
fuel: two units for each byte, where one token already takes a byte.
-/

namespace MiniCloud.StrictJson

open Lib Problem

/-! ## The decoder -/

inductive TokenState where
  | topValue
  | arrayStart
  | arrayValue
  | arrayComma
  | objectStart
  | objectKey
  | objectColon
  | objectValue
  | objectComma
  deriving DecidableEq

structure Decoder where
  rest : GoString
  state : TokenState
  stack : List TokenState
  deriving DecidableEq

inductive Token where
  | delim (b : UInt8)
  | str (s : GoString)
  /-- A number, boolean or null; `Validate` only needs to know that it is no delimiter. -/
  | scalar
  deriving DecidableEq

inductive TokenError where
  /-- `io.EOF`: the input ended between tokens. -/
  | eof
  | malformed
  deriving DecidableEq

namespace Decoder

def new (data : GoString) : Decoder := ⟨data, .topValue, []⟩

def valueAllowed (d : Decoder) : Bool :=
  d.state = .topValue || d.state = .arrayStart || d.state = .arrayValue || d.state = .objectValue

/-- The state after a complete value. -/
def TokenState.valueEnd : TokenState → TokenState
  | .arrayStart | .arrayValue => .arrayComma
  | .objectValue => .objectComma
  | s => s

/-- A scalar read by `Decode`. -/
def scalar (bs : GoString) : Option (Token × GoString) :=
  match bs with
  | [] => none
  | b :: rest =>
    if b = Json.bQuote then
      (Json.scanString .replace rest.length rest).map fun (s, r) => (.str s, r)
    else if b = 0x6E then (Json.scanLit Json.litNull bs).map fun r => (.scalar, r)
    else if b = 0x74 then (Json.scanLit Json.litTrue bs).map fun r => (.scalar, r)
    else if b = 0x66 then (Json.scanLit Json.litFalse bs).map fun r => (.scalar, r)
    else (Json.scanNum bs).map fun (_, r) => (.scalar, r)

/-- Push the state and enter a container. -/
def enter (d : Decoder) (b : UInt8) (rest : GoString) (start : TokenState) :
    Except TokenError (Token × Decoder) :=
  if d.valueAllowed then .ok (.delim b, ⟨rest, start, d.state :: d.stack⟩) else .error .malformed

/-- Leave a container. The stack is never empty here: only `enter` produces these states. -/
def leave (d : Decoder) (b : UInt8) (rest : GoString) (allowed : Bool) :
    Except TokenError (Token × Decoder) :=
  match allowed, d.stack with
  | true, s :: stack => .ok (.delim b, ⟨rest, TokenState.valueEnd s, stack⟩)
  | _, _ => .error .malformed

/-- A value, or a name where a name is due. -/
def value (d : Decoder) (bs : GoString) : Except TokenError (Token × Decoder) :=
  match scalar bs with
  | none => .error .malformed
  | some (t, rest) =>
    if bs.head? = some Json.bQuote ∧ (d.state = .objectStart ∨ d.state = .objectKey) then
      .ok (t, ⟨rest, .objectColon, d.stack⟩)
    else if d.valueAllowed then .ok (t, ⟨rest, TokenState.valueEnd d.state, d.stack⟩)
    else .error .malformed

/-- `Decoder.Token`. The loop turns at most twice: after one separator the state has none left. -/
def tokenLoop : Nat → Decoder → Except TokenError (Token × Decoder)
  | 0, _ => .error .malformed
  | n + 1, d =>
    match Json.skipSpace d.rest with
    | [] => .error .eof
    | b :: rest =>
      if b = Json.bLBracket then d.enter b rest .arrayStart
      else if b = Json.bRBracket then
        d.leave b rest (d.state = .arrayStart || d.state = .arrayComma)
      else if b = Json.bLBrace then d.enter b rest .objectStart
      else if b = Json.bRBrace then
        d.leave b rest (d.state = .objectStart || d.state = .objectComma)
      else if b = Json.bColon then
        if d.state = .objectColon then tokenLoop n { d with rest := rest, state := .objectValue }
        else .error .malformed
      else if b = Json.bComma then
        if d.state = .arrayComma then tokenLoop n { d with rest := rest, state := .arrayValue }
        else if d.state = .objectComma then tokenLoop n { d with rest := rest, state := .objectKey }
        else .error .malformed
      else d.value (b :: rest)

def token (d : Decoder) : Except TokenError (Token × Decoder) := tokenLoop 3 d

def more (d : Decoder) : Bool :=
  match Json.skipSpace d.rest with
  | [] => false
  | b :: _ => b != Json.bRBracket && b != Json.bRBrace

end Decoder

/-! ## Validation -/

def errTooDeep : GoError := .text "json input exceeds depth limit"
def errDuplicateKey : GoError := .text "json object contains duplicate key"

/-- The decoder's own error; its text is not part of the model. -/
def TokenError.error : TokenError → GoError
  | .eof => .text "EOF"
  | .malformed => .text "invalid character"

def consumeClosing (d : Decoder) (expected : UInt8) : Except GoError Decoder :=
  match d.token with
  | .error e => .error (.wrap "reading json closing delimiter" e.error)
  | .ok (t, d) =>
    if t = .delim expected then .ok d
    else .error (.text "json input contains mismatched delimiter")

mutual

def validateValue (maxDepth : Nat) : Nat → Nat → Decoder → Except GoError Decoder
  | 0, _, _ => .error (.text "out of fuel")
  | n + 1, depth, d =>
    match d.token with
    | .error e => .error (.wrap "reading json token" e.error)
    | .ok (.delim b, d) =>
      if maxDepth < depth + 1 then .error errTooDeep
      else if b = Json.bLBrace then validateObject maxDepth n (depth + 1) [] d
      else if b = Json.bLBracket then validateArray maxDepth n (depth + 1) d
      else .error (.text "json input contains unexpected closing delimiter")
    | .ok (_, d) => .ok d

def validateObject (maxDepth : Nat) : Nat → Nat → List GoString → Decoder → Except GoError Decoder
  | 0, _, _, _ => .error (.text "out of fuel")
  | n + 1, depth, keys, d =>
    if d.more then
      match d.token with
      | .error e => .error (.wrap "reading json object key" e.error)
      | .ok (.str key, d) =>
        if key ∈ keys then .error (.wrap key errDuplicateKey)
        else
          match validateValue maxDepth n depth d with
          | .error e => .error e
          | .ok d => validateObject maxDepth n depth (key :: keys) d
      | .ok _ => .error (.text "json object key is not a string")
    else consumeClosing d Json.bRBrace

def validateArray (maxDepth : Nat) : Nat → Nat → Decoder → Except GoError Decoder
  | 0, _, _ => .error (.text "out of fuel")
  | n + 1, depth, d =>
    if d.more then
      match validateValue maxDepth n depth d with
      | .error e => .error e
      | .ok d => validateArray maxDepth n depth d
    else consumeClosing d Json.bRBracket

end

/-- Reject invalid UTF-8, deep nesting, duplicate keys, several roots and malformed JSON. -/
def validate (data : GoString) (maxDepth : Int) : Validation :=
  if maxDepth < 1 then .error (.text "json depth limit must be positive")
  else if !Text.validUTF8 data then .error (.text "json input is not valid utf-8")
  else
    match validateValue maxDepth.toNat (2 * data.length + 2) 0 (Decoder.new data) with
    | .error e => .error e
    | .ok d =>
      match d.token with
      | .error .eof => .ok ()
      | .error e => .error (.wrap "reading json trailing data" e.error)
      | .ok _ => .error (.text "json input contains multiple values")

end MiniCloud.StrictJson
