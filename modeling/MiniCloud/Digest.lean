import MiniCloud.Lib.Json.Records
import MiniCloud.Lib.Sha256
import MiniCloud.Problem

/-!
# Digests

`internal/digest`: self-describing SHA-256 texts and the domain-separated digest of a JSON
value. Every caller of `CanonicalJSON` passes what `json.Marshal` has just written, so the model
takes the tree of that text; `transform` is the RFC 8785 step between the tree and the bytes that
are hashed. The source leaves that step to the package `jcs`, which is not part of it: that
`jcs.Transform` is RFC 8785 is an assumption, and all that is said of canonical texts rests on it.
-/

namespace MiniCloud.Digest

open Lib Problem

/-- A lowercase, self-describing SHA-256 digest. It is a string type: nothing is checked. -/
abbrev SHA256 := GoString

def scheme : GoString := "sha256:"

/-- `^sha256:[0-9a-f]{64}$`. -/
def encodedPattern (value : GoString) : Bool :=
  value.take 7 == scheme && Text.matchClass Text.isLowerHex 64 64 (value.drop 7)

def parseSHA256 (value : GoString) : Except GoError SHA256 :=
  if encodedPattern value then .ok value else .error (.text "invalid sha256 digest")

/-- Hash opaque bytes without protocol domain separation. -/
def sum (data : GoString) : SHA256 := scheme ++ Sha256.hex (Sha256.hash data)

def domainTag : GoString := "minicloud\x00"

/-- The bytes hashed for a canonical text in a versioned protocol domain. -/
def preimage (domain schemaVersion canonical : GoString) : GoString :=
  domainTag ++ domain ++ [0] ++ schemaVersion ++ [0] ++ canonical

def canonicalJSON (domain schemaVersion : GoString) (source : Json Json.Num) :
    Except GoError SHA256 :=
  if domain = [] then .error (.text "digest domain is required")
  else if schemaVersion = [] then .error (.text "digest schema version is required")
  else
    match Json.transform source with
    | none => .error (.wrap "canonicalizing json" (.text "invalid json"))
    | some canonical => .ok (sum (preimage domain schemaVersion canonical))

theorem sum_pattern (data : GoString) : encodedPattern (sum data) = true := by
  have hlen : scheme.length = 7 := by decide
  have htake : (sum data).take 7 = scheme := by
    rw [sum, ← hlen]
    exact List.take_left
  have hdrop : (sum data).drop 7 = Sha256.hex (Sha256.hash data) := by
    rw [sum, ← hlen]
    exact List.drop_left
  have hhex : (Sha256.hex (Sha256.hash data)).length = 64 := by
    rw [Sha256.hex_length, Sha256.hash_length]
  simp [encodedPattern, htake, hdrop, Text.matchClass, hhex, Sha256.hex_all]

/-- In a named domain, the digest of an accepted tree exists. -/
theorem canonicalJSON_exists {domain schemaVersion : GoString} {source : Json Json.Num}
    (hdomain : domain ≠ []) (hversion : schemaVersion ≠ []) (hsource : source.Accepted) :
    ∃ d, canonicalJSON domain schemaVersion source = .ok d ∧ encodedPattern d = true := by
  obtain ⟨text, htext⟩ := hsource.transform
  refine ⟨_, ?_, sum_pattern (preimage domain schemaVersion text)⟩
  rw [canonicalJSON, if_neg hdomain, if_neg hversion, htext]

/-- Equal domains and versions contribute equal bytes, so only the canonical texts are compared. -/
theorem preimage_inj {domain schemaVersion s t : GoString}
    (h : preimage domain schemaVersion s = preimage domain schemaVersion t) : s = t :=
  List.append_cancel_left h

end MiniCloud.Digest
