import MiniCloud.Lib.Json.Marshal

/-!
# Base64

`base64.StdEncoding.DecodeString`: line breaks are skipped wherever they stand, then the text is
read four characters at a time, and only the last four may be padded. The bits that the padding
leaves over are dropped, so several texts decode to the same bytes; encoding again tells the one
that `base64` writes from the others.
-/

namespace MiniCloud.Lib.Json

def bPad : UInt8 := 0x3D

/-- The value of a character of the alphabet. -/
def base64Value (b : UInt8) : Option Nat :=
  if base64Alphabet.idxOf b < 64 then some (base64Alphabet.idxOf b) else none

def isLineBreak (b : UInt8) : Bool := b = 0x0A || b = 0x0D

def decodeQuanta : GoString → Option GoString
  | [] => some []
  | a :: b :: c :: d :: rest =>
    match base64Value a, base64Value b with
    | some a, some b =>
      match base64Value c, base64Value d with
      | some c, some d =>
        (decodeQuanta rest).map fun s =>
          (a * 4 + b / 16).toUInt8 :: (b * 16 + c / 4).toUInt8 :: (c * 64 + d).toUInt8 :: s
      | some c, none =>
        if d = bPad ∧ rest = [] then
          some [(a * 4 + b / 16).toUInt8, (b * 16 + c / 4).toUInt8]
        else none
      | none, _ =>
        if c = bPad ∧ d = bPad ∧ rest = [] then some [(a * 4 + b / 16).toUInt8] else none
    | _, _ => none
  | _ => none

def decodeBase64 (s : GoString) : Option GoString := decodeQuanta (s.filter fun b => !isLineBreak b)

example : decodeBase64 "aGVs\nbG8=" = some "hello" ∧ decodeBase64 "Zh==" = some "f" ∧
    decodeBase64 "Zg" = none := by decide +kernel

end MiniCloud.Lib.Json
