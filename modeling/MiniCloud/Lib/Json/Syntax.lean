import Mathlib.Data.Rat.Defs
import Mathlib.Algebra.Field.Rat
import Mathlib.Algebra.Order.Ring.Unbundled.Rat
import MiniCloud.Lib.Text

/-!
# JSON values and their compact text

`Json N` is the tree of a JSON text with numbers of type `N`. A parser produces
`Json Num`, where `Num` keeps the literal as it was spelled: two spellings of one number
are different `Num`s with the same `Num.value`. Strings are the bytes they denote, with
every escape already resolved.

`text` writes a tree without white space. Its string escapes are the short ones for the
five control characters that have one, `\u00xx` for the others, and nothing else: the
choice RFC 8785 makes.
-/

namespace MiniCloud.Lib

/-- A JSON value with numbers in `N`. Members stand in the order of the text. -/
inductive Json (N : Type) where
  | null
  | bool (b : Bool)
  | num (n : N)
  | str (s : GoString)
  | arr (items : List (Json N))
  | obj (members : List (GoString × Json N))

namespace Json

/-! ## Bytes of the grammar -/

def bQuote : UInt8 := 0x22
def bBackslash : UInt8 := 0x5C
def bComma : UInt8 := 0x2C
def bColon : UInt8 := 0x3A
def bLBrace : UInt8 := 0x7B
def bRBrace : UInt8 := 0x7D
def bLBracket : UInt8 := 0x5B
def bRBracket : UInt8 := 0x5D
def bMinus : UInt8 := 0x2D
def bPlus : UInt8 := 0x2B
def bDot : UInt8 := 0x2E
def bZero : UInt8 := 0x30

/-! ## Number literals -/

/-- The exponent of a literal: its letter, its sign if one is written, its digits. -/
structure Exponent where
  upper : Bool
  sign : Option Bool
  digits : GoString
  deriving DecidableEq

/-- A number literal. `frac` is empty when no fraction is written. -/
structure Num where
  neg : Bool
  int : GoString
  frac : GoString
  exp : Option Exponent
  deriving DecidableEq

def Exponent.value (e : Exponent) : Int :=
  if e.sign = some true then -(Text.digitsValue e.digits : Int) else Text.digitsValue e.digits

/-- The rational number a literal denotes. -/
def Num.value (n : Num) : ℚ :=
  let e : Int := (n.exp.map Exponent.value).getD 0 - n.frac.length
  let m : ℚ := (Text.digitsValue (n.int ++ n.frac) : ℚ) * (10 : ℚ) ^ e
  if n.neg then -m else m

def signText : Option Bool → GoString
  | none => []
  | some true => [bMinus]
  | some false => [bPlus]

def fracText (frac : GoString) : GoString := if frac = [] then [] else bDot :: frac

def expText : Option Exponent → GoString
  | none => []
  | some e => (if e.upper then 0x45 else 0x65) :: (signText e.sign ++ e.digits)

def Num.text (n : Num) : GoString :=
  (if n.neg then [bMinus] else []) ++ (n.int ++ (fracText n.frac ++ expText n.exp))

/-- The literals the grammar admits: no empty part, no leading zero. -/
structure Num.WF (n : Num) : Prop where
  int : n.int = [bZero] ∨
    (∃ d ds, n.int = d :: ds ∧ d ≠ bZero) ∧ n.int.all Text.isDigit = true
  frac : n.frac.all Text.isDigit = true
  exp : ∀ e, n.exp = some e → e.digits ≠ [] ∧ e.digits.all Text.isDigit = true

/-! ## Strings -/

/-- The two digits of a `\u00xx` escape. -/
def escapeHi (b : UInt8) : UInt8 := if b < 0x10 then bZero else 0x31

def escapeLo (b : UInt8) : UInt8 :=
  if b &&& 0x0F < 10 then (b &&& 0x0F) + 48 else (b &&& 0x0F) + 87

/-- One byte of a string literal. -/
def escapeByte (b : UInt8) : GoString :=
  if b = bQuote then [bBackslash, bQuote]
  else if b = bBackslash then [bBackslash, bBackslash]
  else if b = 0x08 then [bBackslash, 0x62]
  else if b = 0x09 then [bBackslash, 0x74]
  else if b = 0x0A then [bBackslash, 0x6E]
  else if b = 0x0C then [bBackslash, 0x66]
  else if b = 0x0D then [bBackslash, 0x72]
  else if b < 0x20 then [bBackslash, 0x75, bZero, bZero, escapeHi b, escapeLo b]
  else [b]

def escape : GoString → GoString
  | [] => []
  | b :: rest => escapeByte b ++ escape rest

/-- A string literal. -/
def quoted (s : GoString) : GoString := bQuote :: (escape s ++ [bQuote])

/-! ## Text -/

def litNull : GoString := [0x6E, 0x75, 0x6C, 0x6C]
def litTrue : GoString := [0x74, 0x72, 0x75, 0x65]
def litFalse : GoString := [0x66, 0x61, 0x6C, 0x73, 0x65]

mutual

/-- The compact text of a value. -/
def text : Json Num → GoString
  | .null => litNull
  | .bool true => litTrue
  | .bool false => litFalse
  | .num n => n.text
  | .str s => quoted s
  | .arr [] => [bLBracket, bRBracket]
  | .arr (v :: vs) => bLBracket :: (text v ++ textItems vs)
  | .obj [] => [bLBrace, bRBrace]
  | .obj ((k, v) :: ms) => bLBrace :: (quoted k ++ bColon :: (text v ++ textMembers ms))

/-- The items after the first, with the closing bracket. -/
def textItems : List (Json Num) → GoString
  | [] => [bRBracket]
  | v :: vs => bComma :: (text v ++ textItems vs)

/-- The members after the first, with the closing brace. -/
def textMembers : List (GoString × Json Num) → GoString
  | [] => [bRBrace]
  | (k, v) :: ms => bComma :: (quoted k ++ bColon :: (text v ++ textMembers ms))

end

/-! ## Numbers throughout a tree -/

mutual

def map {N M : Type} (f : N → M) : Json N → Json M
  | .null => .null
  | .bool b => .bool b
  | .num n => .num (f n)
  | .str s => .str s
  | .arr items => .arr (mapItems f items)
  | .obj members => .obj (mapMembers f members)

def mapItems {N M : Type} (f : N → M) : List (Json N) → List (Json M)
  | [] => []
  | v :: vs => map f v :: mapItems f vs

def mapMembers {N M : Type} (f : N → M) : List (GoString × Json N) → List (GoString × Json M)
  | [] => []
  | (k, v) :: ms => (k, map f v) :: mapMembers f ms

end

mutual

/-- Every number of the tree satisfies `P`. -/
def Nums {N : Type} (P : N → Prop) : Json N → Prop
  | .null => True
  | .bool _ => True
  | .num n => P n
  | .str _ => True
  | .arr items => NumsItems P items
  | .obj members => NumsMembers P members

def NumsItems {N : Type} (P : N → Prop) : List (Json N) → Prop
  | [] => True
  | v :: vs => Nums P v ∧ NumsItems P vs

def NumsMembers {N : Type} (P : N → Prop) : List (GoString × Json N) → Prop
  | [] => True
  | (_, v) :: ms => Nums P v ∧ NumsMembers P ms

end

mutual

/-- No object of the tree names a member twice. -/
def Unique {N : Type} : Json N → Prop
  | .null => True
  | .bool _ => True
  | .num _ => True
  | .str _ => True
  | .arr items => UniqueItems items
  | .obj members => (members.map Prod.fst).Nodup ∧ UniqueMembers members

def UniqueItems {N : Type} : List (Json N) → Prop
  | [] => True
  | v :: vs => Unique v ∧ UniqueItems vs

def UniqueMembers {N : Type} : List (GoString × Json N) → Prop
  | [] => True
  | (_, v) :: ms => Unique v ∧ UniqueMembers ms

end

section Decidable

variable {N : Type} (P : N → Prop) [DecidablePred P]

mutual

def decNums : (v : Json N) → Decidable (Nums P v)
  | .null => .isTrue trivial
  | .bool _ => .isTrue trivial
  | .num n => inferInstanceAs (Decidable (P n))
  | .str _ => .isTrue trivial
  | .arr items => decNumsItems items
  | .obj members => decNumsMembers members

def decNumsItems : (vs : List (Json N)) → Decidable (NumsItems P vs)
  | [] => .isTrue trivial
  | v :: vs => @instDecidableAnd _ _ (decNums v) (decNumsItems vs)

def decNumsMembers : (ms : List (GoString × Json N)) → Decidable (NumsMembers P ms)
  | [] => .isTrue trivial
  | (_, v) :: ms => @instDecidableAnd _ _ (decNums v) (decNumsMembers ms)

end

mutual

def decUnique : (v : Json N) → Decidable (Unique v)
  | .null => .isTrue trivial
  | .bool _ => .isTrue trivial
  | .num _ => .isTrue trivial
  | .str _ => .isTrue trivial
  | .arr items => decUniqueItems items
  | .obj members =>
    @instDecidableAnd _ _ (inferInstanceAs (Decidable (members.map Prod.fst).Nodup))
      (decUniqueMembers members)

def decUniqueItems : (vs : List (Json N)) → Decidable (UniqueItems vs)
  | [] => .isTrue trivial
  | v :: vs => @instDecidableAnd _ _ (decUnique v) (decUniqueItems vs)

def decUniqueMembers : (ms : List (GoString × Json N)) → Decidable (UniqueMembers ms)
  | [] => .isTrue trivial
  | (_, v) :: ms => @instDecidableAnd _ _ (decUnique v) (decUniqueMembers ms)

end

instance : DecidablePred (Nums P) := decNums P

instance : DecidablePred (Unique (N := N)) := decUnique

end Decidable

end Json

end MiniCloud.Lib
