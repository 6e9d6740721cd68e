import MiniCloud.Lib.Json.Syntax

/-!
# Parsing JSON texts

A recursive-descent parser for RFC 8259 texts. The readers disagree about one thing only:
a `\u` escape that is half of a surrogate pair is an error to an RFC 8785 reader and the
replacement character to Go's `encoding/json`, which is what `Lone` chooses.

The recursion is on fuel, and `parse` gives one unit for each byte of the text and one more,
which is more than any text needs: a value, and an item or member of one, has at least one
byte of its own.
-/

namespace MiniCloud.Lib.Json

/-- What an unpaired surrogate escape means. -/
inductive Lone where
  | reject
  | replace

def isSpace (b : UInt8) : Bool := b = 0x20 || b = 0x09 || b = 0x0A || b = 0x0D

def skipSpace : GoString → GoString := List.dropWhile isSpace

/-! ## Strings -/

def hexValue (b : UInt8) : Option Nat :=
  if Text.isDigit b then some (b.toNat - 48)
  else if 0x61 ≤ b ∧ b ≤ 0x66 then some (b.toNat - 87)
  else if 0x41 ≤ b ∧ b ≤ 0x46 then some (b.toNat - 55)
  else none

/-- The four digits of a `\u` escape. -/
def scanHex4 : GoString → Option (Nat × GoString)
  | a :: b :: c :: d :: rest =>
    match hexValue a, hexValue b, hexValue c, hexValue d with
    | some w, some x, some y, some z => some (((w * 16 + x) * 16 + y) * 16 + z, rest)
    | _, _, _, _ => none
  | _ => none

/-- The UTF-8 bytes of a code point. -/
def encodeRune (r : Nat) : GoString :=
  if r < 0x80 then [r.toUInt8]
  else if r < 0x800 then [(0xC0 + r / 64).toUInt8, (0x80 + r % 64).toUInt8]
  else if r < 0x10000 then
    [(0xE0 + r / 4096).toUInt8, (0x80 + r / 64 % 64).toUInt8, (0x80 + r % 64).toUInt8]
  else
    [(0xF0 + r / 262144).toUInt8, (0x80 + r / 4096 % 64).toUInt8,
      (0x80 + r / 64 % 64).toUInt8, (0x80 + r % 64).toUInt8]

/-- A `\u` escape after its `u`: the bytes it stands for and what follows. -/
def scanUnicode (p : Lone) (bs : GoString) : Option (GoString × GoString) :=
  match scanHex4 bs with
  | none => none
  | some (r, rest) =>
    if r < 0xD800 ∨ 0xDFFF < r then some (encodeRune r, rest)
    else
      let lone : Option (GoString × GoString) :=
        match p with
        | .reject => none
        | .replace => some (Text.replacement, rest)
      match rest with
      | b :: u :: more =>
        if b = bBackslash ∧ u = 0x75 ∧ r < 0xDC00 then
          match scanHex4 more with
          | none => none
          | some (l, after) =>
            if 0xDC00 ≤ l ∧ l ≤ 0xDFFF then
              some (encodeRune ((r - 0xD800) * 1024 + (l - 0xDC00) + 0x10000), after)
            else lone
        else lone
      | _ => lone

/-- A two-character escape. -/
def shortEscape (b : UInt8) : Option UInt8 :=
  if b = bQuote ∨ b = bBackslash ∨ b = 0x2F then some b
  else if b = 0x62 then some 0x08
  else if b = 0x66 then some 0x0C
  else if b = 0x6E then some 0x0A
  else if b = 0x72 then some 0x0D
  else if b = 0x74 then some 0x09
  else none

/-- A string literal after its opening quote. -/
def scanString (p : Lone) : Nat → GoString → Option (GoString × GoString)
  | 0, _ => none
  | _ + 1, [] => none
  | n + 1, b :: rest =>
    if b = bQuote then some ([], rest)
    else if b < 0x20 then none
    else if b ≠ bBackslash then (scanString p n rest).map fun (s, r) => (b :: s, r)
    else
      match rest with
      | [] => none
      | e :: more =>
        if e = 0x75 then
          match scanUnicode p more with
          | none => none
          | some (u, after) => (scanString p n after).map fun (s, r) => (u ++ s, r)
        else
          match shortEscape e with
          | none => none
          | some c => (scanString p n more).map fun (s, r) => (c :: s, r)

/-! ## Numbers -/

def scanDigits (bs : GoString) : GoString × GoString :=
  (bs.takeWhile Text.isDigit, bs.dropWhile Text.isDigit)

/-- The integer part: a zero alone, or digits that do not start with one. -/
def scanInt : GoString → Option (GoString × GoString)
  | [] => none
  | b :: rest =>
    if b = bZero then some ([bZero], rest)
    else if Text.isDigit b then some (b :: (scanDigits rest).1, (scanDigits rest).2)
    else none

def scanFrac : GoString → Option (GoString × GoString)
  | [] => some ([], [])
  | b :: rest =>
    if b = bDot then
      if (scanDigits rest).1 = [] then none else some (scanDigits rest)
    else some ([], b :: rest)

def scanSign : GoString → Option Bool × GoString
  | [] => (none, [])
  | b :: rest =>
    if b = bMinus then (some true, rest)
    else if b = bPlus then (some false, rest)
    else (none, b :: rest)

def scanExp : GoString → Option (Option Exponent × GoString)
  | [] => some (none, [])
  | b :: rest =>
    if b = 0x65 ∨ b = 0x45 then
      match scanSign rest with
      | (sign, r) =>
        if (scanDigits r).1 = [] then none
        else some (some ⟨b = 0x45, sign, (scanDigits r).1⟩, (scanDigits r).2)
    else some (none, b :: rest)

def scanMinus : GoString → Bool × GoString
  | [] => (false, [])
  | b :: rest => if b = bMinus then (true, rest) else (false, b :: rest)

def scanNum (bs : GoString) : Option (Num × GoString) :=
  match scanInt (scanMinus bs).2 with
  | none => none
  | some (int, r) =>
    match scanFrac r with
    | none => none
    | some (frac, r) =>
      match scanExp r with
      | none => none
      | some (exp, r) => some (⟨(scanMinus bs).1, int, frac, exp⟩, r)

/-! ## Values -/

/-- The rest of a literal name. -/
def scanLit : GoString → GoString → Option GoString
  | [], bs => some bs
  | c :: cs, b :: bs => if b = c then scanLit cs bs else none
  | _ :: _, [] => none

mutual

def parseValue (p : Lone) : Nat → GoString → Option (Json Num × GoString)
  | 0, _ => none
  | n + 1, bs =>
    match skipSpace bs with
    | [] => none
    | b :: rest =>
      if b = bQuote then (scanString p rest.length rest).map fun (s, r) => (.str s, r)
      else if b = bLBrace then
        match skipSpace rest with
        | [] => none
        | c :: r =>
          if c = bRBrace then some (.obj [], r)
          else (parseMembers p n (c :: r)).map fun (ms, r) => (.obj ms, r)
      else if b = bLBracket then
        match skipSpace rest with
        | [] => none
        | c :: r =>
          if c = bRBracket then some (.arr [], r)
          else (parseItems p n (c :: r)).map fun (vs, r) => (.arr vs, r)
      else if b = 0x6E then (scanLit litNull (b :: rest)).map fun r => (.null, r)
      else if b = 0x74 then (scanLit litTrue (b :: rest)).map fun r => (.bool true, r)
      else if b = 0x66 then (scanLit litFalse (b :: rest)).map fun r => (.bool false, r)
      else (scanNum (b :: rest)).map fun (m, r) => (.num m, r)

/-- The items of an array, with its closing bracket. -/
def parseItems (p : Lone) : Nat → GoString → Option (List (Json Num) × GoString)
  | 0, _ => none
  | n + 1, bs =>
    match parseValue p n bs with
    | none => none
    | some (v, r) =>
      match skipSpace r with
      | [] => none
      | c :: r =>
        if c = bComma then (parseItems p n r).map fun (vs, r) => (v :: vs, r)
        else if c = bRBracket then some ([v], r)
        else none

/-- The members of an object, with its closing brace. -/
def parseMembers (p : Lone) : Nat → GoString → Option (List (GoString × Json Num) × GoString)
  | 0, _ => none
  | n + 1, bs =>
    match skipSpace bs with
    | [] => none
    | b :: rest =>
      if b = bQuote then
        match scanString p rest.length rest with
        | none => none
        | some (k, r) =>
          match skipSpace r with
          | [] => none
          | c :: r =>
            if c = bColon then
              match parseValue p n r with
              | none => none
              | some (v, r) =>
                match skipSpace r with
                | [] => none
                | d :: r =>
                  if d = bComma then
                    (parseMembers p n r).map fun (ms, r) => ((k, v) :: ms, r)
                  else if d = bRBrace then some ([(k, v)], r)
                  else none
            else none
      else none

end

/-- One value and nothing after it but white space. -/
def parse (p : Lone) (bs : GoString) : Option (Json Num) :=
  match parseValue p (bs.length + 1) bs with
  | none => none
  | some (v, rest) => if skipSpace rest = [] then some v else none

end MiniCloud.Lib.Json
