import MiniCloud.Lib.Json.Syntax

/-!
# What `json.Marshal` writes

Go's encoder turns a struct into an object with its fields in declaration order. Where only the
value matters the model keeps the tree of the text it writes: strings with invalid UTF-8
replaced, integers in decimal, nil pointers as `null`. Where the bytes matter `marshal` writes
them, escaping as the encoder does.
-/

namespace MiniCloud.Lib.Json

def ofGoString (s : GoString) : Json Num := .str (Text.sanitize s)

/-- A non-negative integer. -/
def ofNat (n : Nat) : Json Num := .num ⟨false, Text.decimal n, [], none⟩

def ofInt (n : Int) : Json Num := .num ⟨n < 0, Text.decimal n.natAbs, [], none⟩

/-- A pointer: nil is `null`. -/
def ofOption {α : Type} (f : α → Json Num) : Option α → Json Num
  | none => .null
  | some a => f a

/-- The alphabet of RFC 4648, section 4. -/
def base64Alphabet : GoString := "ABCDEFGHIJKLMNOPQRSTUVWXYZabcdefghijklmnopqrstuvwxyz0123456789+/"

def base64Digit (n : Nat) : UInt8 := base64Alphabet.getD (n % 64) 0

/-- `base64.StdEncoding`, three bytes at a time. -/
def base64 : GoString → GoString
  | [] => []
  | [a] => [base64Digit (a.toNat / 4), base64Digit (a.toNat * 16), bEquals, bEquals]
  | [a, b] =>
    [base64Digit (a.toNat / 4), base64Digit (a.toNat * 16 + b.toNat / 16),
      base64Digit (b.toNat * 4), bEquals]
  | a :: b :: c :: rest =>
    base64Digit (a.toNat / 4) :: base64Digit (a.toNat * 16 + b.toNat / 16) ::
      base64Digit (b.toNat * 4 + c.toNat / 64) :: base64Digit c.toNat :: base64 rest
where
  bEquals : UInt8 := 0x3D

example : base64 "Many" = "TWFueQ==" ∧ base64 "hello" = "aGVsbG8=" := by decide +kernel

theorem base64Digit_injective {m n : Nat} (h : base64Digit m = base64Digit n) :
    m % 64 = n % 64 := by
  have htable : ∀ i < 64, ∀ j < 64, base64Alphabet.getD i 0 = base64Alphabet.getD j 0 → i = j := by
    decide +kernel
  exact htable _ (Nat.mod_lt _ (by decide)) _ (Nat.mod_lt _ (by decide)) h

/-- Texts of one length are told apart by their encodings. -/
theorem base64_injective {s t : GoString} (hlength : s.length = t.length)
    (h : base64 s = base64 t) : s = t := by
  have hbyte : ∀ {a b : UInt8}, a.toNat = b.toNat → a = b := UInt8.toNat_inj.mp
  have hlt : ∀ a : UInt8, a.toNat < 256 := fun a => a.toNat_lt
  fun_induction base64 s generalizing t with
  | case1 =>
    exact (List.length_eq_zero_iff.mp hlength.symm).symm
  | case2 a =>
    obtain ⟨a', rfl⟩ := List.length_eq_one_iff.mp hlength.symm
    simp only [base64, List.cons.injEq] at h
    have h1 := base64Digit_injective h.1
    have h2 := base64Digit_injective h.2.1
    have := hlt a
    have := hlt a'
    rw [hbyte (a := a) (b := a') (by omega)]
  | case3 a b =>
    obtain ⟨a', b', rfl⟩ := List.length_eq_two.mp hlength.symm
    simp only [base64, List.cons.injEq] at h
    have h1 := base64Digit_injective h.1
    have h2 := base64Digit_injective h.2.1
    have h3 := base64Digit_injective h.2.2.1
    have := hlt a
    have := hlt a'
    have := hlt b
    have := hlt b'
    rw [hbyte (a := a) (b := a') (by omega), hbyte (a := b) (b := b') (by omega)]
  | case4 a b c rest ih =>
    match t, hlength with
    | a' :: b' :: c' :: rest', hlength =>
      simp only [base64, List.cons.injEq] at h
      obtain ⟨h1, h2, h3, h4, hrest⟩ := h
      have h1 := base64Digit_injective h1
      have h2 := base64Digit_injective h2
      have h3 := base64Digit_injective h3
      have h4 := base64Digit_injective h4
      have := hlt a
      have := hlt a'
      have := hlt b
      have := hlt b'
      have := hlt c
      have := hlt c'
      rw [hbyte (a := a) (b := a') (by omega), hbyte (a := b) (b := b') (by omega),
        hbyte (a := c) (b := c') (by omega), ih (by simpa using hlength) hrest]

/-- A `[]byte` is written in base64. -/
def ofBytes (s : GoString) : Json Num := .str (base64 s)

/-! ## The bytes -/

/-- `\u00xx` for a byte the encoder does not write as it is. -/
def escapeASCII (b : UInt8) : GoString :=
  if b = 0x3C || b = 0x3E || b = 0x26 then
    -- HTML escaping: `<`, `>` and `&`
    [bBackslash, 0x75, bZero, bZero, if b = 0x26 then 0x32 else 0x33, escapeLo b]
  else escapeByte b

/-- `\u2028` and `\u2029`, by the last byte of the separator. -/
def escapeSeparator (last : UInt8) : GoString :=
  [bBackslash, 0x75, 0x32, bZero, 0x32, last - 0x70]

/-- The encoder's string body, `k` bytes into a rune that has already been written. -/
def marshalFrom : Nat → GoString → GoString
  | _, [] => []
  | k + 1, _ :: rest => marshalFrom k rest
  | 0, b :: rest =>
    match Text.runeLen (b :: rest) with
    | 0 => [bBackslash, 0x75, 0x66, 0x66, 0x66, 0x64] ++ marshalFrom 0 rest
    | 1 => escapeASCII b ++ marshalFrom 0 rest
    | n + 1 =>
      let rune := b :: rest.take n
      (if rune = [0xE2, 0x80, 0xA8] || rune = [0xE2, 0x80, 0xA9] then
        escapeSeparator (rest.getD 1 0) else rune) ++ marshalFrom n rest

def marshalString (s : GoString) : GoString := bQuote :: (marshalFrom 0 s ++ [bQuote])

mutual

/-- The text `json.Marshal` writes for a value whose strings are Go strings. -/
def marshal : Json Num → GoString
  | .null => litNull
  | .bool true => litTrue
  | .bool false => litFalse
  | .num n => n.text
  | .str s => marshalString s
  | .arr [] => [bLBracket, bRBracket]
  | .arr (v :: vs) => bLBracket :: (marshal v ++ marshalItems vs)
  | .obj [] => [bLBrace, bRBrace]
  | .obj ((k, v) :: ms) => bLBrace :: (marshalString k ++ bColon :: (marshal v ++ marshalMembers ms))

def marshalItems : List (Json Num) → GoString
  | [] => [bRBracket]
  | v :: vs => bComma :: (marshal v ++ marshalItems vs)

def marshalMembers : List (GoString × Json Num) → GoString
  | [] => [bRBrace]
  | (k, v) :: ms => bComma :: (marshalString k ++ bColon :: (marshal v ++ marshalMembers ms))

end

example : marshalString "a<b\n\x01é" = "\"a\\u003cb\\n\\u0001é\"" := by decide

/-! ## Lengths -/

/-- A byte the encoder copies. -/
def isPlain (b : UInt8) : Bool :=
  0x20 ≤ b && b < 0x80 && b != bQuote && b != bBackslash && b != 0x3C && b != 0x3E && b != 0x26

theorem escapeASCII_plain (b : UInt8) (h : isPlain b = true) : escapeASCII b = [b] ∧ b < 0x80 := by
  revert b
  exact Text.forall_byte (by decide +kernel)

theorem marshalFrom_plain {s : GoString} (h : s.all isPlain = true) : marshalFrom 0 s = s := by
  induction s with
  | nil => rfl
  | cons b rest ih =>
    rw [List.all_cons, Bool.and_eq_true] at h
    obtain ⟨hb, hascii⟩ := escapeASCII_plain b h.1
    simp only [marshalFrom, Text.runeLen, hascii, if_true, hb, ih h.2]
    rfl

theorem length_marshalString_plain {s : GoString} (h : s.all isPlain = true) :
    (marshalString s).length = s.length + 2 := by
  simp [marshalString, marshalFrom_plain h]

theorem length_escapeASCII (b : UInt8) :
    1 ≤ (escapeASCII b).length ∧ (escapeASCII b).length ≤ 6 := by
  unfold escapeASCII escapeByte
  repeat' split
  all_goals simp

end MiniCloud.Lib.Json
