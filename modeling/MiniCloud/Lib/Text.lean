import Mathlib.Algebra.Group.Nat.Defs
import Mathlib.Data.List.Basic
import Mathlib.Data.List.Sort

/-!
# Go strings

A Go string is a sequence of bytes, not of characters: two strings are equal when
their bytes are, `len` counts bytes, and nothing makes the bytes valid UTF-8 until
someone checks. Lean string literals coerce to their UTF-8 bytes, so the constants of
the source can be written as they stand there.

`strings.Compare` is `compare` on the bytes. The regular expressions of the source are all anchored byte classes with a length
bound. `matchClass` and `matchHeadTail` are the two shapes that occur.
-/

namespace MiniCloud.Lib

/-- A Go `string`, or a `[]byte` where nil and empty need not be told apart. -/
abbrev GoString := List UInt8

/-- The bytes of a literal. -/
def GoString.ofString (s : String) : GoString := s.toUTF8.data.toList

instance : Coe String GoString := ⟨GoString.ofString⟩

instance : LawfulBEq GoString := List.instLawfulBEq

namespace Text

/-- A property of every byte can be checked on the 256 of them. -/
theorem forall_byte {p : UInt8 → Prop} (h : ∀ n : Fin 256, p (UInt8.ofFin n)) (b : UInt8) :
    p b := by
  have := h b.toFin
  rwa [UInt8.ofFin_toFin] at this

/-! ## Byte classes -/

def isDigit (b : UInt8) : Bool := '0'.toUInt8 ≤ b && b ≤ '9'.toUInt8

def isLower (b : UInt8) : Bool := 'a'.toUInt8 ≤ b && b ≤ 'z'.toUInt8

def isUpper (b : UInt8) : Bool := 'A'.toUInt8 ≤ b && b ≤ 'Z'.toUInt8

def isLetter (b : UInt8) : Bool := isLower b || isUpper b

/-- `[0-9a-f]`. -/
def isLowerHex (b : UInt8) : Bool := isDigit b || ('a'.toUInt8 ≤ b && b ≤ 'f'.toUInt8)

/-- Membership in a class written as a literal. -/
def oneOf (set : String) (b : UInt8) : Bool := (GoString.ofString set).contains b

/-! ## Anchored patterns -/

/-- `^[class]{lo,hi}$`. -/
def matchClass (cls : UInt8 → Bool) (lo hi : Nat) (s : GoString) : Bool :=
  lo ≤ s.length && s.length ≤ hi && s.all cls

/-- `^[head][tail]{0,hi}$`. -/
def matchHeadTail (head tail : UInt8 → Bool) (hi : Nat) : GoString → Bool
  | [] => false
  | b :: rest => head b && rest.length ≤ hi && rest.all tail

/-! ## Case -/

/-- ASCII upper case; other bytes are left alone. -/
def upperByte (b : UInt8) : UInt8 := if isLower b then b - 32 else b

/-- `strings.ToUpper` on ASCII text. -/
def toUpper (s : GoString) : GoString := s.map upperByte

def lowerByte (b : UInt8) : UInt8 := if isUpper b then b + 32 else b

/-- `strings.ToLower` on ASCII text. -/
def toLower (s : GoString) : GoString := s.map lowerByte

/-! ## Decimal -/

/-- The number a string of decimal digits spells. -/
def digitsValue (ds : GoString) : Nat := ds.foldl (fun n d => 10 * n + (d.toNat - 48)) 0

def digit (n : Nat) : UInt8 := (48 + n % 10).toUInt8

def decimalAux : Nat → Nat → GoString
  | 0, n => [digit n]
  | fuel + 1, n => if n < 10 then [digit n] else decimalAux fuel (n / 10) ++ [digit n]

/-- `strconv.FormatUint(n, 10)`. -/
def decimal (n : Nat) : GoString := decimalAux n n

theorem digitsValue_append_digit (ds : GoString) (n : Nat) :
    digitsValue (ds ++ [digit n]) = 10 * digitsValue ds + n % 10 := by
  have hlt : 48 + n % 10 < 256 := by omega
  have hd : (digit n).toNat = 48 + n % 10 := by
    simp [digit, Nat.mod_eq_of_lt hlt]
  simp only [digitsValue, List.foldl_append, List.foldl_cons, List.foldl_nil, hd]
  omega

theorem digitsValue_zeros (k : Nat) (ds : GoString) :
    digitsValue (List.replicate k (digit 0) ++ ds) = digitsValue ds := by
  induction k with
  | zero => rfl
  | succ k ih =>
    rw [List.replicate_succ, List.cons_append, ← ih]
    rfl

theorem isDigit_digit (n : Nat) : isDigit (digit n) = true := by
  have h : ∀ k < 10, isDigit (48 + k).toUInt8 = true := by decide
  exact h (n % 10) (by omega)

/-- `ds` is the decimal spelling of `n`: its digits, with no zero in front unless it is zero. -/
structure Spells (n : Nat) (ds : GoString) : Prop where
  value : digitsValue ds = n
  digits : ds.all isDigit = true
  nonempty : ds ≠ []
  lead : 0 < n → ∀ d rest, ds = d :: rest → d ≠ digit 0

variable {n : Nat} {s rune : GoString} {b : UInt8}

theorem spells_digit (hn : n < 10) : Spells n [digit n] where
  value := by
    have hv := digitsValue_append_digit [] n
    rw [List.nil_append] at hv
    rw [hv, Nat.mod_eq_of_lt hn]
    simp [digitsValue]
  digits := by simp [isDigit_digit]
  nonempty := by simp
  lead := by
    have hhead : ∀ k < 10, 0 < k → digit k ≠ digit 0 := by decide
    intro h0 d rest heq
    obtain ⟨rfl, -⟩ := List.cons.inj heq
    exact hhead n hn h0

theorem Spells.append {ds : GoString} (h : Spells (n / 10) ds) (hn : 10 ≤ n) :
    Spells n (ds ++ [digit n]) where
  value := by
    rw [digitsValue_append_digit, h.value]
    omega
  digits := by simp [h.digits, isDigit_digit]
  nonempty := by simp
  lead := by
    intro _ d rest heq
    -- the head of the longer spelling is the head of the shorter one
    obtain ⟨e, es, rfl⟩ := List.exists_cons_of_ne_nil h.nonempty
    obtain ⟨rfl, -⟩ := List.cons.inj heq
    exact h.lead (by omega) e es rfl

theorem spells_decimalAux (fuel n : Nat) (hf : n ≤ fuel) : Spells n (decimalAux fuel n) := by
  induction fuel generalizing n with
  | zero => exact spells_digit (by omega)
  | succ fuel ih =>
    unfold decimalAux
    split_ifs with hn
    · exact spells_digit hn
    · exact (ih (n / 10) (by omega)).append (by omega)

theorem spells_decimal (n : Nat) : Spells n (decimal n) := spells_decimalAux n n (Nat.le_refl n)

theorem decimal_injective {m : Nat} (h : decimal n = decimal m) : n = m := by
  rw [← (spells_decimal n).value, h, (spells_decimal m).value]

theorem length_decimalAux {fuel k : Nat} (hn : n < 10 ^ (k + 1)) :
    (decimalAux fuel n).length ≤ k + 1 := by
  induction fuel generalizing n k with
  | zero => simp [decimalAux]
  | succ fuel ih =>
    unfold decimalAux
    split_ifs with hsmall
    · simp
    · cases k with
      | zero => omega
      | succ k =>
        have hdiv : n / 10 < 10 ^ (k + 1) := by
          rw [Nat.div_lt_iff_lt_mul (by decide), ← Nat.pow_succ]
          exact hn
        have h := ih hdiv
        simp only [List.length_append, List.length_cons, List.length_nil]
        omega

theorem length_decimal {k : Nat} (hn : n < 10 ^ (k + 1)) : (decimal n).length ≤ k + 1 :=
  length_decimalAux hn

/-! ## UTF-8 -/

/-- A continuation byte `10xxxxxx`. -/
def isCont (b : UInt8) : Bool := 0x80 ≤ b && b ≤ 0xBF

/--
The bytes the second position may hold after a given lead byte. The narrowed ranges
exclude overlong forms (`E0`, `F0`), surrogates (`ED`) and code points past `10FFFF` (`F4`).
-/
def secondOk (lead b : UInt8) : Bool :=
  if lead = 0xE0 then 0xA0 ≤ b && b ≤ 0xBF
  else if lead = 0xED then 0x80 ≤ b && b ≤ 0x9F
  else if lead = 0xF0 then 0x90 ≤ b && b ≤ 0xBF
  else if lead = 0xF4 then 0x80 ≤ b && b ≤ 0x8F
  else isCont b

/-- How many bytes the rune at the front takes; zero when it is not encoded correctly. -/
def runeLen : GoString → Nat
  | [] => 0
  | b :: rest =>
    if b < 0x80 then 1
    else if 0xC2 ≤ b && b ≤ 0xDF then
      match rest with
      | c :: _ => if isCont c then 2 else 0
      | _ => 0
    else if 0xE0 ≤ b && b ≤ 0xEF then
      match rest with
      | c :: d :: _ => if secondOk b c && isCont d then 3 else 0
      | _ => 0
    else if 0xF0 ≤ b && b ≤ 0xF4 then
      match rest with
      | c :: d :: e :: _ => if secondOk b c && isCont d && isCont e then 4 else 0
      | _ => 0
    else 0

/-- Validity of what follows, `k` bytes into a rune that has already been accepted. -/
def validFrom : Nat → GoString → Bool
  | _, [] => true
  | k + 1, _ :: rest => validFrom k rest
  | 0, b :: rest =>
    match runeLen (b :: rest) with
    | 0 => false
    | n + 1 => validFrom n rest

/-- `utf8.ValidString`. -/
def validUTF8 (s : GoString) : Bool := validFrom 0 s

/-- The replacement character U+FFFD. -/
def replacement : GoString := [0xEF, 0xBF, 0xBD]

def sanitizeFrom : Nat → GoString → GoString
  | _, [] => []
  | k + 1, b :: rest => b :: sanitizeFrom k rest
  | 0, b :: rest =>
    match runeLen (b :: rest) with
    | 0 => replacement ++ sanitizeFrom 0 rest
    | n + 1 => b :: sanitizeFrom n rest

/-- `strings.ToValidUTF8` with one replacement for each stray byte. -/
def sanitize (s : GoString) : GoString := sanitizeFrom 0 s

theorem sanitizeFrom_valid (k : Nat) (s : GoString) (h : validFrom k s = true) :
    sanitizeFrom k s = s := by
  induction s generalizing k with
  | nil => cases k <;> rfl
  | cons b rest ih =>
    cases k with
    | succ k => rw [sanitizeFrom, ih k h]
    | zero =>
      simp only [validFrom, sanitizeFrom] at h ⊢
      cases hl : runeLen (b :: rest) with
      | zero => simp [hl] at h
      | succ n =>
        simp only [hl] at h ⊢
        rw [ih n h]

/-- Valid text is left alone. -/
theorem sanitize_valid (h : validUTF8 s = true) : sanitize s = s :=
  sanitizeFrom_valid 0 s h

/-- ASCII text is valid. -/
theorem validUTF8_ascii (h : ∀ b ∈ s, b < 0x80) : validUTF8 s = true := by
  induction s with
  | nil => rfl
  | cons b rest ih =>
    have hb : b < 0x80 := h b (by simp)
    have hl : runeLen (b :: rest) = 1 := by simp [runeLen, hb]
    have hr : validFrom 0 rest = true := ih fun c hc => h c (by simp [hc])
    simp only [validUTF8, validFrom, hl, hr]

theorem validFrom_drop (k : Nat) (s : GoString) : validFrom k s = validFrom 0 (s.drop k) := by
  induction s generalizing k with
  | nil => cases k <;> rfl
  | cons b rest ih =>
    cases k with
    | zero => rfl
    | succ k => exact ih k

theorem sanitizeFrom_drop (k : Nat) (s : GoString) :
    sanitizeFrom k s = s.take k ++ sanitizeFrom 0 (s.drop k) := by
  induction s generalizing k with
  | nil => cases k <;> rfl
  | cons b rest ih =>
    cases k with
    | zero => rfl
    | succ k =>
      rw [sanitizeFrom, ih k]
      rfl

/-- The bytes of a correctly encoded rune, by its length. -/
inductive Rune : Nat → GoString → Prop
  | one {b : UInt8} (hb : b < 0x80) : Rune 1 [b]
  | two {b c : UInt8} (hb : 0xC2 ≤ b ∧ b ≤ 0xDF) (hc : isCont c = true) : Rune 2 [b, c]
  | three {b c d : UInt8} (hb : 0xE0 ≤ b ∧ b ≤ 0xEF) (hc : secondOk b c = true)
      (hd : isCont d = true) : Rune 3 [b, c, d]
  | four {b c d e : UInt8} (hb : 0xF0 ≤ b ∧ b ≤ 0xF4) (hc : secondOk b c = true)
      (hd : isCont d = true) (he : isCont e = true) : Rune 4 [b, c, d, e]

/-- A rune at the front is one of the four forms. -/
theorem rune_of_runeLen (h : runeLen s ≠ 0) :
    ∃ rune rest, s = rune ++ rest ∧ Rune (runeLen s) rune := by
  rcases s with _ | ⟨b, rest⟩
  · exact absurd rfl h
  unfold runeLen at h ⊢
  dsimp only at h ⊢
  by_cases h1 : b < 0x80
  · rw [if_pos h1]
    exact ⟨[b], rest, rfl, .one h1⟩
  rw [if_neg h1] at h ⊢
  by_cases h2 : (0xC2 ≤ b && b ≤ 0xDF) = true
  · rw [if_pos h2] at h ⊢
    rcases rest with _ | ⟨c, rest⟩
    · exact absurd rfl h
    · dsimp only at h ⊢
      split_ifs at h ⊢ with hc
      · simp only [Bool.and_eq_true, decide_eq_true_eq] at h2
        exact ⟨[b, c], rest, rfl, .two h2 hc⟩
      · exact absurd rfl h
  rw [if_neg h2] at h ⊢
  by_cases h3 : (0xE0 ≤ b && b ≤ 0xEF) = true
  · rw [if_pos h3] at h ⊢
    rcases rest with _ | ⟨c, _ | ⟨d, rest⟩⟩
    · exact absurd rfl h
    · exact absurd rfl h
    · dsimp only at h ⊢
      split_ifs at h ⊢ with hc
      · simp only [Bool.and_eq_true, decide_eq_true_eq] at h3 hc
        exact ⟨[b, c, d], rest, rfl, .three h3 hc.1 hc.2⟩
      · exact absurd rfl h
  rw [if_neg h3] at h ⊢
  by_cases h4 : (0xF0 ≤ b && b ≤ 0xF4) = true
  · rw [if_pos h4] at h ⊢
    rcases rest with _ | ⟨c, _ | ⟨d, _ | ⟨e, rest⟩⟩⟩
    · exact absurd rfl h
    · exact absurd rfl h
    · exact absurd rfl h
    · dsimp only at h ⊢
      split_ifs at h ⊢ with hc
      · simp only [Bool.and_eq_true, decide_eq_true_eq] at h4 hc
        exact ⟨[b, c, d, e], rest, rfl, .four h4 hc.1.1 hc.1.2 hc.2⟩
      · exact absurd rfl h
  rw [if_neg h4] at h
  exact absurd rfl h

theorem Rune.length (h : Rune n rune) : rune.length = n := by
  cases h <;> rfl

/-- What follows a rune does not change its length. -/
theorem Rune.runeLen (h : Rune n rune) (rest : GoString) :
    Text.runeLen (rune ++ rest) = n := by
  have hlead : ∀ b : UInt8, (0xC2 ≤ b ∧ b ≤ 0xDF → ¬ b < 0x80) ∧
      (0xE0 ≤ b ∧ b ≤ 0xEF → ¬ b < 0x80 ∧ ¬ (0xC2 ≤ b ∧ b ≤ 0xDF)) ∧
      (0xF0 ≤ b ∧ b ≤ 0xF4 → ¬ b < 0x80 ∧ ¬ (0xC2 ≤ b ∧ b ≤ 0xDF) ∧ ¬ (0xE0 ≤ b ∧ b ≤ 0xEF)) :=
    forall_byte (by decide +kernel)
  cases h with
  | one hb => simp [Text.runeLen, hb]
  | @two b c hb hc => simp [Text.runeLen, (hlead b).1 hb, hb, hc]
  | @three b c d hb hc hd =>
    obtain ⟨h1, h2⟩ := (hlead b).2.1 hb
    simp [Text.runeLen, h1, h2, hb, hc, hd]
  | @four b c d e hb hc hd he =>
    obtain ⟨h1, h2, h3⟩ := (hlead b).2.2 hb
    simp [Text.runeLen, h1, h2, h3, hb, hc, hd, he]

/-- A rune of several bytes has no ASCII byte. -/
theorem Rune.high (h : Rune n rune) (hn : n ≠ 1) :
    ∀ x ∈ rune, 0x80 ≤ x := by
  have hcont : ∀ b : UInt8, isCont b = true → 0x80 ≤ b := forall_byte (by decide +kernel)
  have hlead : ∀ b : UInt8, (0xC2 ≤ b → 0x80 ≤ b) ∧ (0xE0 ≤ b → 0x80 ≤ b) ∧ (0xF0 ≤ b → 0x80 ≤ b) :=
    forall_byte (by decide +kernel)
  have hsecond : ∀ a b : UInt8, secondOk a b = true → 0x80 ≤ b := by
    intro a b hb
    unfold secondOk at hb
    split_ifs at hb
    all_goals
      revert b
      exact forall_byte (by decide +kernel)
  cases h with
  | one hb => exact absurd rfl hn
  | @two b c hb hc => simp [(hlead b).1 hb.1, hcont c hc]
  | @three b c d hb hc hd => simp [(hlead b).2.1 hb.1, hsecond b c hc, hcont d hd]
  | @four b c d e hb hc hd he =>
    simp [(hlead b).2.2 hb.1, hsecond b c hc, hcont d hd, hcont e he]

theorem Rune.uncons (h : Rune n rune) (rest : GoString) :
    ∃ b tail, rune = b :: tail ∧ Text.runeLen (b :: (tail ++ rest)) = tail.length + 1 := by
  have hlen := (h.runeLen rest).trans h.length.symm
  rcases rune with _ | ⟨b, tail⟩
  · cases h
  · exact ⟨b, tail, rfl, hlen⟩

/-- Validity of a text that starts with a rune is validity of what follows it. -/
theorem validUTF8_rune (h : Rune n rune) (rest : GoString) :
    validUTF8 (rune ++ rest) = validUTF8 rest := by
  obtain ⟨b, tail, rfl, hlen⟩ := h.uncons rest
  rw [validUTF8, List.cons_append, validFrom, hlen]
  dsimp only
  rw [validFrom_drop, List.drop_left, validUTF8]

theorem sanitize_rune (h : Rune n rune) (rest : GoString) :
    sanitize (rune ++ rest) = rune ++ sanitize rest := by
  obtain ⟨b, tail, rfl, hlen⟩ := h.uncons rest
  rw [sanitize, List.cons_append, sanitizeFrom, hlen]
  dsimp only
  rw [sanitizeFrom_drop, List.drop_left, List.take_left, sanitize, List.cons_append]

theorem sanitize_stray {rest : GoString} (h : runeLen (b :: rest) = 0) :
    sanitize (b :: rest) = replacement ++ sanitize rest := by
  rw [sanitize, sanitizeFrom, h]
  rfl

/--
**Induction along the runes of a text**: nothing, a rune and what follows it, or a stray byte and
what follows it.
-/
theorem rune_induction {motive : GoString → Prop} (nil : motive [])
    (rune : ∀ n rune rest, Rune n rune → motive rest → motive (rune ++ rest))
    (stray : ∀ b rest, runeLen (b :: rest) = 0 → motive rest → motive (b :: rest))
    (s : GoString) : motive s := by
  induction hlength : s.length using Nat.strong_induction_on generalizing s with
  | _ length ih =>
    subst hlength
    rcases s with _ | ⟨b, rest⟩
    · exact nil
    · by_cases h : runeLen (b :: rest) = 0
      · exact stray b rest h (ih rest.length (by simp) rest rfl)
      · obtain ⟨front, after, heq, hfront⟩ := rune_of_runeLen h
        rw [heq]
        refine rune _ front after hfront (ih after.length ?_ after rfl)
        have hpos : 0 < front.length := by rw [hfront.length]; omega
        rw [heq, List.length_append]
        omega

theorem validUTF8_stray {rest : GoString} (h : runeLen (b :: rest) = 0) :
    validUTF8 (b :: rest) = false := by
  rw [validUTF8, validFrom, h]

theorem validUTF8_cons (hb : b < 0x80) (rest : GoString) :
    validUTF8 (b :: rest) = validUTF8 rest :=
  validUTF8_rune (.one hb) rest

theorem validUTF8_append (hs : validUTF8 s = true) (t : GoString) :
    validUTF8 (s ++ t) = validUTF8 t := by
  revert hs
  refine rune_induction (motive := fun s => validUTF8 s = true → validUTF8 (s ++ t) = validUTF8 t)
    (fun _ => rfl) ?_ ?_ s
  · intro n front rest hfront ih hs
    rw [validUTF8_rune hfront] at hs
    rw [List.append_assoc, validUTF8_rune hfront, ih hs]
  · intro b rest h _ hs
    rw [validUTF8_stray h] at hs
    cases hs

end Text

/-! ## Sorting -/

/-- `slices.SortFunc`. Elements that compare equal stay in order, which Go leaves open. -/
def sortFunc {α : Type} (cmp : α → α → Ordering) (l : List α) : List α :=
  l.insertionSort fun a b => (cmp a b).isLE

/-- `slices.IsSortedFunc`. -/
def isSortedFunc {α : Type} (cmp : α → α → Ordering) : List α → Bool
  | a :: b :: rest => cmp b a != .lt && isSortedFunc cmp (b :: rest)
  | _ => true

theorem mem_sortFunc {α : Type} {cmp : α → α → Ordering} {l : List α} {a : α} :
    a ∈ sortFunc cmp l ↔ a ∈ l := List.mem_insertionSort _

theorem sortFunc_perm {α : Type} (cmp : α → α → Ordering) (l : List α) :
    (sortFunc cmp l).Perm l := List.perm_insertionSort _ l

/-- Sorting looks at its comparison on the elements of the list only. -/
theorem sortFunc_congr {α : Type} {cmp cmp' : α → α → Ordering} {l : List α}
    (h : ∀ a ∈ l, ∀ b ∈ l, cmp a b = cmp' a b) : sortFunc cmp l = sortFunc cmp' l := by
  have hmap := List.map_insertionSort (fun a b => (cmp a b).isLE = true)
    (fun a b => (cmp' a b).isLE = true) id l fun a ha b hb => by rw [h a ha b hb]; rfl
  rwa [List.map_id, List.map_id] at hmap

section Order

variable {α : Type} (cmp : α → α → Ordering) [Std.TransCmp cmp]

theorem pairwise_sortFunc (l : List α) :
    (sortFunc cmp l).Pairwise fun a b => (cmp a b).isLE = true := by
  have htotal : Std.Total fun a b => (cmp a b).isLE = true := ⟨fun a b => by
    rw [@Std.OrientedCmp.eq_swap _ cmp _ b a]
    cases cmp a b <;> simp⟩
  have htrans : IsTrans α fun a b => (cmp a b).isLE = true :=
    ⟨fun _ _ _ => Std.TransCmp.isLE_trans⟩
  exact List.pairwise_insertionSort _ l

/-- The first element of the sorted list is a least one. -/
theorem sortFunc_head {l : List α} {a : α} (h : (sortFunc cmp l).head? = some a) :
    a ∈ l ∧ ∀ b ∈ l, cmp b a ≠ .lt := by
  have hsorted := pairwise_sortFunc cmp l
  have hmem : ∀ b, b ∈ sortFunc cmp l ↔ b ∈ l := fun b => mem_sortFunc
  cases hl : sortFunc cmp l with
  | nil =>
    rw [hl] at h
    cases h
  | cons first rest =>
    rw [hl] at h hsorted hmem
    cases h
    refine ⟨(hmem a).mp List.mem_cons_self, ?_⟩
    intro b hb hlt
    rcases List.mem_cons.mp ((hmem b).mpr hb) with rfl | hrest
    · rw [@Std.ReflCmp.compare_self _ cmp _ b] at hlt
      cases hlt
    · have hle := (List.pairwise_cons.mp hsorted).1 b hrest
      rw [@Std.OrientedCmp.eq_swap _ cmp _ a b, hlt] at hle
      cases hle

/-- Sorting a sorted list changes nothing. -/
theorem sortFunc_sortFunc (l : List α) : sortFunc cmp (sortFunc cmp l) = sortFunc cmp l :=
  (pairwise_sortFunc cmp l).insertionSort_eq

theorem isSortedFunc_of_pairwise {l : List α}
    (h : l.Pairwise fun a b => (cmp a b).isLE = true) : isSortedFunc cmp l = true := by
  induction l with
  | nil => rfl
  | cons a rest ih =>
    obtain ⟨hhead, hrest⟩ := List.pairwise_cons.mp h
    cases rest with
    | nil => rfl
    | cons b rest =>
      have hab : cmp b a ≠ .lt := by
        have hle := hhead b List.mem_cons_self
        rw [@Std.OrientedCmp.eq_swap _ cmp _ b a]
        cases hc : cmp a b <;> simp_all
      rw [isSortedFunc, ih hrest, Bool.and_true, bne_iff_ne]
      exact hab

/-- What is sorted passes the test for it. -/
theorem isSortedFunc_sortFunc (l : List α) : isSortedFunc cmp (sortFunc cmp l) = true :=
  isSortedFunc_of_pairwise cmp (pairwise_sortFunc cmp l)

/-- An order seen through a projection. -/
theorem transCmp_comap {β : Type} (f : β → α) : Std.TransCmp fun a b => cmp (f a) (f b) where
  eq_swap := Std.OrientedCmp.eq_swap
  isLE_trans := Std.TransCmp.isLE_trans

variable {cmp} in
/-- Where only equal elements compare equal, the sorted list does not depend on the order given. -/
theorem sortFunc_eq_of_perm {l l' : List α} (hperm : l.Perm l')
    (hinj : ∀ a ∈ l, ∀ b ∈ l, cmp a b = .eq → a = b) : sortFunc cmp l = sortFunc cmp l' := by
  refine List.Perm.eq_of_pairwise ?_ (pairwise_sortFunc cmp l) (pairwise_sortFunc cmp l')
    ((sortFunc_perm cmp l).trans (hperm.trans (sortFunc_perm cmp l').symm))
  intro a b ha hb hab hba
  refine hinj a (mem_sortFunc.mp ha) b (hperm.mem_iff.mpr (mem_sortFunc.mp hb)) ?_
  rw [@Std.OrientedCmp.eq_swap _ cmp _ b a] at hba
  cases hc : cmp a b <;> simp_all

end Order

end MiniCloud.Lib
