import MiniCloud.Lib.Json.Grammar

/-!
# The compact text of a tree parses back to the tree

A writer of compact texts is a way to spell the body of a string literal, and `write` is what it
writes for a tree. `parse_write` says that a reader gets the tree back, with every string read as
the reader reads that spelling. The canonical writer's strings are read back as they are, so
`parse_text` says that reading is a left inverse of writing on every tree whose number literals
are well formed, under either reading of unpaired surrogates (the writer never escapes one).

A number has no closing delimiter, so the lemmas about one byte string followed by another
ask that what follows cannot extend a number: `Stop`.
-/

namespace MiniCloud.Lib.Json

variable {p : Lone}

/-- What follows is not a continuation of a number literal. -/
def Stop : GoString → Prop
  | [] => True
  | b :: _ => Text.isDigit b = false ∧ b ≠ bDot ∧ b ≠ 0x65 ∧ b ≠ 0x45

/-! ## Strings -/

/-- The digits the writer puts into a `\u00xx` escape spell the byte. -/
theorem hexValue_escape (b : UInt8) (hb : b < 0x20) :
    hexValue (escapeHi b) = some (b.toNat / 16) ∧ hexValue (escapeLo b) = some (b.toNat % 16) := by
  revert b
  exact Text.forall_byte (by decide +kernel)

theorem scanUnicode_escape (b : UInt8) (hb : b < 0x20) (rest : GoString) :
    scanUnicode p (bZero :: bZero :: escapeHi b :: escapeLo b :: rest) = some ([b], rest) := by
  obtain ⟨hx, hy⟩ := hexValue_escape b hb
  have hz : hexValue bZero = some 0 := by decide
  have hlt : b.toNat < 32 := hb
  have hval : ((0 * 16 + 0) * 16 + b.toNat / 16) * 16 + b.toNat % 16 = b.toNat := by omega
  have hsmall : b.toNat < 0xD800 := by omega
  have hascii : b.toNat < 0x80 := by omega
  have hback : b.toNat.toUInt8 = b := by simp
  simp only [scanUnicode, scanHex4, hz, hx, hy, hval, hsmall, true_or, if_true, encodeRune,
    hascii, hback]

/-- The reader takes back one written byte in one unit of fuel. -/
theorem scanString_escapeByte (b : UInt8) (n : Nat) (rest : GoString) :
    scanString p (n + 1) (escapeByte b ++ rest) =
      (scanString p n rest).map fun (s, r) => (b :: s, r) := by
  unfold escapeByte
  split_ifs with h1 h2 h3 h4 h5 h6 h7 h8
  -- the seven short escapes: each is read back by `shortEscape`
  iterate 7
    subst_vars
    simp [scanString, shortEscape, bQuote, bBackslash]
  · have hu := scanUnicode_escape (p := p) b h8 rest
    have hq : bBackslash ≠ bQuote := by decide
    have hc : ¬ bBackslash < 0x20 := by decide
    simp only [List.cons_append, List.nil_append, scanString, hq, hc, if_false, ne_eq,
      not_true, if_true, hu]
  · simp only [List.cons_append, List.nil_append, scanString, h1, h8, if_false, ne_eq, h2,
      not_false_iff, if_true]

theorem escapeByte_length (b : UInt8) : 1 ≤ (escapeByte b).length := by
  unfold escapeByte
  split_ifs <;> simp

theorem scanString_escape (s r : GoString) : ∀ n, (escape s).length + 1 ≤ n →
    scanString p n (escape s ++ bQuote :: r) = some (s, r) := by
  induction s with
  | nil =>
    intro n hn
    obtain ⟨n, rfl⟩ : ∃ m, n = m + 1 := ⟨n - 1, by simp [escape] at hn; omega⟩
    simp [escape, scanString]
  | cons b s ih =>
    intro n hn
    have hb := escapeByte_length b
    simp only [escape, List.length_append] at hn
    obtain ⟨n, rfl⟩ : ∃ m, n = m + 1 := ⟨n - 1, by omega⟩
    rw [escape, List.append_assoc, scanString_escapeByte, ih n (by omega)]
    rfl

/--
A reader gets `read s` from the body that a writer spells for `s`: the closing quote ends it, and
the fuel `parseValue` gives is enough.
-/
def Spells (p : Lone) (body read : GoString → GoString) : Prop :=
  ∀ s r, scanString p (body s ++ bQuote :: r).length (body s ++ bQuote :: r) = some (read s, r)

theorem spells_escape : Spells p escape fun s => s :=
  fun s r => scanString_escape s r _ (by simp)

/-! ## Numbers -/

/-- Neither a digit nor a point follows. -/
def NoFrac : GoString → Prop
  | [] => True
  | b :: _ => Text.isDigit b = false ∧ b ≠ bDot

def NoDigit : GoString → Prop
  | [] => True
  | b :: _ => Text.isDigit b = false

variable {r : GoString} {n : Num} {N : Type} {v : Json Num}

theorem Stop.noFrac (hr : Stop r) : NoFrac r := by
  cases r with
  | nil => trivial
  | cons b r => exact ⟨hr.1, hr.2.1⟩

theorem NoFrac.noDigit (hr : NoFrac r) : NoDigit r := by
  cases r with
  | nil => trivial
  | cons b r => exact hr.1

theorem scanDigits_append {ds : GoString} (hd : ds.all Text.isDigit = true) (hr : NoDigit r) :
    scanDigits (ds ++ r) = (ds, r) := by
  have hall : ∀ d ∈ ds, Text.isDigit d = true := List.all_eq_true.mp hd
  have hstop : r.takeWhile Text.isDigit = [] ∧ r.dropWhile Text.isDigit = r := by
    cases r with
    | nil => exact ⟨rfl, rfl⟩
    | cons b r =>
      have hb : Text.isDigit b = false := hr
      simp [hb]
  rw [scanDigits, List.takeWhile_append_of_pos hall, List.dropWhile_append_of_pos hall, hstop.1,
    hstop.2, List.append_nil]

theorem expText_noFrac (e : Option Exponent) (hr : Stop r) :
    NoFrac (expText e ++ r) := by
  cases e with
  | none => exact hr.noFrac
  | some e =>
    have hl : ∀ up : Bool, Text.isDigit (if up then (0x45 : UInt8) else 0x65) = false ∧
        (if up then (0x45 : UInt8) else 0x65) ≠ bDot := by decide
    exact hl e.upper

theorem fracText_noDigit (frac : GoString) (hr : NoFrac r) :
    NoDigit (fracText frac ++ r) := by
  unfold fracText
  split_ifs
  · exact hr.noDigit
  · exact (by decide : Text.isDigit bDot = false)

theorem scanSign_append (sign : Option Bool) {ds : GoString} (hne : ds ≠ [])
    (hd : ds.all Text.isDigit = true) :
    scanSign (signText sign ++ (ds ++ r)) = (sign, ds ++ r) := by
  cases sign with
  | some b => cases b <;> simp [signText, scanSign, bMinus, bPlus]
  | none =>
    -- without a sign the first byte is a digit, so it is not taken for one
    obtain ⟨d, ds, rfl⟩ := List.exists_cons_of_ne_nil hne
    have hdig : Text.isDigit d = true := List.all_eq_true.mp hd d (by simp)
    have hm : d ≠ bMinus := by rintro rfl; exact absurd hdig (by decide)
    have hp : d ≠ bPlus := by rintro rfl; exact absurd hdig (by decide)
    simp [signText, scanSign, hm, hp]

theorem scanExp_append (e : Option Exponent) (hr : Stop r)
    (hwf : ∀ x, e = some x → x.digits ≠ [] ∧ x.digits.all Text.isDigit = true) :
    scanExp (expText e ++ r) = some (e, r) := by
  cases e with
  | none =>
    cases r with
    | nil => rfl
    | cons b r =>
      have hb : ¬ (b = 0x65 ∨ b = 0x45) := fun h => h.elim hr.2.2.1 hr.2.2.2
      simp only [expText, List.nil_append, scanExp, hb, if_false]
  | some e =>
    obtain ⟨upper, sign, ds⟩ := e
    obtain ⟨hne, hd⟩ := hwf _ rfl
    have hsign := scanSign_append sign (r := r) hne hd
    have hdig := scanDigits_append hd hr.noFrac.noDigit
    have hletter : (if upper then (0x45 : UInt8) else 0x65) = 0x65 ∨
        (if upper then (0x45 : UInt8) else 0x65) = 0x45 := by cases upper <;> decide
    have hupper : decide ((if upper then (0x45 : UInt8) else 0x65) = 0x45) = upper := by
      cases upper <;> decide
    simp only [expText, List.cons_append, List.append_assoc, scanExp, hletter, if_true, hsign,
      hdig, hne, if_false, hupper]

theorem scanFrac_append {frac : GoString} (hd : frac.all Text.isDigit = true) (hr : NoFrac r) :
    scanFrac (fracText frac ++ r) = some (frac, r) := by
  unfold fracText
  split_ifs with hf
  · subst hf
    cases r with
    | nil => rfl
    | cons b r => simp only [List.nil_append, scanFrac, hr.2, if_false]
  · have hdig := scanDigits_append hd hr.noDigit
    simp only [List.cons_append, scanFrac, if_true, hdig, hf, if_false]

theorem scanInt_append (hn : n.WF) (hr : NoDigit r) :
    scanInt (n.int ++ r) = some (n.int, r) := by
  rcases hn.int with h0 | ⟨⟨d, ds, heq, hd⟩, hall⟩
  · simp [h0, scanInt]
  · rw [heq] at hall ⊢
    simp only [List.all_cons, Bool.and_eq_true] at hall
    have hdig := scanDigits_append hall.2 hr
    simp only [List.cons_append, scanInt, hd, if_false, hall.1, if_true, hdig]

theorem int_head (hn : n.WF) : ∃ d ds, n.int = d :: ds ∧ Text.isDigit d = true := by
  rcases hn.int with h0 | ⟨⟨d, ds, heq, -⟩, hall⟩
  · exact ⟨bZero, [], h0, by decide⟩
  · exact ⟨d, ds, heq, List.all_eq_true.mp hall d (by simp [heq])⟩

theorem scanMinus_append (hn : n.WF) (r : GoString) :
    scanMinus ((if n.neg then [bMinus] else []) ++ (n.int ++ r)) = (n.neg, n.int ++ r) := by
  obtain ⟨d, ds, heq, hdig⟩ := int_head hn
  have hm : d ≠ bMinus := by rintro rfl; exact absurd hdig (by decide)
  cases hneg : n.neg <;> simp [heq, scanMinus, hm]

theorem scanNum_text (hn : n.WF) (hr : Stop r) :
    scanNum (n.text ++ r) = some (n, r) := by
  have hexp := expText_noFrac n.exp hr
  have h1 := scanMinus_append hn (fracText n.frac ++ (expText n.exp ++ r))
  have h2 := scanInt_append hn (fracText_noDigit n.frac hexp)
  have h3 := scanFrac_append hn.frac hexp
  have h4 := scanExp_append n.exp hr hn.exp
  simp only [Num.text, List.append_assoc, scanNum, h1, h2, h3, h4]

/-! ## Writers -/

mutual

/-- The compact text of a value, for a writer that spells the body of a string with `body`. -/
def write (body : GoString → GoString) : Json Num → GoString
  | .null => litNull
  | .bool true => litTrue
  | .bool false => litFalse
  | .num n => n.text
  | .str s => bQuote :: (body s ++ [bQuote])
  | .arr [] => [bLBracket, bRBracket]
  | .arr (v :: vs) => bLBracket :: (write body v ++ writeItems body vs)
  | .obj [] => [bLBrace, bRBrace]
  | .obj ((k, v) :: ms) =>
    bLBrace :: bQuote :: (body k ++ bQuote :: bColon :: (write body v ++ writeMembers body ms))

def writeItems (body : GoString → GoString) : List (Json Num) → GoString
  | [] => [bRBracket]
  | v :: vs => bComma :: (write body v ++ writeItems body vs)

def writeMembers (body : GoString → GoString) : List (GoString × Json Num) → GoString
  | [] => [bRBrace]
  | (k, v) :: ms =>
    bComma :: bQuote :: (body k ++ bQuote :: bColon :: (write body v ++ writeMembers body ms))

end

mutual

/-- Read every string and every name of a tree. -/
def mapStrings {N : Type} (f : GoString → GoString) : Json N → Json N
  | .str s => .str (f s)
  | .arr items => .arr (mapStringsItems f items)
  | .obj members => .obj (mapStringsMembers f members)
  | v => v

def mapStringsItems {N : Type} (f : GoString → GoString) : List (Json N) → List (Json N)
  | [] => []
  | v :: vs => mapStrings f v :: mapStringsItems f vs

def mapStringsMembers {N : Type} (f : GoString → GoString) :
    List (GoString × Json N) → List (GoString × Json N)
  | [] => []
  | (k, v) :: ms => (f k, mapStrings f v) :: mapStringsMembers f ms

end

mutual

/-- The canonical writer is one of them. -/
theorem text_eq_write : ∀ v : Json Num, text v = write escape v
  | .null | .num _ | .str _ => rfl
  | .bool true | .bool false => rfl
  | .arr [] | .obj [] => rfl
  | .arr (v :: vs) => by rw [text, write, text_eq_write v, textItems_eq_write vs]
  | .obj ((k, v) :: ms) => by
    rw [text, write, text_eq_write v, textMembers_eq_write ms, quoted, List.cons_append,
      List.append_assoc]
    rfl

theorem textItems_eq_write : ∀ vs : List (Json Num), textItems vs = writeItems escape vs
  | [] => rfl
  | v :: vs => by rw [textItems, writeItems, text_eq_write v, textItems_eq_write vs]

theorem textMembers_eq_write : ∀ ms : List (GoString × Json Num),
    textMembers ms = writeMembers escape ms
  | [] => rfl
  | (k, v) :: ms => by
    rw [textMembers, writeMembers, text_eq_write v, textMembers_eq_write ms, quoted,
      List.cons_append, List.append_assoc]
    rfl

end

mutual

theorem mapStrings_self : ∀ v : Json N, mapStrings (fun s => s) v = v
  | .null | .bool _ | .num _ | .str _ => rfl
  | .arr vs => by rw [mapStrings, mapStringsItems_self vs]
  | .obj ms => by rw [mapStrings, mapStringsMembers_self ms]

theorem mapStringsItems_self : ∀ vs : List (Json N),
    mapStringsItems (fun s => s) vs = vs
  | [] => rfl
  | v :: vs => by rw [mapStringsItems, mapStrings_self v, mapStringsItems_self vs]

theorem mapStringsMembers_self : ∀ ms : List (GoString × Json N),
    mapStringsMembers (fun s => s) ms = ms
  | [] => rfl
  | (k, v) :: ms => by rw [mapStringsMembers, mapStrings_self v, mapStringsMembers_self ms]

end

/-! ## Values -/

/-- The first byte of a value's text. It is no white space and closes nothing. -/
def Opens (b : UInt8) : Prop := isSpace b = false ∧ b ≠ bRBracket ∧ b ≠ bRBrace

theorem opens_digit (b : UInt8) (hb : Text.isDigit b = true) : Opens b := by
  revert b
  exact Text.forall_byte (by unfold Opens; decide +kernel)

variable {body read : GoString → GoString}

theorem write_opens (v : Json Num) (hv : v.Nums Num.WF) :
    ∃ b t, write body v = b :: t ∧ Opens b := by
  have hquote : Opens bQuote := by unfold Opens; decide
  cases v with
  | null => exact ⟨_, _, rfl, by unfold Opens; decide⟩
  | bool b => cases b <;> exact ⟨_, _, rfl, by unfold Opens; decide⟩
  | str s => exact ⟨_, _, rfl, hquote⟩
  | num n =>
    have hn : n.WF := hv
    obtain ⟨d, ds, heq, hdig⟩ := int_head hn
    cases hneg : n.neg with
    | true => exact ⟨bMinus, _, by simp [write, Num.text, hneg]; rfl, by unfold Opens; decide⟩
    | false => exact ⟨d, _, by simp [write, Num.text, hneg, heq]; rfl, opens_digit d hdig⟩
  | arr items =>
    have hb : Opens bLBracket := by unfold Opens; decide
    cases items with
    | nil | cons => exact ⟨_, _, rfl, hb⟩
  | obj members =>
    have hb : Opens bLBrace := by unfold Opens; decide
    cases members with
    | nil | cons => exact ⟨_, _, rfl, hb⟩

theorem skipSpace_cons {b : UInt8} (hb : isSpace b = false) (t : GoString) :
    skipSpace (b :: t) = b :: t := by
  simp [skipSpace, hb]

theorem stop_of_separator {b : UInt8} (hb : b = bComma ∨ b = bRBracket ∨ b = bRBrace)
    (t : GoString) : Stop (b :: t) := by
  rcases hb with rfl | rfl | rfl <;> exact ⟨by decide, by decide, by decide, by decide⟩

/-- The reader reads `v` from what the writer wrote, whatever follows, with fuel for each byte. -/
def Reads (p : Lone) (body read : GoString → GoString) (v : Json Num) : Prop :=
  ∀ n r, Stop r → (write body v).length ≤ n →
    parseValue p n (write body v ++ r) = some (mapStrings read v, r)

/-- One more unit of fuel than the bytes used: the form in which the cases are proved. -/
theorem reads_of_succ (hv : v.Nums Num.WF) (h : ∀ n r, Stop r → (write body v).length ≤ n + 1 →
      parseValue p (n + 1) (write body v ++ r) = some (mapStrings read v, r)) :
    Reads p body read v := by
  intro n r hr hn
  obtain ⟨b, t, heq, -⟩ := @write_opens body v hv
  obtain ⟨n, rfl⟩ : ∃ m, n = m + 1 := ⟨n - 1, by rw [heq] at hn; simp at hn; omega⟩
  exact h n r hr hn

theorem reads_num (hn : n.WF) : Reads p body read (.num n) := by
  refine reads_of_succ hn fun k r hr _ => ?_
  have hscan := scanNum_text hn hr
  obtain ⟨d, ds, heq, hdig⟩ := int_head hn
  -- the head of a number is a minus sign or a digit, so no other branch takes it
  obtain ⟨b, t, htext, hb⟩ : ∃ b t, n.text ++ r = b :: t ∧
      (b = bMinus ∨ Text.isDigit b = true) := by
    cases hneg : n.neg with
    | true => exact ⟨bMinus, _, by simp [Num.text, hneg]; rfl, .inl rfl⟩
    | false => exact ⟨d, _, by simp [Num.text, hneg, heq]; rfl, .inr hdig⟩
  have hother : ∀ b : UInt8, (b = bMinus ∨ Text.isDigit b = true) → isSpace b = false ∧
      b ≠ bQuote ∧ b ≠ bLBrace ∧ b ≠ bLBracket ∧ b ≠ 0x6E ∧ b ≠ 0x74 ∧ b ≠ 0x66 :=
    Text.forall_byte (by decide +kernel)
  obtain ⟨hs, h1, h2, h3, h4, h5, h6⟩ := hother b hb
  rw [write, htext, parseValue, skipSpace_cons hs]
  simp only [h1, h2, h3, h4, h5, h6, if_false]
  rw [← htext, hscan]
  rfl

theorem reads_lit (hv : v = .null ∨ v = .bool true ∨ v = .bool false) :
    Reads p body read v := by
  have hwf : v.Nums Num.WF := by rcases hv with rfl | rfl | rfl <;> trivial
  refine reads_of_succ hwf fun k r _ _ => ?_
  rcases hv with rfl | rfl | rfl <;>
    simp [write, mapStrings, litNull, litTrue, litFalse, parseValue, skipSpace, isSpace, scanLit,
      bQuote, bLBrace, bLBracket]

theorem reads_str (hspells : Spells p body read) (s : GoString) : Reads p body read (.str s) := by
  refine reads_of_succ trivial fun k r _ _ => ?_
  have hs : isSpace bQuote = false := by decide
  simp only [write, mapStrings, List.cons_append, List.append_assoc, List.nil_append, parseValue,
    skipSpace_cons hs, if_true, hspells s r, Option.map_some]

mutual

theorem reads (hspells : Spells p body read) : ∀ v : Json Num, v.Nums Num.WF → Reads p body read v
  | .null, _ => reads_lit (.inl rfl)
  | .bool true, _ => reads_lit (.inr (.inl rfl))
  | .bool false, _ => reads_lit (.inr (.inr rfl))
  | .num _, hn => reads_num hn
  | .str s, _ => reads_str hspells s
  | .arr [], hv => reads_of_succ hv fun _ _ _ _ => parseValue_iff.mpr
      (.emptyArr (skipSpace_cons (by decide) _) (skipSpace_cons (by decide) _))
  | .arr (v :: vs), hv => by
    have hfirst : Reads p body read v := reads hspells v hv.1
    refine reads_of_succ hv fun k r _ hk => ?_
    obtain ⟨b, t, heq, hb⟩ := @write_opens body v hv.1
    have hitems := parseItems_write hspells vs hv.2 v hfirst k r (by simp [write] at hk; omega)
    rw [write, List.cons_append, List.append_assoc]
    rw [heq, List.cons_append] at hitems ⊢
    exact parseValue_iff.mpr
      (.arr (skipSpace_cons (by decide) _) (skipSpace_cons hb.1 _) hb.2.1 hitems)
  | .obj [], hv => reads_of_succ hv fun _ _ _ _ => parseValue_iff.mpr
      (.emptyObj (skipSpace_cons (by decide) _) (skipSpace_cons (by decide) _))
  | .obj ((key, v) :: ms), hv => by
    have hfirst : Reads p body read v := reads hspells v hv.1
    refine reads_of_succ hv fun k r _ hk => ?_
    have hmembers := parseMembers_write hspells ms hv.2 key v hfirst k r (by simp [write] at hk; omega)
    simp only [write, List.cons_append, List.append_assoc]
    exact parseValue_iff.mpr
      (.obj (skipSpace_cons (by decide) _) (skipSpace_cons (by decide) _) (by decide) hmembers)

theorem parseItems_write (hspells : Spells p body read) :
    ∀ vs : List (Json Num), NumsItems Num.WF vs →
    ∀ v, Reads p body read v →
    ∀ n r, (write body v).length + (writeItems body vs).length ≤ n →
      parseItems p n (write body v ++ (writeItems body vs ++ r)) =
        some (mapStringsItems read (v :: vs), r)
  | vs, hvs, v, hv, 0, r, hn => by cases vs <;> simp [writeItems] at hn
  | [], _, v, hv, n + 1, r, hn => by
    have hread := hv n _ (stop_of_separator (.inr (.inl rfl)) r) (by simp [writeItems] at hn; omega)
    exact parseItems_iff.mpr (.last hread (skipSpace_cons (by decide) r))
  | w :: ws, hws, v, hv, n + 1, r, hn => by
    have hw : Reads p body read w := reads hspells w hws.1
    simp only [writeItems, List.length_cons, List.length_append] at hn
    rw [writeItems, List.cons_append, List.append_assoc]
    exact parseItems_iff.mpr (.more (hv n _ (stop_of_separator (.inl rfl) _) (by omega))
      (skipSpace_cons (by decide) _) (parseItems_write hspells ws hws.2 w hw n r (by omega)))

theorem parseMembers_write (hspells : Spells p body read) :
    ∀ ms : List (GoString × Json Num), NumsMembers Num.WF ms →
    ∀ key v, Reads p body read v →
    ∀ n r, (body key).length + (write body v).length + (writeMembers body ms).length ≤ n →
      parseMembers p n (bQuote ::
          (body key ++ bQuote :: bColon :: (write body v ++ (writeMembers body ms ++ r)))) =
        some (mapStringsMembers read ((key, v) :: ms), r)
  | ms, hms, key, v, hv, 0, r, hn => by cases ms <;> simp [writeMembers] at hn
  | [], _, key, v, hv, n + 1, r, hn => by
    have hread := hv n _ (stop_of_separator (.inr (.inr rfl)) r) (by simp [writeMembers] at hn; omega)
    exact parseMembers_iff.mpr (.last (skipSpace_cons (by decide) _) (hspells key _)
      (skipSpace_cons (by decide) _) hread (skipSpace_cons (by decide) r))
  | (key', w) :: ws, hws, key, v, hv, n + 1, r, hn => by
    have hw : Reads p body read w := reads hspells w hws.1
    simp only [writeMembers, List.length_cons, List.length_append] at hn
    simp only [writeMembers, List.cons_append, List.append_assoc]
    exact parseMembers_iff.mpr (.more (skipSpace_cons (by decide) _) (hspells key _)
      (skipSpace_cons (by decide) _) (hv n _ (stop_of_separator (.inl rfl) _) (by omega))
      (skipSpace_cons (by decide) _)
      (parseMembers_write hspells ws hws.2 key' w hw n r (by omega)))

end

/-- **Reading undoes writing**, up to how the reader reads the writer's strings. -/
theorem parse_write (hspells : Spells p body read) (v : Json Num) (hv : v.Nums Num.WF) :
    parse p (write body v) = some (mapStrings read v) := by
  have h := reads hspells v hv ((write body v).length + 1) [] trivial (by omega)
  rw [List.append_nil] at h
  simp [parse, h, skipSpace]

theorem parse_text (v : Json Num) (hv : v.Nums Num.WF) : parse p (text v) = some v := by
  rw [text_eq_write, parse_write spells_escape v hv, mapStrings_self]

theorem text_injective {w : Json Num} (hv : v.Nums Num.WF) (hw : w.Nums Num.WF)
    (h : text v = text w) : v = w := by
  have hv' := parse_text (p := .reject) v hv
  rw [h, parse_text w hw] at hv'
  exact (Option.some.inj hv').symm

end MiniCloud.Lib.Json
