import MiniCloud.Lib.Json.Marshal
import MiniCloud.Lib.Json.RoundTrip

/-!
# What `json.Marshal` writes is read back

`json.Marshal` is a writer in the sense of `write`. It escapes more than it has to and replaces
every stray byte, so a reader gets each string cleaned; the text itself is valid UTF-8 whatever
the strings were.
-/

namespace MiniCloud.Lib.Json

variable {p : Lone}

/-! ## The body of a string, rune by rune -/

def replacementEscape : GoString := [bBackslash, 0x75, 0x66, 0x66, 0x66, 0x64]

/-- What the encoder writes for one correctly encoded rune. -/
def runeText : GoString → GoString
  | [b] => escapeASCII b
  | [b, c, d] =>
    if [b, c, d] = [0xE2, 0x80, 0xA8] || [b, c, d] = [0xE2, 0x80, 0xA9] then escapeSeparator d
    else [b, c, d]
  | rune => rune

theorem marshalFrom_drop (k : Nat) (s : GoString) : marshalFrom k s = marshalFrom 0 (s.drop k) := by
  induction s generalizing k with
  | nil => cases k <;> rfl
  | cons b rest ih =>
    cases k with
    | zero => rfl
    | succ k => exact ih k

theorem marshalFrom_long {b : UInt8} {rest : GoString} {n : Nat}
    (h : Text.runeLen (b :: rest) = n + 2) :
    marshalFrom 0 (b :: rest) =
      (if b :: rest.take (n + 1) = [0xE2, 0x80, 0xA8] || b :: rest.take (n + 1) = [0xE2, 0x80, 0xA9]
        then escapeSeparator (rest.getD 1 0) else b :: rest.take (n + 1)) ++
      marshalFrom 0 (rest.drop (n + 1)) := by
  rw [marshalFrom, h, ← marshalFrom_drop]
  rfl

theorem marshalFrom_rune {n : Nat} {rune : GoString} (h : Text.Rune n rune) (rest : GoString) :
    marshalFrom 0 (rune ++ rest) = runeText rune ++ marshalFrom 0 rest := by
  have hlen := h.runeLen rest
  cases h with
  | one hb =>
    simp only [List.cons_append, List.nil_append] at hlen ⊢
    rw [marshalFrom, hlen]
    rfl
  | two | four =>
    rw [List.cons_append] at hlen ⊢
    rw [marshalFrom_long hlen, if_neg (by simp)]
    rfl
  | @three b c d hb hc hd =>
    rw [List.cons_append] at hlen ⊢
    rw [marshalFrom_long hlen]
    rfl

theorem marshalFrom_stray {b : UInt8} {rest : GoString} (h : Text.runeLen (b :: rest) = 0) :
    marshalFrom 0 (b :: rest) = replacementEscape ++ marshalFrom 0 rest := by
  rw [marshalFrom, h]
  rfl

/-! ## Reading it back -/

/-- Put the bytes of a rune in front of what the scanner returns. -/
def prepend (l : GoString) (x : GoString × GoString) : GoString × GoString := (l ++ x.1, x.2)

theorem scanString_high {l : GoString} (h : ∀ x ∈ l, 0x80 ≤ x) (n : Nat) (rest : GoString) :
    scanString p (n + l.length) (l ++ rest) =
      (scanString p n rest).map (prepend l) := by
  induction l with
  | nil =>
    rw [List.length_nil, Nat.add_zero, List.nil_append]
    cases scanString p n rest with
    | none | some => rfl
  | cons b l ih =>
    have hb : ∀ b : UInt8, 0x80 ≤ b → b ≠ bQuote ∧ ¬ b < 0x20 ∧ b ≠ bBackslash :=
      Text.forall_byte (by decide +kernel)
    obtain ⟨hquote, hcontrol, hslash⟩ := hb b (h b (by simp))
    have ih := ih fun x hx => h x (by simp [hx])
    rw [List.length_cons, ← Nat.add_assoc, List.cons_append]
    simp only [scanString, hquote, hcontrol, if_false, ne_eq, hslash, not_false_iff, if_true, ih]
    cases scanString p n rest with
    | none | some => rfl

/-- A `\u` escape takes one unit of fuel. -/
theorem scanString_unicode {hex u : GoString} (n : Nat) (rest : GoString)
    (h : scanUnicode p (hex ++ rest) = some (u, rest)) :
    scanString p (n + 1) (bBackslash :: 0x75 :: (hex ++ rest)) =
      (scanString p n rest).map (prepend u) := by
  have hq : bBackslash ≠ bQuote := by decide
  have hc : ¬ bBackslash < 0x20 := by decide
  simp only [scanString, hq, hc, if_false, ne_eq, not_true, if_true, h]
  rfl

theorem scanString_escapeASCII (b : UInt8) (n : Nat) (rest : GoString) :
    scanString p (n + 1) (escapeASCII b ++ rest) =
      (scanString p n rest).map (prepend [b]) := by
  by_cases h : b = 0x3C ∨ b = 0x3E ∨ b = 0x26
  · have hscan : ∃ hex, escapeASCII b = bBackslash :: 0x75 :: hex ∧
        scanUnicode p (hex ++ rest) = some ([b], rest) := by
      rcases h with rfl | rfl | rfl
      · exact ⟨_, rfl, rfl⟩
      · exact ⟨_, rfl, rfl⟩
      · exact ⟨_, rfl, rfl⟩
    obtain ⟨hex, heq, hscan⟩ := hscan
    rw [heq]
    exact scanString_unicode n rest hscan
  · rw [escapeASCII, if_neg (by simpa [or_assoc] using h)]
    exact scanString_escapeByte b n rest

theorem scanString_separator {last : UInt8} (h : last = 0xA8 ∨ last = 0xA9) (n : Nat)
    (rest : GoString) :
    scanString p (n + 1) (escapeSeparator last ++ rest) =
      (scanString p n rest).map (prepend [0xE2, 0x80, last]) := by
  have hscan : scanUnicode p ([0x32, bZero, 0x32, last - 0x70] ++ rest) =
      some ([0xE2, 0x80, last], rest) := by
    rcases h with rfl | rfl
    · rfl
    · rfl
  exact scanString_unicode n rest hscan

theorem scanString_replacement (n : Nat) (rest : GoString) :
    scanString p (n + 1) (replacementEscape ++ rest) =
      (scanString p n rest).map (prepend Text.replacement) := by
  have hscan : scanUnicode p ([0x66, 0x66, 0x66, 0x64] ++ rest) = some (Text.replacement, rest) :=
    rfl
  exact scanString_unicode n rest hscan

/-- One rune is read back, with no more fuel than the bytes it was written in. -/
theorem scanString_runeText {k : Nat} {rune : GoString} (h : Text.Rune k rune) (rest : GoString)
    {n : Nat} (hn : (runeText rune).length ≤ n) :
    ∃ m, n ≤ m + (runeText rune).length ∧ scanString p n (runeText rune ++ rest) =
      (scanString p m rest).map (prepend rune) := by
  by_cases hone : k = 1
  · subst hone
    obtain ⟨b, rfl⟩ : ∃ b, rune = [b] := by
      cases h with
      | one hb => exact ⟨_, rfl⟩
    have hlength := (length_escapeASCII b).1
    simp only [runeText] at hn ⊢
    refine ⟨n - 1, by omega, ?_⟩
    rw [← scanString_escapeASCII b (n - 1) rest]
    congr 1
    omega
  · have hhigh := h.high hone
    -- a rune of several bytes is copied unless it is one of the two separators
    by_cases hsep : ∃ last, rune = [0xE2, 0x80, last] ∧ (last = 0xA8 ∨ last = 0xA9)
    · obtain ⟨last, rfl, hlast⟩ := hsep
      have htext : runeText [0xE2, 0x80, last] = escapeSeparator last := by
        rcases hlast with rfl | rfl
        · rfl
        · rfl
      have hlength : (escapeSeparator last).length = 6 := rfl
      rw [htext] at hn ⊢
      refine ⟨n - 1, by omega, ?_⟩
      rw [← scanString_separator hlast (n - 1) rest]
      congr 1
      omega
    · have htext : runeText rune = rune := by
        cases h with
        | one hb => exact absurd rfl hone
        | two | four => rfl
        | @three b c d hb hc hd =>
          rw [runeText, if_neg]
          simp only [Bool.or_eq_true, decide_eq_true_eq]
          rintro (heq | heq)
          · exact hsep ⟨_, heq, .inl rfl⟩
          · exact hsep ⟨_, heq, .inr rfl⟩
      rw [htext] at hn ⊢
      refine ⟨n - rune.length, by omega, ?_⟩
      rw [← scanString_high hhigh (n - rune.length) rest]
      congr 1
      omega

theorem scanString_marshal (s r : GoString) : ∀ n, (marshalFrom 0 s).length + 1 ≤ n →
    scanString p n (marshalFrom 0 s ++ bQuote :: r) = some (Text.sanitize s, r) := by
  refine Text.rune_induction (motive := fun s => ∀ n, (marshalFrom 0 s).length + 1 ≤ n →
    scanString p n (marshalFrom 0 s ++ bQuote :: r) = some (Text.sanitize s, r)) ?_ ?_ ?_ s
  · intro n hn
    obtain ⟨n, rfl⟩ : ∃ m, n = m + 1 := ⟨n - 1, by simp [marshalFrom] at hn; omega⟩
    simp [marshalFrom, scanString, Text.sanitize, Text.sanitizeFrom]
  · intro k rune rest hrune ih n hn
    rw [marshalFrom_rune hrune] at hn ⊢
    rw [List.length_append] at hn
    obtain ⟨m, hm, hscan⟩ :=
      @scanString_runeText p k rune hrune (marshalFrom 0 rest ++ bQuote :: r) n (by omega)
    rw [List.append_assoc, hscan, ih m (by omega), Text.sanitize_rune hrune]
    rfl
  · intro b rest hstray ih n hn
    rw [marshalFrom_stray hstray] at hn ⊢
    rw [List.length_append] at hn
    have hlength : replacementEscape.length = 6 := rfl
    obtain ⟨n, rfl⟩ : ∃ m, n = m + 1 := ⟨n - 1, by omega⟩
    rw [List.append_assoc, scanString_replacement, ih n (by omega), Text.sanitize_stray hstray]
    rfl

theorem spells_marshal : Spells p (marshalFrom 0) Text.sanitize :=
  fun s r => scanString_marshal s r _ (by simp)

mutual

theorem marshal_eq_write : ∀ v : Json Num, marshal v = write (marshalFrom 0) v
  | .null | .num _ | .str _ => rfl
  | .bool true | .bool false => rfl
  | .arr [] | .obj [] => rfl
  | .arr (v :: vs) => by rw [marshal, write, marshal_eq_write v, marshalItems_eq_write vs]
  | .obj ((k, v) :: ms) => by
    rw [marshal, write, marshal_eq_write v, marshalMembers_eq_write ms, marshalString,
      List.cons_append, List.append_assoc]
    rfl

theorem marshalItems_eq_write : ∀ vs : List (Json Num),
    marshalItems vs = writeItems (marshalFrom 0) vs
  | [] => rfl
  | v :: vs => by rw [marshalItems, writeItems, marshal_eq_write v, marshalItems_eq_write vs]

theorem marshalMembers_eq_write : ∀ ms : List (GoString × Json Num),
    marshalMembers ms = writeMembers (marshalFrom 0) ms
  | [] => rfl
  | (k, v) :: ms => by
    rw [marshalMembers, writeMembers, marshal_eq_write v, marshalMembers_eq_write ms,
      marshalString, List.cons_append, List.append_assoc]
    rfl

end

/-- **What `json.Marshal` writes is read back**, with every string cleaned. -/
theorem parse_marshal (v : Json Num) (hv : v.Nums Num.WF) :
    parse p (marshal v) = some (mapStrings Text.sanitize v) := by
  rw [marshal_eq_write, parse_write spells_marshal v hv]

/-! ## The text is valid -/

theorem validUTF8_runeText {n : Nat} {rune : GoString} (h : Text.Rune n rune) :
    Text.validUTF8 (runeText rune) = true := by
  have hself : Text.validUTF8 rune = true := by
    have hrune := Text.validUTF8_rune h []
    rw [List.append_nil] at hrune
    exact hrune
  have hascii : ∀ b : UInt8, b < 0x80 → Text.validUTF8 (escapeASCII b) = true :=
    Text.forall_byte (by decide +kernel)
  cases h with
  | one hb => exact hascii _ hb
  | two | four => exact hself
  | @three b c d hb hc hd =>
    rw [runeText]
    split_ifs with hsep
    · simp only [Bool.or_eq_true, decide_eq_true_eq] at hsep
      rcases hsep with hsep | hsep
      · cases hsep
        decide
      · cases hsep
        decide
    · exact hself

theorem validUTF8_marshalFrom (s : GoString) : Text.validUTF8 (marshalFrom 0 s) = true := by
  refine Text.rune_induction (motive := fun s => Text.validUTF8 (marshalFrom 0 s) = true) rfl ?_ ?_ s
  · intro n rune rest hrune ih
    rw [marshalFrom_rune hrune, Text.validUTF8_append (validUTF8_runeText hrune), ih]
  · intro b rest hstray ih
    rw [marshalFrom_stray hstray, Text.validUTF8_append (by decide), ih]

theorem validUTF8_num {n : Num} (hn : n.WF) : Text.validUTF8 n.text = true := by
  have hdigit : ∀ b : UInt8, Text.isDigit b = true → b < 0x80 := Text.forall_byte (by decide +kernel)
  have hdigits : ∀ ds : GoString, ds.all Text.isDigit = true → Text.validUTF8 ds = true := by
    intro ds hds
    exact Text.validUTF8_ascii fun b hb => hdigit b (List.all_eq_true.mp hds b hb)
  have hsign : Text.validUTF8 (if n.neg then [bMinus] else []) = true := by
    cases n.neg <;> rfl
  have hint : Text.validUTF8 n.int = true := by
    rcases hn.int with hzero | ⟨-, hall⟩
    · rw [hzero]
      rfl
    · exact hdigits _ hall
  have hfrac : Text.validUTF8 (fracText n.frac) = true := by
    unfold fracText
    split_ifs
    · rfl
    · rw [Text.validUTF8_cons (by decide)]
      exact hdigits _ hn.frac
  have hexp : Text.validUTF8 (expText n.exp) = true := by
    cases he : n.exp with
    | none => rfl
    | some e =>
      have hsignText : Text.validUTF8 (signText e.sign) = true := by
        rcases e.sign with _ | _ | _ <;> rfl
      rw [expText, Text.validUTF8_cons (by split_ifs <;> decide), Text.validUTF8_append hsignText]
      exact hdigits _ (hn.exp e he).2
  rw [Num.text, Text.validUTF8_append hsign, Text.validUTF8_append hint,
    Text.validUTF8_append hfrac, hexp]

section Written

variable {body : GoString → GoString}

mutual

theorem validUTF8_write (hbody : ∀ s, Text.validUTF8 (body s) = true) :
    ∀ v : Json Num, v.Nums Num.WF → Text.validUTF8 (write body v) = true
  | .null, _ => rfl
  | .bool true, _ => rfl
  | .bool false, _ => rfl
  | .num _, hn => validUTF8_num hn
  | .str s, _ => by
    rw [write, Text.validUTF8_cons (by decide), Text.validUTF8_append (hbody s)]
    decide
  | .arr [], _ => rfl
  | .arr (v :: vs), hv => by
    rw [write, Text.validUTF8_cons (by decide),
      Text.validUTF8_append (validUTF8_write hbody v hv.1), validUTF8_writeItems hbody vs hv.2]
  | .obj [], _ => rfl
  | .obj ((k, v) :: ms), hv => by
    rw [write, Text.validUTF8_cons (by decide), Text.validUTF8_cons (by decide),
      Text.validUTF8_append (hbody k), Text.validUTF8_cons (by decide),
      Text.validUTF8_cons (by decide), Text.validUTF8_append (validUTF8_write hbody v hv.1),
      validUTF8_writeMembers hbody ms hv.2]

theorem validUTF8_writeItems (hbody : ∀ s, Text.validUTF8 (body s) = true) :
    ∀ vs : List (Json Num), NumsItems Num.WF vs → Text.validUTF8 (writeItems body vs) = true
  | [], _ => rfl
  | v :: vs, hvs => by
    rw [writeItems, Text.validUTF8_cons (by decide),
      Text.validUTF8_append (validUTF8_write hbody v hvs.1), validUTF8_writeItems hbody vs hvs.2]

theorem validUTF8_writeMembers (hbody : ∀ s, Text.validUTF8 (body s) = true) :
    ∀ ms : List (GoString × Json Num), NumsMembers Num.WF ms →
      Text.validUTF8 (writeMembers body ms) = true
  | [], _ => rfl
  | (k, v) :: ms, hms => by
    rw [writeMembers, Text.validUTF8_cons (by decide), Text.validUTF8_cons (by decide),
      Text.validUTF8_append (hbody k), Text.validUTF8_cons (by decide),
      Text.validUTF8_cons (by decide), Text.validUTF8_append (validUTF8_write hbody v hms.1),
      validUTF8_writeMembers hbody ms hms.2]

end

end Written

theorem validUTF8_marshal (v : Json Num) (hv : v.Nums Num.WF) :
    Text.validUTF8 (marshal v) = true := by
  rw [marshal_eq_write]
  exact validUTF8_write validUTF8_marshalFrom v hv

end MiniCloud.Lib.Json
