import Mathlib.Data.List.DropRight
import MiniCloud.Lib.Json.Grammar
import MiniCloud.StrictJson

/-!
# The tokens of the decoder

What a successful `Token` has found in the input, with the token after a separator as a parameter:
`TokenForm`. In a state that allows a value the decoder returns its token at once; a comma or a
colon in front of a value is taken first and leads to such a state (`token_comma`, `token_colon`).
-/

namespace MiniCloud.StrictJson

open Lib Problem Json

variable {tok : Token} {d : Decoder} {r : GoString}

namespace Decoder

variable {rest t : GoString} {st : TokenState} {stack : List TokenState} {b : UInt8} {k : Nat}

/-- The states in which a value may come next. -/
def Allowed (st : TokenState) : Prop :=
  st = .topValue ∨ st = .arrayStart ∨ st = .arrayValue ∨ st = .objectValue

theorem valueAllowed_iff : (Decoder.mk rest st stack).valueAllowed = true ↔ Allowed st := by
  simp [valueAllowed, Allowed, or_assoc]

/-! ## Tokens -/

/-- A byte that is no delimiter and no separator starts a scalar or a name. -/
def Plain (b : UInt8) : Prop :=
  b ≠ bLBracket ∧ b ≠ bRBracket ∧ b ≠ bLBrace ∧ b ≠ bRBrace ∧ b ≠ bColon ∧ b ≠ bComma

/-- How the decoder returns a token, given how it does after a separator. -/
inductive TokenForm (next : Decoder → Token → Decoder → Prop) (rest : GoString) (st : TokenState)
    (stack : List TokenState) : Token → Decoder → Prop
  | enterArray {t : GoString} (h : skipSpace rest = bLBracket :: t) (hst : Allowed st) :
      TokenForm next rest st stack (.delim bLBracket) ⟨t, .arrayStart, st :: stack⟩
  | enterObject {t : GoString} (h : skipSpace rest = bLBrace :: t) (hst : Allowed st) :
      TokenForm next rest st stack (.delim bLBrace) ⟨t, .objectStart, st :: stack⟩
  | leaveArray {t : GoString} {s : TokenState} {below : List TokenState}
      (h : skipSpace rest = bRBracket :: t) (hst : st = .arrayStart ∨ st = .arrayComma)
      (hstack : stack = s :: below) :
      TokenForm next rest st stack (.delim bRBracket) ⟨t, TokenState.valueEnd s, below⟩
  | leaveObject {t : GoString} {s : TokenState} {below : List TokenState}
      (h : skipSpace rest = bRBrace :: t) (hst : st = .objectStart ∨ st = .objectComma)
      (hstack : stack = s :: below) :
      TokenForm next rest st stack (.delim bRBrace) ⟨t, TokenState.valueEnd s, below⟩
  | colon {t : GoString} {tok : Token} {d : Decoder} (h : skipSpace rest = bColon :: t)
      (hst : st = .objectColon) (hnext : next ⟨t, .objectValue, stack⟩ tok d) :
      TokenForm next rest st stack tok d
  | commaArray {t : GoString} {tok : Token} {d : Decoder} (h : skipSpace rest = bComma :: t)
      (hst : st = .arrayComma) (hnext : next ⟨t, .arrayValue, stack⟩ tok d) :
      TokenForm next rest st stack tok d
  | commaObject {t : GoString} {tok : Token} {d : Decoder} (h : skipSpace rest = bComma :: t)
      (hst : st = .objectComma) (hnext : next ⟨t, .objectKey, stack⟩ tok d) :
      TokenForm next rest st stack tok d
  | key {t s r : GoString} (h : skipSpace rest = bQuote :: t)
      (hst : st = .objectStart ∨ st = .objectKey)
      (hscan : scanString .replace t.length t = some (s, r)) :
      TokenForm next rest st stack (.str s) ⟨r, .objectColon, stack⟩
  | scalar {b : UInt8} {t r : GoString} {tok : Token} (h : skipSpace rest = b :: t)
      (hb : Plain b) (hst : Allowed st) (hscan : Decoder.scalar (b :: t) = some (tok, r)) :
      TokenForm next rest st stack tok ⟨r, TokenState.valueEnd st, stack⟩

theorem value_ok {b : UInt8} {t : GoString} {next : Decoder → Token → Decoder → Prop}
    (hrest : skipSpace rest = b :: t) (hb : Plain b)
    (h : value ⟨rest, st, stack⟩ (b :: t) = .ok (tok, d)) : TokenForm next rest st stack tok d := by
  unfold value at h
  split at h
  · cases h
  next tok' r hscan =>
  split_ifs at h with hkey hallowed
  · cases h
    obtain ⟨hquote, hst⟩ := hkey
    have hq : b = bQuote := Option.some.inj hquote
    subst hq
    rw [Decoder.scalar, if_pos rfl] at hscan
    obtain ⟨⟨s, r'⟩, hstring, heq⟩ := Option.map_eq_some_iff.mp hscan
    cases heq
    exact .key hrest hst hstring
  · cases h
    exact .scalar hrest hb (valueAllowed_iff.mp hallowed) hscan

theorem tokenLoop_ok (h : tokenLoop (k + 1) ⟨rest, st, stack⟩ = .ok (tok, d)) :
    TokenForm (fun d tok d' => tokenLoop k d = .ok (tok, d')) rest st stack tok d := by
  rw [tokenLoop] at h
  dsimp only at h
  split at h
  · cases h
  next b t hrest =>
  split_ifs at h with h1 h2 h3 h4 h5 hst h6 harray hobject
  · subst h1
    rw [enter] at h
    split_ifs at h with hallowed
    cases h
    exact .enterArray hrest (valueAllowed_iff.mp hallowed)
  · subst h2
    unfold leave at h
    split at h
    · rename_i hst hstack
      cases h
      exact .leaveArray hrest (by simpa using hst) hstack
    · cases h
  · subst h3
    rw [enter] at h
    split_ifs at h with hallowed
    cases h
    exact .enterObject hrest (valueAllowed_iff.mp hallowed)
  · subst h4
    unfold leave at h
    split at h
    · rename_i hst hstack
      cases h
      exact .leaveObject hrest (by simpa using hst) hstack
    · cases h
  · subst h5
    exact .colon hrest hst h
  · subst h6
    exact .commaArray hrest harray h
  · subst h6
    exact .commaObject hrest hobject h
  · exact value_ok hrest ⟨h1, h2, h3, h4, h5, h6⟩ h

theorem tokenLoop_of_form
    (h : TokenForm (fun d tok d' => tokenLoop k d = .ok (tok, d')) rest st stack tok d) :
    tokenLoop (k + 1) ⟨rest, st, stack⟩ = .ok (tok, d) := by
  rw [tokenLoop]
  cases h with
  | enterArray h hst | enterObject h hst =>
    simp only [h]
    exact if_pos (valueAllowed_iff.mpr hst)
  | leaveArray h hst hstack | leaveObject h hst hstack =>
    subst hstack
    simp only [h]
    rcases hst with rfl | rfl
    · rfl
    · rfl
  | colon h hst hnext | commaArray h hst hnext | commaObject h hst hnext =>
    subst hst
    simp only [h]
    exact hnext
  | key h hst hscan =>
    simp only [h]
    show value _ _ = _
    rw [value, Decoder.scalar, if_pos rfl, hscan]
    exact if_pos ⟨rfl, hst⟩
  | scalar h hb hst hscan =>
    obtain ⟨h1, h2, h3, h4, h5, h6⟩ := hb
    simp only [h, if_neg h1, if_neg h2, if_neg h3, if_neg h4, if_neg h5, if_neg h6, value, hscan]
    rw [if_neg, if_pos (valueAllowed_iff.mpr hst)]
    rintro ⟨-, hkey⟩
    rcases hst with rfl | rfl | rfl | rfl <;> simp at hkey

/-! ## Separators -/

/-- The states in which a separator comes next. -/
def Separated (st : TokenState) : Prop :=
  st = .objectColon ∨ st = .arrayComma ∨ st = .objectComma

/-- Where no separator is due, nothing depends on what comes after one. -/
theorem TokenForm.congr {next next' : Decoder → Token → Decoder → Prop} (hst : ¬ Separated st)
    (h : TokenForm next rest st stack tok d) : TokenForm next' rest st stack tok d := by
  cases h with
  | enterArray h hst => exact .enterArray h hst
  | enterObject h hst => exact .enterObject h hst
  | leaveArray h hst hstack => exact .leaveArray h hst hstack
  | leaveObject h hst hstack => exact .leaveObject h hst hstack
  | colon h heq => exact absurd (.inl heq) hst
  | commaArray h heq => exact absurd (.inr (.inl heq)) hst
  | commaObject h heq => exact absurd (.inr (.inr heq)) hst
  | key h hst hscan => exact .key h hst hscan
  | scalar h hb hst hscan => exact .scalar h hb hst hscan

theorem tokenLoop_congr {k' : Nat} (hst : ¬ Separated st)
    (h : tokenLoop (k + 1) ⟨rest, st, stack⟩ = .ok (tok, d)) :
    tokenLoop (k' + 1) ⟨rest, st, stack⟩ = .ok (tok, d) :=
  tokenLoop_of_form ((tokenLoop_ok h).congr hst)

theorem token_colon :
    (Decoder.mk rest .objectColon stack).token = .ok (tok, d) ↔
      ∃ t, skipSpace rest = bColon :: t ∧
        (Decoder.mk t .objectValue stack).token = .ok (tok, d) := by
  constructor
  · intro h
    cases tokenLoop_ok h with
    | colon hrest hst hnext => exact ⟨_, hrest, tokenLoop_congr (by simp [Separated]) hnext⟩
    | commaArray hrest hst | commaObject hrest hst => cases hst
    | enterArray _ hst | enterObject _ hst | scalar _ _ hst => exact absurd hst (by simp [Allowed])
    | leaveArray _ hst | leaveObject _ hst | key _ hst => exact absurd hst (by simp)
  · rintro ⟨t, hrest, h⟩
    exact tokenLoop_of_form (.colon hrest rfl (tokenLoop_congr (by simp [Separated]) h))

/-- After an item there is a comma and another item, or the array is closed. -/
theorem token_comma (htok : tok ≠ .delim bRBracket) :
    (Decoder.mk rest .arrayComma stack).token = .ok (tok, d) ↔
      ∃ t, skipSpace rest = bComma :: t ∧
        (Decoder.mk t .arrayValue stack).token = .ok (tok, d) := by
  constructor
  · intro h
    cases tokenLoop_ok h with
    | commaArray hrest hst hnext => exact ⟨_, hrest, tokenLoop_congr (by simp [Separated]) hnext⟩
    | colon hrest hst | commaObject hrest hst => cases hst
    | enterArray _ hst | enterObject _ hst | scalar _ _ hst => exact absurd hst (by simp [Allowed])
    | leaveArray hrest hst => exact absurd rfl htok
    | leaveObject _ hst | key _ hst => exact absurd hst (by simp)
  · rintro ⟨t, hrest, h⟩
    exact tokenLoop_of_form (.commaArray hrest rfl (tokenLoop_congr (by simp [Separated]) h))

/-- Where the next member starts: after the brace, or after a comma. -/
def MemberAt (st : TokenState) (rest bs : GoString) : Prop :=
  st = .objectStart ∧ bs = skipSpace rest ∨ st = .objectComma ∧ skipSpace rest = bComma :: bs

theorem skipSpace_skipSpace (bs : GoString) : skipSpace (skipSpace bs) = skipSpace bs :=
  List.dropWhile_idempotent isSpace bs

theorem token_key {key : GoString} (hst : st = .objectStart ∨ st = .objectComma) :
    (Decoder.mk rest st stack).token = .ok (.str key, d) ↔
      ∃ bs t r, MemberAt st rest bs ∧ skipSpace bs = bQuote :: t ∧
        scanString .replace t.length t = some (key, r) ∧ d = ⟨r, .objectColon, stack⟩ := by
  constructor
  · intro h
    cases tokenLoop_ok h with
    | @key t s r hrest hkey hscan =>
      have hstart : st = .objectStart := by
        rcases hst with rfl | rfl
        · rfl
        · rcases hkey with hkey | hkey <;> cases hkey
      exact ⟨_, t, r, .inl ⟨hstart, rfl⟩, by rw [skipSpace_skipSpace, hrest], hscan, rfl⟩
    | @commaObject t tok d hrest hcomma hnext =>
      cases tokenLoop_ok hnext with
      | @key u s r hrest' hkey hscan => exact ⟨t, u, r, .inr ⟨hcomma, hrest⟩, hrest', hscan, rfl⟩
      | colon hrest hst | commaArray hrest hst | commaObject hrest hst => cases hst
      | scalar hrest hb hst => exact absurd hst (by simp [Allowed])
    | colon hrest heq | commaArray hrest heq =>
      subst heq
      exact absurd hst (by simp)
    | scalar hrest hb hallowed =>
      rcases hst with rfl | rfl <;> exact absurd hallowed (by simp [Allowed])
  · rintro ⟨bs, t, r, hat, hbs, hscan, rfl⟩
    rcases hat with ⟨rfl, rfl⟩ | ⟨rfl, hrest⟩
    · rw [skipSpace_skipSpace] at hbs
      exact tokenLoop_of_form (.key hbs (.inl rfl) hscan)
    · refine tokenLoop_of_form (.commaObject hrest rfl ?_)
      exact tokenLoop_of_form (.key hbs (.inr rfl) hscan)

theorem more_iff : (Decoder.mk rest st stack).more = true ↔
    ∃ b t, skipSpace rest = b :: t ∧ b ≠ bRBracket ∧ b ≠ bRBrace := by
  unfold more
  cases h : skipSpace rest with
  | nil | cons => simp

/-! ## Scalars -/

theorem scanNum_head {b : UInt8} {t : GoString} {n : Json.Num}
    (h : scanNum (b :: t) = some (n, r)) : b = bMinus ∨ Text.isDigit b = true := by
  unfold scanNum at h
  by_cases hb : b = bMinus
  · exact .inl hb
  · right
    rw [scanMinus, if_neg hb] at h
    dsimp only [scanInt] at h
    by_cases hzero : b = bZero
    · subst hzero
      decide
    · rw [if_neg hzero] at h
      by_contra hdigit
      rw [if_neg hdigit] at h
      cases h

/-- A scalar starts with a plain byte. -/
theorem plain_of_scalar {b : UInt8} {t : GoString} {v : Json Json.Num}
    (h : scanScalar (b :: t) = some (v, r)) : Plain b := by
  have hbytes : ∀ b : UInt8, b = 0x6E ∨ b = 0x74 ∨ b = 0x66 ∨ b = bMinus ∨ Text.isDigit b = true →
      Plain b := Text.forall_byte (by unfold Plain; decide +kernel)
  rw [scanScalar] at h
  split_ifs at h with hn ht hf
  · exact hbytes b (.inl hn)
  · exact hbytes b (.inr (.inl ht))
  · exact hbytes b (.inr (.inr (.inl hf)))
  · obtain ⟨⟨n, r'⟩, hscan, -⟩ := Option.map_eq_some_iff.mp h
    exact hbytes b (.inr (.inr (.inr (scanNum_head hscan))))

/-- The token of a scalar that is no string, without its value. -/
theorem scalar_eq {b : UInt8} {t : GoString} (hb : b ≠ bQuote) :
    Decoder.scalar (b :: t) = (scanScalar (b :: t)).map fun x => (.scalar, x.2) := by
  rw [Decoder.scalar, if_neg hb, scanScalar]
  split_ifs <;> simp only [Option.map_map] <;> rfl

theorem scalar_not_delim {bs : GoString} {c : UInt8} : Decoder.scalar bs ≠ some (.delim c, r) := by
  intro h
  rcases bs with _ | ⟨b, t⟩
  · cases h
  rw [Decoder.scalar] at h
  split_ifs at h
  all_goals
    obtain ⟨x, -, heq⟩ := Option.map_eq_some_iff.mp h
    cases heq

end Decoder

end MiniCloud.StrictJson
