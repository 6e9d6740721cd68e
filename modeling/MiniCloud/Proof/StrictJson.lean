import MiniCloud.Proof.StrictTokens

/-!
# What `strictjson.Validate` accepts

`Validate` walks tokens and the typed decoders read values, so the two have to be brought together:
the texts that `Validate` accepts are the valid UTF-8 texts of one value whose objects have no name
twice and whose nesting is within the limit (`validate_iff`).

Both directions are inductions on the fuel of one side. A separator in front of a value leads to a
state that allows one, so an item or a member is read with the same lemma as the root.
-/

namespace MiniCloud.Lib.Json

variable {N : Type}

mutual

/-- How deep the containers of a value are nested. -/
def height : Json N → Nat
  | .arr vs => heightItems vs + 1
  | .obj ms => heightMembers ms + 1
  | _ => 0

def heightItems : List (Json N) → Nat
  | [] => 0
  | v :: vs => max (height v) (heightItems vs)

def heightMembers : List (GoString × Json N) → Nat
  | [] => 0
  | (_, v) :: ms => max (height v) (heightMembers ms)

end

end MiniCloud.Lib.Json

namespace MiniCloud.StrictJson

open Lib Problem Json

variable {r bs : GoString} {d d' : Decoder}

/-- A scalar has no containers. -/
theorem flat_of_scanScalar {b : UInt8} {t : GoString} {v : Json Json.Num}
    (h : scanScalar (b :: t) = some (v, r)) : height v = 0 ∧ Json.Unique v := by
  rw [scanScalar] at h
  split_ifs at h
  all_goals
    obtain ⟨x, -, heq⟩ := Option.map_eq_some_iff.mp h
    cases heq
    exact ⟨rfl, trivial⟩

/-! ## Values -/

open Decoder

variable {maxDepth n depth : Nat} {rest : GoString} {st s : TokenState} {stack : List TokenState}

/-- What comes after the first token of a value. -/
inductive Follows (maxDepth n depth : Nat) : Token → Decoder → Decoder → Prop
  | object {d d' : Decoder} (hdepth : depth + 1 ≤ maxDepth)
      (h : validateObject maxDepth n (depth + 1) [] d = .ok d') :
      Follows maxDepth n depth (.delim bLBrace) d d'
  | array {d d' : Decoder} (hdepth : depth + 1 ≤ maxDepth)
      (h : validateArray maxDepth n (depth + 1) d = .ok d') :
      Follows maxDepth n depth (.delim bLBracket) d d'
  | str {string : GoString} {d : Decoder} : Follows maxDepth n depth (.str string) d d
  | scalar {d : Decoder} : Follows maxDepth n depth .scalar d d

theorem validateValue_succ : validateValue maxDepth (n + 1) depth d = .ok d' ↔
    ∃ tok d₁, d.token = .ok (tok, d₁) ∧ Follows maxDepth n depth tok d₁ d' := by
  rw [validateValue]
  constructor
  · intro h
    split at h
    · cases h
    · rename_i b d₁ htok
      split_ifs at h with hdepth hbrace hbracket
      · exact ⟨_, d₁, htok, hbrace ▸ .object (not_lt.mp hdepth) h⟩
      · exact ⟨_, d₁, htok, hbracket ▸ .array (not_lt.mp hdepth) h⟩
    · rename_i tok d₁ hdelim htok
      cases h
      refine ⟨tok, d', htok, ?_⟩
      cases tok with
      | delim b => exact absurd rfl (hdelim b)
      | str string => exact .str
      | scalar => exact .scalar
  · rintro ⟨tok, d₁, htok, hfollows⟩
    rw [htok]
    cases hfollows with
    | object hdepth h =>
      dsimp only
      rw [if_neg (not_lt.mpr hdepth), if_pos rfl, h]
    | array hdepth h =>
      dsimp only
      rw [if_neg (not_lt.mpr hdepth), if_neg (by decide), if_pos rfl, h]
    | str | scalar => rfl

theorem consumeClosing_iff {expected : UInt8} :
    consumeClosing d expected = .ok d' ↔ d.token = .ok (.delim expected, d') := by
  unfold consumeClosing
  cases htok : d.token with
  | error e => simp
  | ok x =>
    obtain ⟨tok, d₁⟩ := x
    dsimp only
    split_ifs with heq
    · simp [heq]
    · simp [heq]

/-- The members of an object: none, or one and the rest. -/
theorem validateObject_succ {keys : List GoString} :
    validateObject maxDepth (n + 1) depth keys d = .ok d' ↔
      (d.more = true ∧ ∃ key d₁ d₂, d.token = .ok (.str key, d₁) ∧ key ∉ keys ∧
        validateValue maxDepth n depth d₁ = .ok d₂ ∧
        validateObject maxDepth n depth (key :: keys) d₂ = .ok d') ∨
      d.more = false ∧ d.token = .ok (.delim bRBrace, d') := by
  rw [validateObject]
  by_cases hmore : d.more = true
  · simp only [hmore, if_true, true_and, reduceCtorEq, false_and, or_false]
    constructor
    · intro h
      split at h
      · cases h
      · rename_i key d₁ htok
        split_ifs at h with hkey
        split at h
        · cases h
        next d₂ hval => exact ⟨key, d₁, d₂, htok, hkey, hval, h⟩
      · cases h
    · rintro ⟨key, d₁, d₂, htok, hkey, hval, h⟩
      simp only [htok, if_neg hkey, hval, h]
  · simp [hmore, consumeClosing_iff]

theorem validateArray_succ : validateArray maxDepth (n + 1) depth d = .ok d' ↔
    (d.more = true ∧ ∃ d₁, validateValue maxDepth n depth d = .ok d₁ ∧
      validateArray maxDepth n depth d₁ = .ok d') ∨
    d.more = false ∧ d.token = .ok (.delim bRBracket, d') := by
  rw [validateArray]
  by_cases hmore : d.more = true
  · cases validateValue maxDepth n depth d <;> simp [hmore]
  · simp [hmore, consumeClosing_iff]

/-- A validated value has a first token that closes nothing, and depends on no more than that. -/
theorem validateValue_first (h : validateValue maxDepth n depth d = .ok d') :
    ∃ tok d₁, d.token = .ok (tok, d₁) ∧ tok ≠ .delim bRBracket ∧
      ∀ d₀ : Decoder, d₀.token = .ok (tok, d₁) → validateValue maxDepth n depth d₀ = .ok d' := by
  cases n with
  | zero =>
    rw [validateValue] at h
    cases h
  | succ n =>
    obtain ⟨tok, d₁, htok, hfollows⟩ := validateValue_succ.mp h
    refine ⟨tok, d₁, htok, ?_, fun d₀ h₀ => validateValue_succ.mpr ⟨tok, d₁, h₀, hfollows⟩⟩
    rintro rfl
    cases hfollows

theorem validateValue_colon :
    validateValue maxDepth n depth ⟨rest, .objectColon, stack⟩ = .ok d' ↔
      ∃ t, skipSpace rest = bColon :: t ∧
        validateValue maxDepth n depth ⟨t, .objectValue, stack⟩ = .ok d' := by
  constructor
  · intro h
    obtain ⟨tok, d₁, htok, -, hsame⟩ := validateValue_first h
    obtain ⟨t, hrest, htok'⟩ := token_colon.mp htok
    exact ⟨t, hrest, hsame _ htok'⟩
  · rintro ⟨t, hrest, h⟩
    obtain ⟨tok, d₁, htok', -, hsame⟩ := validateValue_first h
    exact hsame _ (token_colon.mpr ⟨t, hrest, htok'⟩)

theorem validateValue_comma :
    validateValue maxDepth n depth ⟨rest, .arrayComma, stack⟩ = .ok d' ↔
      ∃ t, skipSpace rest = bComma :: t ∧
        validateValue maxDepth n depth ⟨t, .arrayValue, stack⟩ = .ok d' := by
  constructor
  · intro h
    obtain ⟨tok, d₁, htok, hopen, hsame⟩ := validateValue_first h
    obtain ⟨t, hrest, htok'⟩ := (token_comma hopen).mp htok
    exact ⟨t, hrest, hsame _ htok'⟩
  · rintro ⟨t, hrest, h⟩
    obtain ⟨tok, d₁, htok', hopen, hsame⟩ := validateValue_first h
    exact hsame _ ((token_comma hopen).mpr ⟨t, hrest, htok'⟩)

/-- The closing brace of an object that has no further member. -/
theorem token_closeBrace (hst : st = .objectStart ∨ st = .objectComma) :
    (Decoder.mk rest st (s :: stack)).token = .ok (.delim bRBrace, d') ↔
      ∃ r, skipSpace rest = bRBrace :: r ∧ d' = ⟨r, TokenState.valueEnd s, stack⟩ := by
  constructor
  · intro h
    cases tokenLoop_ok h with
    | leaveObject hrest hleave hstack =>
      cases hstack
      exact ⟨_, hrest, rfl⟩
    | colon hrest heq | commaArray hrest heq =>
      subst heq
      exact absurd hst (by simp)
    | commaObject hrest heq hnext =>
      -- after a comma only a name may come
      cases tokenLoop_ok hnext with
      | leaveObject hrest hleave => exact absurd hleave (by simp)
      | colon hrest heq | commaArray hrest heq | commaObject hrest heq => cases heq
      | scalar hrest hb hallowed => exact absurd hallowed (by simp [Allowed])
    | scalar hrest hb hallowed =>
      rcases hst with rfl | rfl <;> exact absurd hallowed (by simp [Allowed])
  · rintro ⟨r, hrest, rfl⟩
    exact tokenLoop_of_form (.leaveObject hrest hst rfl)

/-- The closing bracket of an array that has no further item. -/
theorem token_closeBracket (hst : st = .arrayStart ∨ st = .arrayComma) :
    (Decoder.mk rest st (s :: stack)).token = .ok (.delim bRBracket, d') ↔
      ∃ r, skipSpace rest = bRBracket :: r ∧ d' = ⟨r, TokenState.valueEnd s, stack⟩ := by
  constructor
  · intro h
    cases tokenLoop_ok h with
    | leaveArray hrest hleave hstack =>
      cases hstack
      exact ⟨_, hrest, rfl⟩
    | colon hrest heq | commaObject hrest heq =>
      subst heq
      exact absurd hst (by simp)
    | commaArray hrest heq hnext =>
      -- after a comma only a value may come
      cases tokenLoop_ok hnext with
      | leaveArray hrest hleave => exact absurd hleave (by simp)
      | colon hrest heq | commaArray hrest heq | commaObject hrest heq => cases heq
      | scalar hrest hb hallowed hscan => exact absurd hscan scalar_not_delim
    | scalar hrest hb hallowed hscan => exact absurd hscan scalar_not_delim
  · rintro ⟨r, hrest, rfl⟩
    exact tokenLoop_of_form (.leaveArray hrest hst rfl)

/-! ## Members and items -/

/-- The members from where the decoder stands in an object, which it may close at once. -/
def MembersAt (n : Nat) (st : TokenState) (rest : GoString) (ms : List (GoString × Json Json.Num))
    (r : GoString) : Prop :=
  skipSpace rest = bRBrace :: r ∧ ms = [] ∨
    ∃ bs, MemberAt st rest bs ∧ parseMembers .replace n bs = some (ms, r)

/-- Where the next item starts: after the bracket, or after a comma. -/
def ItemAt (st : TokenState) (rest bs : GoString) : Prop :=
  st = .arrayStart ∧ bs = skipSpace rest ∨ st = .arrayComma ∧ skipSpace rest = bComma :: bs

def ItemsAt (n : Nat) (st : TokenState) (rest : GoString) (vs : List (Json Json.Num)) (r : GoString) :
    Prop :=
  skipSpace rest = bRBracket :: r ∧ vs = [] ∨
    ∃ bs, ItemAt st rest bs ∧ parseItems .replace n bs = some (vs, r)

theorem parseValue_skipSpace (p : Lone) (n : Nat) (bs : GoString) :
    parseValue p n (skipSpace bs) = parseValue p n bs := by
  cases n with
  | zero => rw [parseValue, parseValue]
  | succ n => rw [parseValue, parseValue, skipSpace_skipSpace]

/-- A value starts with a byte that closes nothing. -/
theorem parseValue_head {v : Json Json.Num} (h : parseValue .replace n bs = some (v, r)) :
    ∃ b t, skipSpace bs = b :: t ∧ b ≠ bRBracket ∧ b ≠ bRBrace := by
  cases n with
  | zero =>
    rw [parseValue] at h
    cases h
  | succ n =>
    cases parseValue_iff.mp h with
    | str hbs | emptyObj hbs | obj hbs | emptyArr hbs | arr hbs =>
      exact ⟨_, _, hbs, by decide, by decide⟩
    | scalar hbs hb hscan =>
      obtain ⟨-, hbracket, -, hbrace, -, -⟩ := plain_of_scalar hscan
      exact ⟨_, _, hbs, hbracket, hbrace⟩

theorem parseItems_head {vs : List (Json Json.Num)} (h : parseItems .replace n bs = some (vs, r)) :
    ∃ b t, skipSpace bs = b :: t ∧ b ≠ bRBracket ∧ b ≠ bRBrace := by
  cases n with
  | zero =>
    rw [parseItems] at h
    cases h
  | succ n =>
    cases parseItems_iff.mp h with
    | last hv | more hv => exact parseValue_head hv

theorem parseMembers_head {ms : List (GoString × Json Json.Num)}
    (h : parseMembers .replace n bs = some (ms, r)) : ∃ t, skipSpace bs = bQuote :: t := by
  cases n with
  | zero =>
    rw [parseMembers] at h
    cases h
  | succ n =>
    cases parseMembers_iff.mp h with
    | last hbs | more hbs => exact ⟨_, hbs⟩

/-! ## Soundness -/

/-- What a validated value is, whatever the state that allows it. -/
def SoundValue (maxDepth n : Nat) : Prop :=
  ∀ depth rest st stack d', Allowed st → depth ≤ maxDepth →
    validateValue maxDepth n depth ⟨rest, st, stack⟩ = .ok d' →
    ∃ v r, parseValue .replace n rest = some (v, r) ∧ d' = ⟨r, TokenState.valueEnd st, stack⟩ ∧
      Json.Unique v ∧ depth + height v ≤ maxDepth

def SoundMembers (maxDepth n : Nat) : Prop :=
  ∀ depth keys rest st s stack d', (st = .objectStart ∨ st = .objectComma) → depth ≤ maxDepth →
    validateObject maxDepth n depth keys ⟨rest, st, s :: stack⟩ = .ok d' →
    ∃ ms r, MembersAt n st rest ms r ∧ d' = ⟨r, TokenState.valueEnd s, stack⟩ ∧
      (ms.map Prod.fst).Nodup ∧ (∀ k ∈ ms.map Prod.fst, k ∉ keys) ∧ UniqueMembers ms ∧
      depth + heightMembers ms ≤ maxDepth

def SoundItems (maxDepth n : Nat) : Prop :=
  ∀ depth rest st s stack d', (st = .arrayStart ∨ st = .arrayComma) → depth ≤ maxDepth →
    validateArray maxDepth n depth ⟨rest, st, s :: stack⟩ = .ok d' →
    ∃ vs r, ItemsAt n st rest vs r ∧ d' = ⟨r, TokenState.valueEnd s, stack⟩ ∧ UniqueItems vs ∧
      depth + heightItems vs ≤ maxDepth

theorem soundValue_succ (hmembers : SoundMembers maxDepth n) (hitems : SoundItems maxDepth n) :
    SoundValue maxDepth (n + 1) := by
  intro depth rest st stack d' hst hdepth h
  obtain ⟨tok, d₁, htok, hfollows⟩ := validateValue_succ.mp h
  cases tokenLoop_ok htok with
  | @enterObject t hrest =>
    cases hfollows with
    | object hdeep h =>
    obtain ⟨ms, r, hat, rfl, hnodup, -, hunique, hheight⟩ :=
      hmembers _ _ _ _ _ _ _ (.inl rfl) hdeep h
    refine ⟨.obj ms, r, parseValue_iff.mpr ?_, rfl, ⟨hnodup, hunique⟩, ?_⟩
    · rcases hat with ⟨hend, rfl⟩ | ⟨bs, ⟨-, rfl⟩ | ⟨habsurd, -⟩, hms⟩
      · exact .emptyObj hrest hend
      · obtain ⟨u, hu⟩ := parseMembers_head hms
        rw [skipSpace_skipSpace] at hu
        rw [hu] at hms
        exact .obj hrest hu (by decide) hms
      · cases habsurd
    · rw [height]
      omega
  | @enterArray t hrest =>
    cases hfollows with
    | array hdeep h =>
    obtain ⟨vs, r, hat, rfl, hunique, hheight⟩ := hitems _ _ _ _ _ _ (.inl rfl) hdeep h
    refine ⟨.arr vs, r, parseValue_iff.mpr ?_, rfl, hunique, ?_⟩
    · rcases hat with ⟨hend, rfl⟩ | ⟨bs, ⟨-, rfl⟩ | ⟨habsurd, -⟩, hvs⟩
      · exact .emptyArr hrest hend
      · obtain ⟨b, u, hu, hclose, -⟩ := parseItems_head hvs
        rw [skipSpace_skipSpace] at hu
        rw [hu] at hvs
        exact .arr hrest hu hclose hvs
      · cases habsurd
    · rw [height]
      omega
  | leaveArray | leaveObject => cases hfollows
  | colon hrest heq | commaArray hrest heq | commaObject hrest heq =>
    rcases hst with rfl | rfl | rfl | rfl <;> cases heq
  | key hrest heq =>
    rcases hst with rfl | rfl | rfl | rfl <;> exact absurd heq (by simp)
  | @scalar b t r tok hrest hb hallowed hscan =>
    -- a scalar is a string or not, and nothing is nested in it either way
    have hd : d' = ⟨r, TokenState.valueEnd st, stack⟩ := by
      cases hfollows with
      | object | array => exact absurd hscan scalar_not_delim
      | str | scalar => rfl
    subst hd
    by_cases hquote : b = bQuote
    · subst hquote
      rw [Decoder.scalar, if_pos rfl] at hscan
      obtain ⟨⟨string, r'⟩, hstring, heq⟩ := Option.map_eq_some_iff.mp hscan
      cases heq
      exact ⟨.str string, r, parseValue_iff.mpr (.str hrest hstring), rfl, trivial, hdepth⟩
    · rw [scalar_eq hquote] at hscan
      obtain ⟨⟨v, r'⟩, hv, heq⟩ := Option.map_eq_some_iff.mp hscan
      cases heq
      obtain ⟨hflat, hunique⟩ := flat_of_scanScalar hv
      refine ⟨v, r', parseValue_iff.mpr ?_, rfl, hunique, by omega⟩
      exact .scalar hrest ⟨hquote, hb.2.2.1, hb.1⟩ hv

theorem soundMembers_succ (hvalue : SoundValue maxDepth n) (hmembers : SoundMembers maxDepth n) :
    SoundMembers maxDepth (n + 1) := by
  intro depth keys rest st s stack d' hst hdepth h
  rcases validateObject_succ.mp h with ⟨-, key, d₁, d₂, htok, hkey, hval, h⟩ | ⟨-, hend⟩
  · obtain ⟨bs, t, r₁, hat, hbs, hscan, rfl⟩ := (token_key hst).mp htok
    obtain ⟨r₂, hcolon, hval⟩ := validateValue_colon.mp hval
    obtain ⟨v, r₃, hv, rfl, hunique, hheight⟩ :=
      hvalue _ _ _ _ _ (.inr (.inr (.inr rfl))) hdepth hval
    obtain ⟨ms, r, hrest, rfl, hnodup, hnew, huniques, hheights⟩ :=
      hmembers _ _ _ _ _ _ _ (.inr rfl) hdepth h
    refine ⟨(key, v) :: ms, r, .inr ⟨bs, hat, parseMembers_iff.mpr ?_⟩, rfl, ?_, ?_,
      ⟨hunique, huniques⟩, ?_⟩
    · rcases hrest with ⟨hend, rfl⟩ | ⟨bs', ⟨habsurd, -⟩ | ⟨-, hcomma⟩, hms⟩
      · exact .last hbs hscan hcolon hv hend
      · cases habsurd
      · exact .more hbs hscan hcolon hv hcomma hms
    · rw [List.map_cons, List.nodup_cons]
      exact ⟨fun hmem => hnew key hmem List.mem_cons_self, hnodup⟩
    · intro k hk
      rw [List.map_cons, List.mem_cons] at hk
      rcases hk with rfl | hk
      · exact hkey
      · exact fun hmem => hnew k hk (List.mem_cons_of_mem _ hmem)
    · rw [heightMembers]
      omega
  · obtain ⟨r, hrest, rfl⟩ := (token_closeBrace hst).mp hend
    exact ⟨[], r, .inl ⟨hrest, rfl⟩, rfl, List.nodup_nil, by simp, trivial, by simpa [heightMembers]⟩

theorem soundItems_succ (hvalue : SoundValue maxDepth n) (hitems : SoundItems maxDepth n) :
    SoundItems maxDepth (n + 1) := by
  intro depth rest st s stack d' hst hdepth h
  rcases validateArray_succ.mp h with ⟨-, d₁, hval, h⟩ | ⟨-, hend⟩
  · -- the item stands here, or behind a comma
    obtain ⟨bs, v, r₁, hat, hv, rfl, hunique, hheight⟩ : ∃ bs v r₁, ItemAt st rest bs ∧
        parseValue .replace n bs = some (v, r₁) ∧ d₁ = ⟨r₁, .arrayComma, s :: stack⟩ ∧
        Json.Unique v ∧ depth + height v ≤ maxDepth := by
      rcases hst with rfl | rfl
      · obtain ⟨v, r₁, hv, heq, hunique, hheight⟩ :=
          hvalue _ _ _ _ _ (.inr (.inl rfl)) hdepth hval
        exact ⟨_, v, r₁, .inl ⟨rfl, rfl⟩, by rw [parseValue_skipSpace, hv], heq, hunique, hheight⟩
      · obtain ⟨t, hcomma, hval⟩ := validateValue_comma.mp hval
        obtain ⟨v, r₁, hv, heq, hunique, hheight⟩ :=
          hvalue _ _ _ _ _ (.inr (.inr (.inl rfl))) hdepth hval
        exact ⟨t, v, r₁, .inr ⟨rfl, hcomma⟩, hv, heq, hunique, hheight⟩
    obtain ⟨vs, r, hrest, rfl, huniques, hheights⟩ := hitems _ _ _ _ _ _ (.inr rfl) hdepth h
    refine ⟨v :: vs, r, .inr ⟨bs, hat, parseItems_iff.mpr ?_⟩, rfl, ⟨hunique, huniques⟩, ?_⟩
    · rcases hrest with ⟨hend, rfl⟩ | ⟨bs', ⟨habsurd, -⟩ | ⟨-, hcomma⟩, hvs⟩
      · exact .last hv hend
      · cases habsurd
      · exact .more hv hcomma hvs
    · rw [heightItems]
      omega
  · obtain ⟨r, hrest, rfl⟩ := (token_closeBracket hst).mp hend
    exact ⟨[], r, .inl ⟨hrest, rfl⟩, rfl, trivial, by simpa [heightItems]⟩

theorem sound (maxDepth n : Nat) :
    SoundValue maxDepth n ∧ SoundMembers maxDepth n ∧ SoundItems maxDepth n := by
  induction n with
  | zero =>
    refine ⟨?_, ?_, ?_⟩
    · intro depth rest st stack d' _ _ h
      rw [validateValue] at h
      cases h
    · intro depth keys rest st s stack d' _ _ h
      rw [validateObject] at h
      cases h
    · intro depth rest st s stack d' _ _ h
      rw [validateArray] at h
      cases h
  | succ n ih =>
    obtain ⟨hvalue, hmembers, hitems⟩ := ih
    exact ⟨soundValue_succ hmembers hitems, soundMembers_succ hvalue hmembers,
      soundItems_succ hvalue hitems⟩

/-! ## Completeness -/

def CompleteValue (maxDepth n : Nat) : Prop :=
  ∀ m depth rest st stack v r, n < m → Allowed st →
    parseValue .replace n rest = some (v, r) → Json.Unique v → depth + height v ≤ maxDepth →
    validateValue maxDepth m depth ⟨rest, st, stack⟩ =
      .ok ⟨r, TokenState.valueEnd st, stack⟩

def CompleteMembers (maxDepth n : Nat) : Prop :=
  ∀ m depth keys rest bs st s stack ms r, n < m → MemberAt st rest bs →
    parseMembers .replace n bs = some (ms, r) → (ms.map Prod.fst).Nodup →
    (∀ k ∈ ms.map Prod.fst, k ∉ keys) → UniqueMembers ms →
    depth + heightMembers ms ≤ maxDepth →
    validateObject maxDepth m depth keys ⟨rest, st, s :: stack⟩ =
      .ok ⟨r, TokenState.valueEnd s, stack⟩

def CompleteItems (maxDepth n : Nat) : Prop :=
  ∀ m depth rest bs st s stack vs r, n < m → ItemAt st rest bs →
    parseItems .replace n bs = some (vs, r) → UniqueItems vs →
    depth + heightItems vs ≤ maxDepth →
    validateArray maxDepth m depth ⟨rest, st, s :: stack⟩ =
      .ok ⟨r, TokenState.valueEnd s, stack⟩

theorem validateObject_close {m : Nat} {keys : List GoString} (hm : 0 < m)
    (hst : st = .objectStart ∨ st = .objectComma) (hrest : skipSpace rest = bRBrace :: r) :
    validateObject maxDepth m depth keys ⟨rest, st, s :: stack⟩ =
      .ok ⟨r, TokenState.valueEnd s, stack⟩ := by
  obtain ⟨m, rfl⟩ : ∃ k, m = k + 1 := ⟨m - 1, by omega⟩
  refine validateObject_succ.mpr (.inr ⟨?_, (token_closeBrace hst).mpr ⟨r, hrest, rfl⟩⟩)
  simp [more, hrest]

theorem validateArray_close {m : Nat} (hm : 0 < m) (hst : st = .arrayStart ∨ st = .arrayComma)
    (hrest : skipSpace rest = bRBracket :: r) :
    validateArray maxDepth m depth ⟨rest, st, s :: stack⟩ =
      .ok ⟨r, TokenState.valueEnd s, stack⟩ := by
  obtain ⟨m, rfl⟩ : ∃ k, m = k + 1 := ⟨m - 1, by omega⟩
  refine validateArray_succ.mpr (.inr ⟨?_, (token_closeBracket hst).mpr ⟨r, hrest, rfl⟩⟩)
  simp [more, hrest]

theorem completeValue_succ (hmembers : CompleteMembers maxDepth n)
    (hitems : CompleteItems maxDepth n) : CompleteValue maxDepth (n + 1) := by
  intro m depth rest st stack v r hm hst hparse hunique hheight
  obtain ⟨m, rfl⟩ : ∃ k, m = k + 1 := ⟨m - 1, by omega⟩
  refine validateValue_succ.mpr ?_
  cases parseValue_iff.mp hparse with
  | @str t string r hbs hscan =>
    refine ⟨.str string, _, tokenLoop_of_form (.scalar hbs (by unfold Plain; decide) hst ?_), .str⟩
    rw [Decoder.scalar, if_pos rfl, hscan]
    rfl
  | @scalar b t r v hbs hb hscan =>
    refine ⟨_, _, tokenLoop_of_form (.scalar hbs (plain_of_scalar hscan) hst ?_), .scalar⟩
    rw [scalar_eq hb.1, hscan]
    rfl
  | @emptyObj t r hbs hrest =>
    rw [height] at hheight
    exact ⟨_, _, tokenLoop_of_form (.enterObject hbs hst), .object (by omega)
      (validateObject_close (by omega) (.inl rfl) hrest)⟩
  | @obj t u r c ms hbs hrest hc hms =>
    rw [height] at hheight
    exact ⟨_, _, tokenLoop_of_form (.enterObject hbs hst), .object (by omega)
      (hmembers m (depth + 1) [] t (c :: u) _ _ _ _ _ (by omega) (.inl ⟨rfl, hrest.symm⟩) hms
        hunique.1 (by simp) hunique.2 (by omega))⟩
  | @emptyArr t r hbs hrest =>
    rw [height] at hheight
    exact ⟨_, _, tokenLoop_of_form (.enterArray hbs hst), .array (by omega)
      (validateArray_close (by omega) (.inl rfl) hrest)⟩
  | @arr t u r c vs hbs hrest hc hvs =>
    rw [height] at hheight
    exact ⟨_, _, tokenLoop_of_form (.enterArray hbs hst), .array (by omega)
      (hitems m (depth + 1) t (c :: u) _ _ _ _ _ (by omega) (.inl ⟨rfl, hrest.symm⟩) hvs hunique
        (by omega))⟩

theorem completeMembers_succ (hvalue : CompleteValue maxDepth n)
    (hmembers : CompleteMembers maxDepth n) : CompleteMembers maxDepth (n + 1) := by
  intro m depth keys rest bs st s stack ms r hm hat hparse hnodup hnew hunique hheight
  obtain ⟨m, rfl⟩ : ∃ k, m = k + 1 := ⟨m - 1, by omega⟩
  obtain ⟨t, ht⟩ := parseMembers_head hparse
  have hst : st = .objectStart ∨ st = .objectComma := by
    rcases hat with ⟨rfl, -⟩ | ⟨rfl, -⟩
    · exact .inl rfl
    · exact .inr rfl
  have hmore : (Decoder.mk rest st (s :: stack)).more = true := by
    rw [more_iff]
    rcases hat with ⟨-, rfl⟩ | ⟨-, hcomma⟩
    · rw [skipSpace_skipSpace] at ht
      exact ⟨_, _, ht, by decide, by decide⟩
    · exact ⟨_, _, hcomma, by decide, by decide⟩
  -- the name and the value of the first member, which both forms start with
  have hfirst : ∀ key v r₁ r₂ r₃ d', scanString .replace t.length t = some (key, r₁) →
      skipSpace r₁ = bColon :: r₂ → parseValue .replace n r₂ = some (v, r₃) → key ∉ keys →
      Json.Unique v → depth + height v ≤ maxDepth →
      validateObject maxDepth m depth (key :: keys) ⟨r₃, .objectComma, s :: stack⟩ = .ok d' →
      validateObject maxDepth (m + 1) depth keys ⟨rest, st, s :: stack⟩ = .ok d' := by
    intro key v r₁ r₂ r₃ d' hscan hcolon hv hkey hu hh hrest
    have hval := validateValue_colon.mpr ⟨r₂, hcolon,
      hvalue m depth r₂ .objectValue (s :: stack) v r₃ (by omega) (.inr (.inr (.inr rfl))) hv hu hh⟩
    exact validateObject_succ.mpr (.inl ⟨hmore, key, _, _,
      (token_key hst).mpr ⟨bs, t, r₁, hat, ht, hscan, rfl⟩, hkey, hval, hrest⟩)
  cases parseMembers_iff.mp hparse with
  | @last t' key r₁ r₂ r₃ r v hbs hkey hcolon hv hend =>
    cases ht.symm.trans hbs
    rw [heightMembers] at hheight
    exact hfirst key v r₁ r₂ r₃ _ hkey hcolon hv (hnew key (by simp)) hunique.1 (by omega)
      (validateObject_close (by omega) (.inr rfl) hend)
  | @more t' key r₁ r₂ r₃ u r v ms hbs hkey hcolon hv hcomma hms =>
    cases ht.symm.trans hbs
    rw [heightMembers] at hheight
    rw [List.map_cons, List.nodup_cons] at hnodup
    refine hfirst key v r₁ r₂ r₃ _ hkey hcolon hv (hnew key (by simp)) hunique.1 (by omega)
      (hmembers m depth (key :: keys) r₃ u _ _ _ _ _ (by omega) (.inr ⟨rfl, hcomma⟩) hms
        hnodup.2 ?_ hunique.2 (by omega))
    intro k hk hmem
    rcases List.mem_cons.mp hmem with rfl | hmem
    · exact hnodup.1 hk
    · exact hnew k (List.mem_cons_of_mem _ hk) hmem

theorem completeItems_succ (hvalue : CompleteValue maxDepth n)
    (hitems : CompleteItems maxDepth n) : CompleteItems maxDepth (n + 1) := by
  intro m depth rest bs st s stack vs r hm hat hparse hunique hheight
  obtain ⟨m, rfl⟩ : ∃ k, m = k + 1 := ⟨m - 1, by omega⟩
  obtain ⟨b, t, ht, hbracket, hbrace⟩ := parseItems_head hparse
  have hmore : (Decoder.mk rest st (s :: stack)).more = true := by
    rw [more_iff]
    rcases hat with ⟨-, rfl⟩ | ⟨-, hcomma⟩
    · rw [skipSpace_skipSpace] at ht
      exact ⟨_, _, ht, hbracket, hbrace⟩
    · exact ⟨_, _, hcomma, by decide, by decide⟩
  have hfirst : ∀ v r₁ d', parseValue .replace n bs = some (v, r₁) → Json.Unique v →
      depth + height v ≤ maxDepth →
      validateArray maxDepth m depth ⟨r₁, .arrayComma, s :: stack⟩ = .ok d' →
      validateArray maxDepth (m + 1) depth ⟨rest, st, s :: stack⟩ = .ok d' := by
    intro v r₁ d' hv hu hh hrest
    refine validateArray_succ.mpr (.inl ⟨hmore, _, ?_, hrest⟩)
    rcases hat with ⟨rfl, rfl⟩ | ⟨rfl, hcomma⟩
    · rw [parseValue_skipSpace] at hv
      exact hvalue m depth rest .arrayStart _ v r₁ (by omega) (.inr (.inl rfl)) hv hu hh
    · exact validateValue_comma.mpr ⟨bs, hcomma,
        hvalue m depth bs .arrayValue _ v r₁ (by omega) (.inr (.inr (.inl rfl))) hv hu hh⟩
  cases parseItems_iff.mp hparse with
  | @last v r₁ r hv hend =>
    rw [heightItems] at hheight
    exact hfirst v r₁ _ hv hunique.1 (by omega) (validateArray_close (by omega) (.inr rfl) hend)
  | @more v vs r₁ u r hv hcomma hvs =>
    rw [heightItems] at hheight
    exact hfirst v r₁ _ hv hunique.1 (by omega)
      (hitems m depth r₁ u _ _ _ _ _ (by omega) (.inr ⟨rfl, hcomma⟩) hvs hunique.2 (by omega))

theorem complete (maxDepth n : Nat) :
    CompleteValue maxDepth n ∧ CompleteMembers maxDepth n ∧ CompleteItems maxDepth n := by
  induction n with
  | zero =>
    refine ⟨?_, ?_, ?_⟩
    · intro m depth rest st stack v r _ _ h
      rw [parseValue] at h
      cases h
    · intro m depth keys rest bs st s stack ms r _ _ h
      rw [parseMembers] at h
      cases h
    · intro m depth rest bs st s stack vs r _ _ h
      rw [parseItems] at h
      cases h
  | succ n ih =>
    obtain ⟨hvalue, hmembers, hitems⟩ := ih
    exact ⟨completeValue_succ hmembers hitems, completeMembers_succ hvalue hmembers,
      completeItems_succ hvalue hitems⟩

/-! ## Texts -/

/-- After the root value, only white space is the end of the input. -/
theorem token_eof {rest : GoString} :
    (Decoder.mk rest .topValue []).token = .error .eof ↔ skipSpace rest = [] := by
  constructor
  · intro h
    rw [token, tokenLoop] at h
    cases hrest : skipSpace rest with
    | nil => rfl
    | cons b t =>
      rw [hrest] at h
      dsimp only at h
      simp only [reduceCtorEq, if_false] at h
      split_ifs at h
      · cases h
      · cases h
      · cases h
      · cases h
      · cases h
      · cases h
      · unfold value at h
        split at h
        · cases h
        · split_ifs at h
          all_goals cases h
  · intro h
    rw [token, tokenLoop, h]

/-- **What `Validate` accepts**: the valid texts of one value with unique names, nested that deep. -/
theorem validate_iff {data : GoString} {maxDepth : Int} :
    validate data maxDepth = .ok () ↔ 1 ≤ maxDepth ∧ Text.validUTF8 data = true ∧
      ∃ v, parse .replace data = some v ∧ Json.Unique v ∧ (height v : Int) ≤ maxDepth := by
  unfold validate
  by_cases hdepth : maxDepth < 1
  · rw [if_pos hdepth]
    constructor
    · intro h
      cases h
    · rintro ⟨h, -⟩
      omega
  rw [if_neg hdepth]
  by_cases hutf : Text.validUTF8 data = true
  · rw [if_neg (by simp [hutf])]
    constructor
    · intro h
      cases hval : validateValue maxDepth.toNat (2 * data.length + 2) 0 (Decoder.new data) with
      | error e =>
        rw [hval] at h
        cases h
      | ok d =>
        rw [hval] at h
        dsimp only at h
        obtain ⟨v, r, hv, rfl, hunique, hheight⟩ :=
          (sound maxDepth.toNat _).1 0 data .topValue [] d (.inl rfl) (by omega) hval
        refine ⟨by omega, hutf, v, parse_iff.mpr ⟨_, r, hv, ?_⟩, hunique, by omega⟩
        refine token_eof.mp ?_
        split at h
        next hend => exact hend
        next => cases h
        next => cases h
    · rintro ⟨-, -, v, hparse, hunique, hheight⟩
      obtain ⟨n, r, hv, hend⟩ := parse_iff.mp hparse
      have hv := ((parse_fuel n).1 _ _ _ hv).2 (data.length + 1) (by omega)
      have hval := (complete maxDepth.toNat (data.length + 1)).1 (2 * data.length + 2) 0 data
        .topValue [] v r (by omega) (.inl rfl) hv hunique (by omega)
      rw [Decoder.new, hval]
      dsimp only
      rw [show TokenState.valueEnd .topValue = .topValue from rfl, token_eof.mpr hend]
  · rw [if_pos (by simpa using hutf)]
    constructor
    · intro h
      cases h
    · rintro ⟨-, h, -⟩
      exact absurd h hutf

/--
**Strict JSON is exact.** `parse` is the grammar with its white space, names decoded; `Unique` and
`height` look at every object and every level of the value it reads.
-/
theorem strict_json_exact (data : GoString) {maxDepth : Int} (h : 0 < maxDepth) :
    validate data maxDepth = .ok () ↔ Text.validUTF8 data = true ∧
      ∃ v, parse .replace data = some v ∧ (height v : Int) ≤ maxDepth ∧ Json.Unique v := by
  rw [validate_iff]
  constructor
  · rintro ⟨-, hutf, v, hparse, hunique, hheight⟩
    exact ⟨hutf, v, hparse, hheight, hunique⟩
  · rintro ⟨hutf, v, hparse, hheight, hunique⟩
    exact ⟨by omega, hutf, v, hparse, hunique, hheight⟩

theorem strict_json_exact_sample : validate " [\"a\"] " 1 = .ok () := by
  refine (strict_json_exact " [\"a\"] " (by decide)).mpr ⟨by decide, .arr [.str "a"], rfl, ?_, ?_⟩
  · show (1 : Int) ≤ 1
    decide
  · exact ⟨trivial, trivial⟩

end MiniCloud.StrictJson
