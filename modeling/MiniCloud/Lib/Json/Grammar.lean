import MiniCloud.Lib.Json.Parse

/-!
# The parser, one level at a time

What a successful call of the parser has found, with the calls it made in turn as parameters:
`ValueForm`, `ItemsForm` and `MembersForm`. Every other proof about the parser goes through these
forms, in either direction, and does not open its definition.

The first use is that fuel does not matter: a successful call has read at least one byte, and one
unit for each byte it has read is enough (`parse_fuel`).
-/

namespace MiniCloud.Lib.Json

variable {p : Lone} {bs r : GoString}

/-! ## Forms -/

/-- A literal name or a number. -/
def scanScalar : GoString → Option (Json Num × GoString)
  | [] => none
  | b :: rest =>
    if b = 0x6E then (scanLit litNull (b :: rest)).map fun r => (.null, r)
    else if b = 0x74 then (scanLit litTrue (b :: rest)).map fun r => (.bool true, r)
    else if b = 0x66 then (scanLit litFalse (b :: rest)).map fun r => (.bool false, r)
    else (scanNum (b :: rest)).map fun x => (.num x.1, x.2)

/-- How a value reads, given how the items of an array and the members of an object read. -/
inductive ValueForm (p : Lone) (items : GoString → List (Json Num) → GoString → Prop)
    (members : GoString → List (GoString × Json Num) → GoString → Prop) (bs : GoString) :
    Json Num → GoString → Prop
  | str {rest s r : GoString} (hbs : skipSpace bs = bQuote :: rest)
      (hscan : scanString p rest.length rest = some (s, r)) : ValueForm p items members bs (.str s) r
  | scalar {b : UInt8} {rest r : GoString} {v : Json Num} (hbs : skipSpace bs = b :: rest)
      (hb : b ≠ bQuote ∧ b ≠ bLBrace ∧ b ≠ bLBracket)
      (hscan : scanScalar (b :: rest) = some (v, r)) : ValueForm p items members bs v r
  | emptyObj {rest r : GoString} (hbs : skipSpace bs = bLBrace :: rest)
      (hrest : skipSpace rest = bRBrace :: r) : ValueForm p items members bs (.obj []) r
  | obj {rest t r : GoString} {c : UInt8} {ms : List (GoString × Json Num)}
      (hbs : skipSpace bs = bLBrace :: rest) (hrest : skipSpace rest = c :: t) (hc : c ≠ bRBrace)
      (hms : members (c :: t) ms r) : ValueForm p items members bs (.obj ms) r
  | emptyArr {rest r : GoString} (hbs : skipSpace bs = bLBracket :: rest)
      (hrest : skipSpace rest = bRBracket :: r) : ValueForm p items members bs (.arr []) r
  | arr {rest t r : GoString} {c : UInt8} {vs : List (Json Num)}
      (hbs : skipSpace bs = bLBracket :: rest) (hrest : skipSpace rest = c :: t)
      (hc : c ≠ bRBracket) (hvs : items (c :: t) vs r) : ValueForm p items members bs (.arr vs) r

inductive ItemsForm (value : GoString → Json Num → GoString → Prop)
    (items : GoString → List (Json Num) → GoString → Prop) (bs : GoString) :
    List (Json Num) → GoString → Prop
  | last {v : Json Num} {r₁ r : GoString} (hv : value bs v r₁)
      (hend : skipSpace r₁ = bRBracket :: r) : ItemsForm value items bs [v] r
  | more {v : Json Num} {vs : List (Json Num)} {r₁ t r : GoString} (hv : value bs v r₁)
      (hcomma : skipSpace r₁ = bComma :: t) (hvs : items t vs r) :
      ItemsForm value items bs (v :: vs) r

inductive MembersForm (p : Lone) (value : GoString → Json Num → GoString → Prop)
    (members : GoString → List (GoString × Json Num) → GoString → Prop) (bs : GoString) :
    List (GoString × Json Num) → GoString → Prop
  | last {rest k r₁ r₂ r₃ r : GoString} {v : Json Num} (hbs : skipSpace bs = bQuote :: rest)
      (hkey : scanString p rest.length rest = some (k, r₁)) (hcolon : skipSpace r₁ = bColon :: r₂)
      (hv : value r₂ v r₃) (hend : skipSpace r₃ = bRBrace :: r) :
      MembersForm p value members bs [(k, v)] r
  | more {rest k r₁ r₂ r₃ t r : GoString} {v : Json Num} {ms : List (GoString × Json Num)}
      (hbs : skipSpace bs = bQuote :: rest)
      (hkey : scanString p rest.length rest = some (k, r₁)) (hcolon : skipSpace r₁ = bColon :: r₂)
      (hv : value r₂ v r₃) (hcomma : skipSpace r₃ = bComma :: t) (hms : members t ms r) :
      MembersForm p value members bs ((k, v) :: ms) r

/-- A successful call for a value has found one of the forms, and these are all found. -/
theorem parseValue_iff {n : Nat} {v : Json Num} :
    parseValue p (n + 1) bs = some (v, r) ↔
      ValueForm p (fun t vs r => parseItems p n t = some (vs, r))
        (fun t ms r => parseMembers p n t = some (ms, r)) bs v r := by
  constructor
  · intro h
    rw [parseValue] at h
    split at h
    · cases h
    next b rest hbs =>
    by_cases hquote : b = bQuote
    · subst hquote
      rw [if_pos rfl] at h
      obtain ⟨⟨s, r'⟩, hscan, heq⟩ := Option.map_eq_some_iff.mp h
      cases heq
      exact .str hbs hscan
    rw [if_neg hquote] at h
    by_cases hbrace : b = bLBrace
    · subst hbrace
      rw [if_pos rfl] at h
      split at h
      · cases h
      next c t hrest =>
      split_ifs at h with hc
      · subst hc
        cases h
        exact .emptyObj hbs hrest
      · obtain ⟨⟨ms, r'⟩, hms, heq⟩ := Option.map_eq_some_iff.mp h
        cases heq
        exact .obj hbs hrest hc hms
    rw [if_neg hbrace] at h
    by_cases hbracket : b = bLBracket
    · subst hbracket
      rw [if_pos rfl] at h
      split at h
      · cases h
      next c t hrest =>
      split_ifs at h with hc
      · subst hc
        cases h
        exact .emptyArr hbs hrest
      · obtain ⟨⟨vs, r'⟩, hvs, heq⟩ := Option.map_eq_some_iff.mp h
        cases heq
        exact .arr hbs hrest hc hvs
    rw [if_neg hbracket] at h
    exact .scalar hbs ⟨hquote, hbrace, hbracket⟩ h
  · intro h
    rw [parseValue]
    cases h with
    | str hbs hscan => simp only [hbs, if_pos, hscan, Option.map_some]
    | scalar hbs hb hscan =>
      simp only [hbs, if_neg hb.1, if_neg hb.2.1, if_neg hb.2.2]
      exact hscan
    | emptyObj hbs hrest | emptyArr hbs hrest =>
      simp only [hbs, hrest]
      rfl
    | obj hbs hrest hc hms =>
      simp only [hbs, hrest, if_neg hc, hms]
      rfl
    | arr hbs hrest hc hvs =>
      simp only [hbs, hrest, if_neg hc, hvs]
      rfl

theorem parseItems_iff {n : Nat} {vs : List (Json Num)} :
    parseItems p (n + 1) bs = some (vs, r) ↔
      ItemsForm (fun t v r => parseValue p n t = some (v, r))
        (fun t vs r => parseItems p n t = some (vs, r)) bs vs r := by
  constructor
  · intro h
    rw [parseItems] at h
    split at h
    · cases h
    next v r₁ hv =>
    split at h
    · cases h
    next c t hr =>
    split_ifs at h with hcomma hend
    · subst hcomma
      obtain ⟨⟨ws, r'⟩, hws, heq⟩ := Option.map_eq_some_iff.mp h
      cases heq
      exact .more hv hr hws
    · subst hend
      cases h
      exact .last hv hr
  · intro h
    rw [parseItems]
    cases h with
    | last hv hend =>
      simp only [hv, hend]
      rfl
    | more hv hcomma hvs => simp only [hv, hcomma, if_pos, hvs, Option.map_some]

theorem parseMembers_iff {n : Nat} {ms : List (GoString × Json Num)} :
    parseMembers p (n + 1) bs = some (ms, r) ↔
      MembersForm p (fun t v r => parseValue p n t = some (v, r))
        (fun t ms r => parseMembers p n t = some (ms, r)) bs ms r := by
  constructor
  · intro h
    rw [parseMembers] at h
    split at h
    · cases h
    next b rest hbs =>
    split_ifs at h with hquote
    subst hquote
    split at h
    · cases h
    next k r₁ hkey =>
    split at h
    · cases h
    next c r₂ hr₁ =>
    split_ifs at h with hcolon
    subst hcolon
    split at h
    · cases h
    next v r₃ hv =>
    split at h
    · cases h
    next d t hr₃ =>
    split_ifs at h with hcomma hend
    · subst hcomma
      obtain ⟨⟨ns, r'⟩, hns, heq⟩ := Option.map_eq_some_iff.mp h
      cases heq
      exact .more hbs hkey hr₁ hv hr₃ hns
    · subst hend
      cases h
      exact .last hbs hkey hr₁ hv hr₃
  · intro h
    rw [parseMembers]
    cases h with
    | last hbs hkey hcolon hv hend =>
      simp only [hbs, if_pos, hkey, hcolon, hv, hend]
      rfl
    | more hbs hkey hcolon hv hcomma hms =>
      simp only [hbs, if_pos, hkey, hcolon, hv, hcomma, hms, Option.map_some]

/-! ## Every call reads something -/

theorem skipSpace_length (bs : GoString) : (skipSpace bs).length ≤ bs.length :=
  (List.dropWhile_sublist isSpace).length_le

theorem length_of_skipSpace {b : UInt8} {rest : GoString} (h : skipSpace bs = b :: rest) :
    rest.length < bs.length := by
  have hle := skipSpace_length bs
  rw [h, List.length_cons] at hle
  omega

theorem scanHex4_length {x : Nat} (h : scanHex4 bs = some (x, r)) : r.length ≤ bs.length := by
  unfold scanHex4 at h
  split at h
  · split at h
    · cases h
      simp only [List.length_cons]
      omega
    · cases h
  · cases h

theorem scanUnicode_length {u : GoString} (h : scanUnicode p bs = some (u, r)) :
    r.length ≤ bs.length := by
  unfold scanUnicode at h
  split at h
  · cases h
  next x rest hhex =>
  have hrest := scanHex4_length hhex
  by_cases hpair : x < 0xD800 ∨ 0xDFFF < x
  · rw [if_pos hpair] at h
    cases h
    exact hrest
  rw [if_neg hpair] at h
  -- the escape stands alone, or is the first half of a pair
  cases p with
  | reject =>
    dsimp only at h
    split at h
    · simp only [List.length_cons] at hrest
      split_ifs at h
      split at h
      · cases h
      · rename_i hlow
        have hafter := scanHex4_length hlow
        split_ifs at h
        have heq := Prod.mk.inj (Option.some.inj h)
        rw [← heq.2]
        omega
    · cases h
  | replace =>
    dsimp only at h
    split at h
    · simp only [List.length_cons] at hrest
      split_ifs at h
      · split at h
        · cases h
        · rename_i hlow
          have hafter := scanHex4_length hlow
          split_ifs at h
          · have heq := Prod.mk.inj (Option.some.inj h)
            rw [← heq.2]
            omega
          · cases h
            simp only [List.length_cons]
            omega
      · cases h
        simp only [List.length_cons]
        omega
    · cases h
      exact hrest

theorem scanString_length {n : Nat} {s : GoString} (h : scanString p n bs = some (s, r)) :
    r.length < bs.length := by
  induction n generalizing bs s with
  | zero => cases h
  | succ n ih =>
    rcases bs with _ | ⟨b, rest⟩
    · cases h
    unfold scanString at h
    rw [List.length_cons]
    split_ifs at h with hquote hcontrol hplain
    · cases h
      omega
    · obtain ⟨⟨s', r'⟩, hscan, heq⟩ := Option.map_eq_some_iff.mp h
      cases heq
      have := ih hscan
      omega
    · rcases rest with _ | ⟨e, more⟩
      · cases h
      dsimp only at h
      rw [List.length_cons]
      split_ifs at h
      · split at h
        · cases h
        · rename_i u after hu
          have hafter := scanUnicode_length hu
          obtain ⟨⟨s', r'⟩, hscan, heq⟩ := Option.map_eq_some_iff.mp h
          cases heq
          have := ih hscan
          omega
      · split at h
        · cases h
        · obtain ⟨⟨s', r'⟩, hscan, heq⟩ := Option.map_eq_some_iff.mp h
          cases heq
          have := ih hscan
          omega

theorem scanLit_length {lit : GoString} (h : scanLit lit bs = some r) :
    r.length + lit.length = bs.length := by
  induction lit generalizing bs with
  | nil =>
    cases h
    rfl
  | cons c cs ih =>
    rcases bs with _ | ⟨b, bs⟩
    · cases h
    · rw [scanLit] at h
      split_ifs at h
      have := ih h
      simp only [List.length_cons]
      omega

theorem scanDigits_length (bs : GoString) : (scanDigits bs).2.length ≤ bs.length :=
  (List.dropWhile_sublist Text.isDigit).length_le

theorem scanNum_length {n : Num} (h : scanNum bs = some (n, r)) : r.length < bs.length := by
  unfold scanNum at h
  have hminus : (scanMinus bs).2.length ≤ bs.length := by
    rcases bs with _ | ⟨b, rest⟩
    · exact le_rfl
    · rw [scanMinus]
      split_ifs
      · exact Nat.le_succ _
      · exact le_rfl
  split at h
  · cases h
  next int r₁ hint =>
  have hr₁ : r₁.length < (scanMinus bs).2.length := by
    rcases hbs : (scanMinus bs).2 with _ | ⟨b, rest⟩
    · rw [hbs] at hint
      cases hint
    · rw [hbs, scanInt] at hint
      have hdigits := scanDigits_length rest
      rw [List.length_cons]
      split_ifs at hint
      · cases hint
        omega
      · cases hint
        omega
  split at h
  · cases h
  next frac r₂ hfrac =>
  have hr₂ : r₂.length ≤ r₁.length := by
    rcases r₁ with _ | ⟨b, rest⟩
    · cases hfrac
      exact le_rfl
    · rw [scanFrac] at hfrac
      have hdigits := scanDigits_length rest
      split_ifs at hfrac
      · have heq := Option.some.inj hfrac
        rw [heq] at hdigits
        exact hdigits.trans (Nat.le_succ _)
      · cases hfrac
        exact le_rfl
  split at h
  · cases h
  next exp r₃ hexp =>
  cases h
  have hr₃ : r.length ≤ r₂.length := by
    rcases r₂ with _ | ⟨b, rest⟩
    · cases hexp
      exact le_rfl
    · rw [scanExp] at hexp
      split_ifs at hexp
      · dsimp only at hexp
        have hsign : (scanSign rest).2.length ≤ rest.length := by
          rcases rest with _ | ⟨c, rest⟩
          · exact le_rfl
          · rw [scanSign]
            split_ifs
            · exact Nat.le_succ _
            · exact Nat.le_succ _
            · exact le_rfl
        have hdigits := scanDigits_length (scanSign rest).2
        split_ifs at hexp
        cases hexp
        rw [List.length_cons]
        omega
      · cases hexp
        exact le_rfl
  omega

theorem scanScalar_length {v : Json Num} (h : scanScalar bs = some (v, r)) :
    r.length < bs.length := by
  rcases bs with _ | ⟨b, rest⟩
  · cases h
  have hlit : ∀ (lit : GoString) (w : Json Num), lit ≠ [] →
      (scanLit lit (b :: rest)).map (fun r => (w, r)) = some (v, r) →
        r.length < (b :: rest).length := by
    intro lit w hlit h
    obtain ⟨r', hscan, heq⟩ := Option.map_eq_some_iff.mp h
    cases heq
    have hlength := scanLit_length hscan
    have hpos := List.length_pos_iff.mpr hlit
    omega
  rw [scanScalar] at h
  split_ifs at h
  · exact hlit litNull _ (by decide) h
  · exact hlit litTrue _ (by decide) h
  · exact hlit litFalse _ (by decide) h
  · obtain ⟨⟨n, r'⟩, hscan, heq⟩ := Option.map_eq_some_iff.mp h
    cases heq
    exact scanNum_length hscan

/-! ## Fuel -/

/-- A call that reads something has a unit to spend. -/
theorem enough_succ {P : Nat → Prop} {l k : Nat} (hlt : k < l)
    (h : ∀ m, l ≤ k + (m + 1) → P (m + 1)) : k < l ∧ ∀ m, l ≤ k + m → P m := by
  refine ⟨hlt, fun m hm => ?_⟩
  obtain ⟨m, rfl⟩ : ∃ i, m = i + 1 := ⟨m - 1, by omega⟩
  exact h m hm

/--
**Fuel.** A successful call has read something, and one unit for each byte it has read is enough.
The three functions call each other with one unit less, so the induction is on the fuel.
-/
theorem parse_fuel (n : Nat) :
    (∀ bs v r, parseValue p n bs = some (v, r) → r.length < bs.length ∧
      ∀ m, bs.length ≤ r.length + m → parseValue p m bs = some (v, r)) ∧
    (∀ bs vs r, parseItems p n bs = some (vs, r) → r.length < bs.length ∧
      ∀ m, bs.length ≤ r.length + m → parseItems p m bs = some (vs, r)) ∧
    (∀ bs ms r, parseMembers p n bs = some (ms, r) → r.length < bs.length ∧
      ∀ m, bs.length ≤ r.length + m → parseMembers p m bs = some (ms, r)) := by
  induction n with
  | zero =>
    refine ⟨?_, ?_, ?_⟩
    · intro bs v r h
      rw [parseValue] at h
      cases h
    · intro bs vs r h
      rw [parseItems] at h
      cases h
    · intro bs ms r h
      rw [parseMembers] at h
      cases h
  | succ n ih =>
    obtain ⟨ihv, ihi, ihm⟩ := ih
    refine ⟨?_, ?_, ?_⟩
    · intro bs v r h
      cases parseValue_iff.mp h with
      | @str rest s r hbs hscan =>
        have hrest := length_of_skipSpace hbs
        have hr := scanString_length hscan
        exact enough_succ (by omega) fun _ _ => parseValue_iff.mpr (.str hbs hscan)
      | @scalar b rest r v hbs hb hscan =>
        have hrest := skipSpace_length bs
        have hr := scanScalar_length hscan
        rw [hbs] at hrest
        exact enough_succ (by omega) fun _ _ => parseValue_iff.mpr (.scalar hbs hb hscan)
      | @emptyObj rest r hbs hrest =>
        have hlt := length_of_skipSpace hbs
        have hr := length_of_skipSpace hrest
        exact enough_succ (by omega) fun _ _ => parseValue_iff.mpr (.emptyObj hbs hrest)
      | @obj rest t r c ms hbs hrest hc hms =>
        have hlt := length_of_skipSpace hbs
        have hle := skipSpace_length rest
        rw [hrest] at hle
        obtain ⟨hr, hfuel⟩ := ihm _ _ _ hms
        exact enough_succ (by omega) fun k hk =>
          parseValue_iff.mpr (.obj hbs hrest hc (hfuel k (by omega)))
      | @emptyArr rest r hbs hrest =>
        have hlt := length_of_skipSpace hbs
        have hr := length_of_skipSpace hrest
        exact enough_succ (by omega) fun _ _ => parseValue_iff.mpr (.emptyArr hbs hrest)
      | @arr rest t r c vs hbs hrest hc hvs =>
        have hlt := length_of_skipSpace hbs
        have hle := skipSpace_length rest
        rw [hrest] at hle
        obtain ⟨hr, hfuel⟩ := ihi _ _ _ hvs
        exact enough_succ (by omega) fun k hk =>
          parseValue_iff.mpr (.arr hbs hrest hc (hfuel k (by omega)))
    · intro bs vs r h
      cases parseItems_iff.mp h with
      | @last v r₁ r hv hend =>
        obtain ⟨hr₁, hfuel⟩ := ihv _ _ _ hv
        have hr := length_of_skipSpace hend
        exact enough_succ (by omega) fun k hk =>
          parseItems_iff.mpr (.last (hfuel k (by omega)) hend)
      | @more v vs r₁ t r hv hcomma hvs =>
        obtain ⟨hr₁, hfuel⟩ := ihv _ _ _ hv
        have ht := length_of_skipSpace hcomma
        obtain ⟨hr, hfuels⟩ := ihi _ _ _ hvs
        exact enough_succ (by omega) fun k hk =>
          parseItems_iff.mpr (.more (hfuel k (by omega)) hcomma (hfuels k (by omega)))
    · intro bs ms r h
      cases parseMembers_iff.mp h with
      | @last rest k r₁ r₂ r₃ r v hbs hkey hcolon hv hend =>
        have hrest := length_of_skipSpace hbs
        have hr₁ := scanString_length hkey
        have hr₂ := length_of_skipSpace hcolon
        obtain ⟨hr₃, hfuel⟩ := ihv _ _ _ hv
        have hr := length_of_skipSpace hend
        exact enough_succ (by omega) fun k hk =>
          parseMembers_iff.mpr (.last hbs hkey hcolon (hfuel k (by omega)) hend)
      | @more rest k r₁ r₂ r₃ t r v ms hbs hkey hcolon hv hcomma hms =>
        have hrest := length_of_skipSpace hbs
        have hr₁ := scanString_length hkey
        have hr₂ := length_of_skipSpace hcolon
        obtain ⟨hr₃, hfuel⟩ := ihv _ _ _ hv
        have ht := length_of_skipSpace hcomma
        obtain ⟨hr, hfuels⟩ := ihm _ _ _ hms
        exact enough_succ (by omega) fun k hk =>
          parseMembers_iff.mpr
            (.more hbs hkey hcolon (hfuel k (by omega)) hcomma (hfuels k (by omega)))

/-- The parser succeeds when it does with any fuel. -/
theorem parse_iff {v : Json Num} :
    parse p bs = some v ↔ ∃ n r, parseValue p n bs = some (v, r) ∧ skipSpace r = [] := by
  unfold parse
  constructor
  · intro h
    split at h
    · cases h
    next w r hv =>
    split_ifs at h with hend
    cases h
    exact ⟨_, r, hv, hend⟩
  · rintro ⟨n, r, hv, hend⟩
    rw [((parse_fuel n).1 _ _ _ hv).2 (bs.length + 1) (by omega)]
    dsimp only
    rw [if_pos hend]

end MiniCloud.Lib.Json
