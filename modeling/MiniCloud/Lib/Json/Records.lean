import MiniCloud.Lib.Json.Canonical
import MiniCloud.Lib.Json.Marshal

/-!
# Marshalled records

Two values of one Go struct type are written with the same member names in the same order, so
their texts are equal as JSON exactly when they are equal field by field.
-/

namespace MiniCloud.Lib.Json

section Shape

variable {N : Type} {R : N → N → Prop}

variable {ms ns : List (GoString × Json N)} {α : Type} {S : N → N → Prop} {x y : Option α}

/-- Distinct names in one order leave a permutation no freedom. -/
theorem perm_eq_of_names (hp : ms.Perm ns) (hn : ms.map Prod.fst = ns.map Prod.fst)
    (hd : (ms.map Prod.fst).Nodup) : ms = ns := by
  induction ms generalizing ns with
  | nil => exact hp.nil_eq
  | cons m ms ih =>
    cases ns with
    | nil => simp at hn
    | cons n ns =>
      simp only [List.map_cons, List.cons.injEq] at hn
      simp only [List.map_cons, List.nodup_cons] at hd
      -- the head of `ms` is a member of `n :: ns`; further down its name would come twice
      have hmem : m ∈ n :: ns := hp.subset List.mem_cons_self
      have hhead : m = n := by
        rcases List.mem_cons.mp hmem with h | h
        · exact h
        · exact absurd (hn.2 ▸ List.mem_map_of_mem h) hd.1
      subst hhead
      rw [ih hp.cons_inv hn.2 hd.2]

/-- Objects that list the same distinct names in the same order are compared member by member. -/
theorem equiv_obj_iff (hn : ms.map Prod.fst = ns.map Prod.fst) (hd : (ms.map Prod.fst).Nodup) :
    Equiv R (.obj ms) (.obj ns) ↔ EquivMembers R ms ns := by
  constructor
  · intro h
    cases h with
    | obj h hp =>
      rw [← perm_eq_of_names hp (h.names.symm.trans hn) (h.names ▸ hd)]
      exact h
  · exact fun h => .obj h (.refl _)

/-- Two records with the same fixed names. -/
theorem equiv_record_iff (hn : ms.map Prod.fst = ns.map Prod.fst)
    (hd : decide (ms.map Prod.fst).Nodup = true) :
    Equiv R (.obj ms) (.obj ns) ↔ EquivMembers R ms ns :=
  equiv_obj_iff hn (of_decide_eq_true hd)

@[simp] theorem equivMembers_nil : EquivMembers R [] [] := .nil

@[simp] theorem equivMembers_cons {k : GoString} {v w : Json N} :
    EquivMembers R ((k, v) :: ms) ((k, w) :: ns) ↔ Equiv R v w ∧ EquivMembers R ms ns := by
  constructor
  · rintro (_ | ⟨h, t⟩)
    exact ⟨h, t⟩
  · exact fun h => .cons h.1 h.2

theorem equivMembers_append {ms' ns' : List (GoString × Json N)}
    (hlength : ms.length = ms'.length) :
    EquivMembers R (ms ++ ns) (ms' ++ ns') ↔ EquivMembers R ms ms' ∧ EquivMembers R ns ns' := by
  induction ms generalizing ms' with
  | nil =>
    obtain rfl := List.length_eq_zero_iff.mp hlength.symm
    exact ⟨fun h => ⟨.nil, h⟩, fun h => h.2⟩
  | cons m ms ih =>
    cases ms' with
    | nil => cases hlength
    | cons m' ms' =>
      have hrest := ih (Nat.succ.inj hlength)
      constructor
      · rintro (_ | ⟨h, t⟩)
        exact ⟨.cons h (hrest.mp t).1, (hrest.mp t).2⟩
      · rintro ⟨_ | ⟨h, t⟩, hns⟩
        exact .cons h (hrest.mpr ⟨t, hns⟩)

theorem EquivMembers.length (h : EquivMembers R ms ns) :
    ms.length = ns.length := by
  have hnames := congrArg List.length h.names
  simpa using hnames

theorem Equiv.obj_length (h : Equiv R (.obj ms) (.obj ns)) :
    ms.length = ns.length := by
  cases h with
  | obj h hp => exact h.length.trans hp.length_eq

theorem equiv_arr_map {f : α → Json N} {l l' : List α} :
    Equiv R (.arr (l.map f)) (.arr (l'.map f)) ↔
      List.Forall₂ (fun a b => Equiv R (f a) (f b)) l l' := by
  have hitems : EquivItems R (l.map f) (l'.map f) ↔
      List.Forall₂ (fun a b => Equiv R (f a) (f b)) l l' := by
    induction l generalizing l' with
    | nil =>
      cases l' with
      | nil => exact iff_of_true .nil .nil
      | cons b l' => exact iff_of_false (by rintro ⟨⟩) (by rintro ⟨⟩)
    | cons a l ih =>
      cases l' with
      | nil => exact iff_of_false (by rintro ⟨⟩) (by rintro ⟨⟩)
      | cons b l' =>
        rw [List.forall₂_cons, ← ih]
        constructor
        · rintro (_ | ⟨h, t⟩)
          exact ⟨h, t⟩
        · exact fun h => .cons h.1 h.2
  rw [← hitems]
  constructor
  · rintro (_ | _ | _ | _ | h)
    exact h
  · exact .arr

@[simp] theorem equiv_bool {a b : Bool} : Equiv R (.bool a) (.bool b) ↔ a = b := by
  constructor
  · rintro ⟨⟩
    rfl
  · rintro rfl
    exact .bool a

@[simp] theorem equiv_str {s t : GoString} : Equiv R (.str s) (.str t) ↔ s = t := by
  constructor
  · rintro ⟨⟩
    rfl
  · rintro rfl
    exact .str s

@[simp] theorem equiv_num {n m : N} : Equiv R (.num n) (.num m) ↔ R n m := by
  constructor
  · rintro (_ | _ | h)
    exact h
  · exact .num

mutual

/-- A coarser comparison of numbers keeps equal values equal. -/
theorem Equiv.mono (hRS : ∀ n m, R n m → S n m) :
    ∀ {v w : Json N}, Equiv R v w → Equiv S v w
  | _, _, .null => .null
  | _, _, .bool b => .bool b
  | _, _, .num h => .num (hRS _ _ h)
  | _, _, .str s => .str s
  | _, _, .arr h => .arr (h.mono hRS)
  | _, _, .obj h hp => .obj (h.mono hRS) hp

theorem EquivItems.mono (hRS : ∀ n m, R n m → S n m) :
    ∀ {vs ws : List (Json N)}, EquivItems R vs ws → EquivItems S vs ws
  | _, _, .nil => .nil
  | _, _, .cons h t => .cons (h.mono hRS) (t.mono hRS)

theorem EquivMembers.mono (hRS : ∀ n m, R n m → S n m) :
    ∀ {ms ns : List (GoString × Json N)}, EquivMembers R ms ns → EquivMembers S ms ns
  | _, _, .nil => .nil
  | _, _, .cons h t => .cons (h.mono hRS) (t.mono hRS)

end

end Shape

theorem optionRel_mono {r s : α → α → Prop} (h : ∀ a b, r a b → s a b) :
    Option.Rel r x y → Option.Rel s x y
  | .none => .none
  | .some hr => .some (h _ _ hr)

theorem optionRel_eq : Option.Rel (· = ·) x y ↔ x = y := by
  constructor
  · rintro (h | _)
    · rw [h]
    · rfl
  · rintro rfl
    cases x with
    | none => exact .none
    | some a => exact .some rfl

theorem equiv_ofOption {R : Num → Num → Prop} {f : α → Json Num} (hf : ∀ a, f a ≠ .null) :
    Equiv R (ofOption f x) (ofOption f y) ↔ Option.Rel (fun a b => Equiv R (f a) (f b)) x y := by
  cases x with
  | none =>
    cases y with
    | none => exact iff_of_true .null .none
    | some b =>
      refine iff_of_false (fun h => hf b ?_) (by rintro ⟨⟩)
      generalize hv : f b = v at h
      simp only [ofOption, hv] at h
      cases h
      rfl
  | some a =>
    cases y with
    | none =>
      refine iff_of_false (fun h => hf a ?_) (by rintro ⟨⟩)
      generalize hv : f a = v at h
      simp only [ofOption, hv] at h
      cases h
      rfl
    | some b =>
      constructor
      · intro h
        exact .some h
      · intro h
        cases h with
        | some h => exact h

/-- The rational an integer literal denotes. -/
theorem value_decimal (n : Nat) : (⟨false, Text.decimal n, [], none⟩ : Num).value = n := by
  have h := (Text.spells_decimal n).value
  simp [Num.value, h]

/-- Every machine integer has a double. -/
theorem double_decimal {neg : Bool} {n : Nat} (hn : n < 2 ^ 64) :
    (⟨neg, Text.decimal n, [], none⟩ : Num).double.isSome := by
  have hvalue := (Text.spells_decimal n).value
  refine Double.round_isSome ?_
  have habs : |(⟨neg, Text.decimal n, [], none⟩ : Num).value| = n := by
    cases neg <;> simp [Num.value, hvalue]
  rw [habs]
  have hlt : (n : ℚ) < 2 ^ 64 := by exact_mod_cast hn
  exact hlt.trans (pow_lt_pow_right₀ (by norm_num) (by norm_num))

theorem wf_decimal (neg : Bool) (n : Nat) : (⟨neg, Text.decimal n, [], none⟩ : Num).WF := by
  have hsp := Text.spells_decimal n
  refine ⟨?_, rfl, by simp⟩
  rcases Nat.eq_zero_or_pos n with rfl | hn
  · exact .inl rfl
  · obtain ⟨d, ds, heq⟩ := List.exists_cons_of_ne_nil hsp.nonempty
    exact .inr ⟨⟨d, ds, heq, hsp.lead hn d ds heq⟩, hsp.digits⟩

/-! ## Lists of records -/

theorem numsItems_iff {N : Type} {P : N → Prop} {vs : List (Json N)} :
    NumsItems P vs ↔ ∀ v ∈ vs, Nums P v := by
  induction vs with
  | nil => simp [NumsItems]
  | cons v vs ih => simp [NumsItems, ih]

theorem uniqueItems_iff {N : Type} {vs : List (Json N)} :
    UniqueItems vs ↔ ∀ v ∈ vs, Unique v := by
  induction vs with
  | nil => simp [UniqueItems]
  | cons v vs ih => simp [UniqueItems, ih]

theorem uniqueMembers_iff {N : Type} {ms : List (GoString × Json N)} :
    UniqueMembers ms ↔ ∀ m ∈ ms, Unique m.2 := by
  induction ms with
  | nil => simp [UniqueMembers]
  | cons m ms ih => simp [UniqueMembers, ih]

/-! ## Trees the canonical form exists of -/

/-- What `transform` accepts: no name twice in an object, and every number is in range. -/
def Accepted (v : Json Num) : Prop := Unique v ∧ Nums (fun n : Num => n.double.isSome) v

theorem Accepted.transform {v : Json Num} (h : Accepted v) : ∃ text, Json.transform v = some text :=
  ⟨_, if_pos h⟩

@[simp] theorem accepted_bool (b : Bool) : Accepted (.bool b) := ⟨trivial, trivial⟩

@[simp] theorem accepted_str (s : GoString) : Accepted (.str s) := ⟨trivial, trivial⟩

@[simp] theorem accepted_ofGoString (s : GoString) : Accepted (.ofGoString s) := ⟨trivial, trivial⟩

@[simp] theorem accepted_ofUInt64 (n : UInt64) : Accepted (.ofNat n.toNat) :=
  ⟨trivial, double_decimal n.toNat_lt⟩

@[simp] theorem accepted_ofUInt32 (n : UInt32) : Accepted (.ofNat n.toNat) :=
  ⟨trivial, double_decimal (n.toNat_lt.trans (by norm_num))⟩

theorem accepted_ofInt {n : Int} (h : n.natAbs < 2 ^ 64) : Accepted (.ofInt n) :=
  ⟨trivial, double_decimal h⟩

@[simp] theorem accepted_arr {vs : List (Json Num)} :
    Accepted (.arr vs) ↔ ∀ v ∈ vs, Accepted v := by
  simp only [Accepted, Unique, Nums, uniqueItems_iff, numsItems_iff]
  exact ⟨fun h v hv => ⟨h.1 v hv, h.2 v hv⟩,
    fun h => ⟨fun v hv => (h v hv).1, fun v hv => (h v hv).2⟩⟩

@[simp] theorem accepted_obj {ms : List (GoString × Json Num)} :
    Accepted (.obj ms) ↔ (ms.map Prod.fst).Nodup ∧ ∀ m ∈ ms, Accepted m.2 := by
  simp only [Accepted, Unique, Nums, uniqueMembers_iff, numsMembers_iff]
  exact ⟨fun h => ⟨h.1.1, fun m hm => ⟨h.1.2 m hm, h.2 m hm⟩⟩,
    fun h => ⟨⟨h.1, fun m hm => (h.2 m hm).1⟩, fun m hm => (h.2 m hm).2⟩⟩

/-- A record with fixed names. -/
theorem accepted_record {ms : List (GoString × Json Num)}
    (hnames : decide (ms.map Prod.fst).Nodup = true) (hvalues : ∀ m ∈ ms, Accepted m.2) :
    Accepted (.obj ms) :=
  accepted_obj.mpr ⟨of_decide_eq_true hnames, hvalues⟩

end MiniCloud.Lib.Json
