import Mathlib.Algebra.BigOperators.Group.List.Basic
import Mathlib.Data.List.Nodup
import Mathlib.Data.Rat.Cast.Order
import Mathlib.Order.Interval.Finset.Nat
import Mathlib.Tactic.Linarith

/-!
# Shares of a range

A list of weights cuts a range of numbers into intervals, one behind the other, and a number is
served by the element whose interval it falls into (`pick`). Each element owns as many numbers as
it weighs. A wider range that is scaled down to the weights keeps the proportions up to one number
(`card_scaled`).
-/

namespace MiniCloud.Lib.Shares

variable {α : Type} {w : α → Nat} {l : List α} {a : α} {b : Nat}

def total (w : α → Nat) (l : List α) : Nat := (l.map w).sum

/-- The first element whose cumulative weight is above the number. -/
def pick (w : α → Nat) : List α → Nat → Option α
  | [], _ => none
  | a :: rest, b => if b < w a then some a else pick w rest (b - w a)

theorem total_cons (w : α → Nat) (a : α) (l : List α) : total w (a :: l) = w a + total w l := by
  rw [total, List.map_cons, List.sum_cons]
  rfl

theorem total_append (w : α → Nat) (l l' : List α) :
    total w (l ++ l') = total w l + total w l' := by
  rw [total, List.map_append, List.sum_append]
  rfl

theorem total_perm {l' : List α} (h : l.Perm l') : total w l = total w l' := (h.map w).sum_eq

/-- An element is picked by the numbers of its interval. -/
theorem pick_iff : pick w l b = some a ↔
    ∃ before after, l = before ++ a :: after ∧ total w before ≤ b ∧ b < total w before + w a := by
  induction l generalizing b with
  | nil =>
    constructor
    · intro h
      cases h
    · rintro ⟨before, after, h, -⟩
      cases before <;> cases h
  | cons c rest ih =>
    rw [pick]
    by_cases hb : b < w c
    · rw [if_pos hb]
      constructor
      · intro h
        cases h
        exact ⟨[], rest, rfl, Nat.zero_le b, by simpa [total] using hb⟩
      · rintro ⟨before, after, h, hlo, -⟩
        cases before with
        | nil =>
          cases h
          rfl
        | cons d before =>
          -- the interval of a later element starts behind the first one
          cases h
          rw [total_cons] at hlo
          omega
    · rw [if_neg hb, ih]
      constructor
      · rintro ⟨before, after, rfl, hlo, hhi⟩
        refine ⟨c :: before, after, rfl, ?_, ?_⟩
        · rw [total_cons]
          omega
        · rw [total_cons]
          omega
      · rintro ⟨before, after, h, hlo, hhi⟩
        cases before with
        | nil =>
          cases h
          rw [total, List.map_nil, List.sum_nil] at hhi
          omega
        | cons d before =>
          cases h
          rw [total_cons] at hlo hhi
          exact ⟨before, after, rfl, by omega, by omega⟩

/-- The intervals cover the range and nothing else. -/
theorem pick_isSome : (pick w l b).isSome = true ↔ b < total w l := by
  induction l generalizing b with
  | nil => simp [pick, total]
  | cons c rest ih =>
    rw [pick, total_cons]
    by_cases hb : b < w c
    · rw [if_pos hb]
      simp only [Option.isSome_some, true_iff]
      omega
    · rw [if_neg hb, ih]
      omega

/-- The interval of an element that occurs once. -/
theorem pick_split (hnodup : l.Nodup) {before after : List α} (hl : l = before ++ a :: after) :
    pick w l b = some a ↔ total w before ≤ b ∧ b < total w before + w a := by
  rw [pick_iff]
  constructor
  · rintro ⟨before', after', hl', hlo, hhi⟩
    have hbefore : a ∉ before := by
      rw [hl] at hnodup
      exact fun hmem => (List.nodup_append.mp hnodup).2.2 a hmem a List.mem_cons_self rfl
    have hafter : a ∉ after := by
      rw [hl] at hnodup
      exact (List.nodup_cons.mp (List.nodup_append.mp hnodup).2.1).1
    obtain ⟨rfl, -⟩ := (List.append_cons_inj_of_notMem hbefore hafter).mp (hl.symm.trans hl')
    exact ⟨hlo, hhi⟩
  · rintro ⟨hlo, hhi⟩
    exact ⟨before, after, hl, hlo, hhi⟩

/-- Each element owns as many numbers as it weighs. -/
theorem card_pick [DecidableEq α] (hnodup : l.Nodup) (ha : a ∈ l) :
    ((Finset.range (total w l)).filter fun b => pick w l b = some a).card = w a := by
  obtain ⟨before, after, hl⟩ := List.append_of_mem ha
  have hset : ((Finset.range (total w l)).filter fun b => pick w l b = some a) =
      Finset.Ico (total w before) (total w before + w a) := by
    ext b
    rw [Finset.mem_filter, Finset.mem_range, pick_split hnodup hl, Finset.mem_Ico]
    constructor
    · rintro ⟨-, h⟩
      exact h
    · rintro ⟨hlo, hhi⟩
      refine ⟨?_, hlo, hhi⟩
      rw [hl, total_append, total_cons]
      omega
  rw [hset, Nat.card_Ico, Nat.add_sub_cancel_left]

/-! ## A scaled range -/

/-- The first number that is scaled to `x` or above. -/
def firstOf (n size x : Nat) : Nat := (x * size + n - 1) / n

theorem lt_firstOf {n size x u : Nat} (hn : 0 < n) (hsize : 0 < size) :
    u * n / size < x ↔ u < firstOf n size x := by
  rw [Nat.div_lt_iff_lt_mul hsize, firstOf, Nat.lt_div_iff_mul_lt hn]
  omega

theorem firstOf_bounds {n size x : Nat} (hn : 0 < n) :
    x * size ≤ firstOf n size x * n ∧ firstOf n size x * n < x * size + n := by
  have hdiv := Nat.div_add_mod (x * size + n - 1) n
  have hmod := Nat.mod_lt (x * size + n - 1) hn
  rw [Nat.mul_comm] at hdiv
  unfold firstOf
  omega

/-- A scaled range gives an interval its share, up to one number. -/
theorem card_scaled {n size lo hi : Nat} (hn : 0 < n) (hsize : 0 < size) (hlo : lo ≤ hi)
    (hhi : hi ≤ n) :
    |((((Finset.range size).filter fun u => lo ≤ u * n / size ∧ u * n / size < hi).card : Nat) : ℚ) -
      ((hi - lo : Nat) : ℚ) * size / n| < 1 := by
  have hset : ((Finset.range size).filter fun u => lo ≤ u * n / size ∧ u * n / size < hi) =
      Finset.Ico (firstOf n size lo) (firstOf n size hi) := by
    ext u
    rw [Finset.mem_filter, Finset.mem_range, Finset.mem_Ico, ← lt_firstOf hn hsize, ← not_lt,
      lt_firstOf hn hsize, not_lt]
    constructor
    · rintro ⟨-, h⟩
      exact h
    · rintro ⟨hl, hh⟩
      refine ⟨?_, hl, hh⟩
      have hlt : u * n < n * size :=
        lt_of_lt_of_le ((Nat.div_lt_iff_lt_mul hsize).mp hh) (Nat.mul_le_mul_right size hhi)
      rw [Nat.mul_comm n size] at hlt
      exact Nat.lt_of_mul_lt_mul_right hlt
  obtain ⟨hlo₁, hlo₂⟩ := @firstOf_bounds n size lo hn
  obtain ⟨hhi₁, hhi₂⟩ := @firstOf_bounds n size hi hn
  have hle : firstOf n size lo ≤ firstOf n size hi :=
    Nat.div_le_div_right (by have := Nat.mul_le_mul_right size hlo; omega)
  have hcount : (((Finset.range size).filter fun u => lo ≤ u * n / size ∧
      u * n / size < hi).card : ℤ) = (firstOf n size hi : ℤ) - firstOf n size lo := by
    rw [hset, Nat.card_Ico]
    omega
  have hn' : (0 : ℚ) < n := by exact_mod_cast hn
  -- both ends are rounded up by less than one number
  rw [show ((((Finset.range size).filter fun u => lo ≤ u * n / size ∧
      u * n / size < hi).card : Nat) : ℚ) = (firstOf n size hi : ℚ) - firstOf n size lo by
    exact_mod_cast hcount, Nat.cast_sub hlo, abs_lt]
  have h₁ : (lo * size : ℚ) ≤ firstOf n size lo * n := by exact_mod_cast hlo₁
  have h₂ : (firstOf n size lo * n : ℚ) < lo * size + n := by exact_mod_cast hlo₂
  have h₃ : (hi * size : ℚ) ≤ firstOf n size hi * n := by exact_mod_cast hhi₁
  have h₄ : (firstOf n size hi * n : ℚ) < hi * size + n := by exact_mod_cast hhi₂
  have hshare : ((hi - lo : ℚ) * size / n) * n = hi * size - lo * size := by
    rw [div_mul_cancel₀ _ hn'.ne', sub_mul]
  constructor
  · by_contra hcon
    have := mul_le_mul_of_nonneg_right (not_lt.mp hcon) hn'.le
    rw [sub_mul, sub_mul, hshare] at this
    linarith
  · by_contra hcon
    have := mul_le_mul_of_nonneg_right (not_lt.mp hcon) hn'.le
    rw [sub_mul, sub_mul, hshare] at this
    linarith

end MiniCloud.Lib.Shares
