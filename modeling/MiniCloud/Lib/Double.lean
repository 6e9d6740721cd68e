import Mathlib.Data.Int.Log
import Mathlib.Algebra.Order.Round
import Mathlib.Data.Rat.Floor
import Mathlib.Tactic

/-!
# Rounding to an IEEE 754 double

`round x` is the binary64 value nearest to `x`, ties to the even significand, as a rational
number; `none` is an overflow. The two zeros are one value, and there are no infinities or
NaNs to represent because the input is a number.

A double is `m * 2 ^ e` with `m ≤ 2 ^ 53` and `-1074 ≤ e`. `Exact` is that shape, and
`roundAbs_exact` says that rounding leaves it alone; rounding twice is therefore rounding once.
-/

namespace MiniCloud.Lib.Double

/-- The integer nearest to `x`, ties to even. -/
def roundEven (x : ℚ) : ℤ :=
  if x - ⌊x⌋ < 1 / 2 then ⌊x⌋
  else if 1 / 2 < x - ⌊x⌋ then ⌊x⌋ + 1
  else if ⌊x⌋ % 2 = 0 then ⌊x⌋ else ⌊x⌋ + 1

/-- The exponent of the last significand bit of the doubles around `a`. -/
def exponent (a : ℚ) : ℤ := max (Int.log 2 a - 52) (-1074)

/-- Rounding of a magnitude. -/
def roundAbs (a : ℚ) : ℚ := roundEven (a / 2 ^ exponent a) * 2 ^ exponent a

def round (x : ℚ) : Option ℚ :=
  if 2 ^ 1024 ≤ roundAbs |x| then none
  else some (if x < 0 then -roundAbs |x| else roundAbs |x|)

/-! ## Integers -/

theorem roundEven_int (n : ℤ) : roundEven n = n := by
  simp [roundEven]

/-- Rounding stays between the integers around `x`. -/
theorem roundEven_floor (x : ℚ) : roundEven x = ⌊x⌋ ∨ roundEven x = ⌊x⌋ + 1 := by
  unfold roundEven
  split_ifs
  · exact .inl rfl
  · exact .inr rfl
  · exact .inl rfl
  · exact .inr rfl

theorem roundEven_nonneg {x : ℚ} (hx : 0 ≤ x) : 0 ≤ roundEven x := by
  have hf : 0 ≤ ⌊x⌋ := Int.floor_nonneg.mpr hx
  rcases roundEven_floor x with h | h <;> omega

theorem roundEven_le {x : ℚ} {n : ℤ} (hx : x < n) : roundEven x ≤ n := by
  have hf : ⌊x⌋ < n := Int.floor_lt.mpr hx
  rcases roundEven_floor x with h | h <;> omega

/-! ## The shape of a double -/

/-- The magnitudes a double can have, overflow aside. -/
def Exact (r : ℚ) : Prop := ∃ (m : ℕ) (e : ℤ), m ≤ 2 ^ 53 ∧ -1074 ≤ e ∧ r = m * 2 ^ e

theorem exponent_ge (a : ℚ) : -1074 ≤ exponent a := le_max_right _ _

theorem scaled_lt (a : ℚ) : a / 2 ^ exponent a < 2 ^ 53 := by
  have hpos : (0 : ℚ) < 2 ^ exponent a := by positivity
  rw [div_lt_iff₀ hpos]
  calc a < 2 ^ (Int.log 2 a + 1) := by
        have := Int.lt_zpow_succ_log_self (b := 2) (by norm_num) a
        simpa using this
    _ ≤ 2 ^ (53 + exponent a) := by
        refine zpow_le_zpow_right₀ (by norm_num) ?_
        have : Int.log 2 a - 52 ≤ exponent a := le_max_left _ _
        omega
    _ = 2 ^ 53 * 2 ^ exponent a := by
        rw [zpow_add₀ (by norm_num)]
        norm_num

theorem exact_roundAbs {a : ℚ} (ha : 0 ≤ a) : Exact (roundAbs a) := by
  have hnn : 0 ≤ roundEven (a / 2 ^ exponent a) := roundEven_nonneg (by positivity)
  have hle : roundEven (a / 2 ^ exponent a) ≤ 2 ^ 53 :=
    roundEven_le (by exact_mod_cast scaled_lt a)
  obtain ⟨m, hm⟩ := Int.eq_ofNat_of_zero_le hnn
  refine ⟨m, exponent a, ?_, exponent_ge a, ?_⟩
  · rw [hm] at hle
    exact_mod_cast hle
  · rw [roundAbs, hm]
    norm_num

/-- Rounding a magnitude whose scaled significand is an integer changes nothing. -/
theorem roundAbs_of_int {a : ℚ} {n : ℤ} (h : a = n * 2 ^ exponent a) : roundAbs a = a := by
  have hpos : (2 : ℚ) ^ exponent a ≠ 0 := by positivity
  have hdiv : a / 2 ^ exponent a = n := by
    rw [div_eq_iff hpos]
    exact h
  rw [roundAbs, hdiv, roundEven_int]
  exact h.symm

theorem roundAbs_exact {r : ℚ} (hr : Exact r) : roundAbs r = r := by
  obtain ⟨m, e, hm, he, hre⟩ := hr
  rcases Nat.eq_zero_or_pos m with h0 | hpos
  · refine roundAbs_of_int (n := 0) ?_
    simp [hre, h0]
  have hrpos : 0 < r := by rw [hre]; positivity
  by_cases hle : exponent r ≤ e
  · -- the grid at `r` is at least as fine as the one `r` was written on
    refine roundAbs_of_int (n := m * 2 ^ (e - exponent r).toNat) ?_
    have hz : (2 : ℚ) ^ (e - exponent r).toNat = 2 ^ (e - exponent r) := by
      rw [← zpow_natCast, Int.toNat_of_nonneg (by omega)]
    push_cast
    rw [hz, mul_assoc, ← zpow_add₀ (by norm_num), sub_add_cancel]
    exact hre
  · -- otherwise `r` is the power of two above the significands, `2 ^ (e + 53)`
    have hlog : e + 53 ≤ Int.log 2 r := by
      unfold exponent at hle
      omega
    have hlow : (2 : ℚ) ^ (e + 53) ≤ r := by
      have := (Int.zpow_le_iff_le_log (b := 2) (by norm_num) hrpos).mpr hlog
      simpa using this
    have hsplit : (2 : ℚ) ^ (e + 53) = 2 ^ 53 * 2 ^ e := by
      rw [add_comm, zpow_add₀ (by norm_num)]
      norm_num
    have hpos : (0 : ℚ) < 2 ^ e := by positivity
    have hm' : (2 : ℚ) ^ 53 ≤ m := by
      rw [hsplit, hre] at hlow
      exact le_of_mul_le_mul_right hlow hpos
    have hmeq : m = 2 ^ 53 := le_antisymm hm (by exact_mod_cast hm')
    have hrpow : r = 2 ^ (e + 53) := by rw [hre, hmeq, hsplit]; norm_num
    have hexp : exponent r = e + 1 := by
      have hl : Int.log 2 r = e + 53 := by
        rw [hrpow]
        exact_mod_cast Int.log_zpow (R := ℚ) (b := 2) (by norm_num) (e + 53)
      unfold exponent
      omega
    refine roundAbs_of_int (n := 2 ^ 52) ?_
    rw [hexp, hrpow, hsplit, zpow_add_one₀ (by norm_num)]
    push_cast
    ring

/-! ## Doubles -/

/-- A finite double: what `round` returns. -/
def IsDouble (q : ℚ) : Prop := Exact |q| ∧ |q| < 2 ^ 1024

theorem roundAbs_nonneg {a : ℚ} (ha : 0 ≤ a) : 0 ≤ roundAbs a := by
  have hnn : 0 ≤ roundEven (a / 2 ^ exponent a) := roundEven_nonneg (by positivity)
  unfold roundAbs
  positivity

theorem isDouble_of_round {x q : ℚ} (h : round x = some q) : IsDouble q := by
  have hnn : 0 ≤ roundAbs |x| := roundAbs_nonneg (abs_nonneg x)
  have hex : Exact (roundAbs |x|) := exact_roundAbs (abs_nonneg x)
  unfold round at h
  split_ifs at h with hbig hneg
  · have hq : |q| = roundAbs |x| := by
      rw [← Option.some.inj h, abs_neg, abs_of_nonneg hnn]
    exact ⟨hq ▸ hex, hq ▸ not_le.mp hbig⟩
  · have hq : |q| = roundAbs |x| := by
      rw [← Option.some.inj h, abs_of_nonneg hnn]
    exact ⟨hq ▸ hex, hq ▸ not_le.mp hbig⟩

theorem round_of_isDouble {q : ℚ} (hq : IsDouble q) : round q = some q := by
  unfold round
  rw [roundAbs_exact hq.1, if_neg (not_le.mpr hq.2)]
  split_ifs with hneg
  · rw [abs_of_neg hneg, neg_neg]
  · rw [abs_of_nonneg (not_lt.mp hneg)]

/-- The integers up to `2 ^ 53` are doubles. -/
theorem round_natCast {n : ℕ} (hn : n ≤ 2 ^ 53) : round n = some (n : ℚ) := by
  have habs : |(n : ℚ)| = n := abs_of_nonneg (Nat.cast_nonneg n)
  refine round_of_isDouble ⟨⟨n, 0, hn, by norm_num, ?_⟩, ?_⟩
  · rw [habs, zpow_zero, mul_one]
  · rw [habs]
    have hle : (n : ℚ) ≤ 2 ^ 53 := by exact_mod_cast hn
    exact hle.trans_lt (pow_lt_pow_right₀ (by norm_num) (by norm_num))

/-- Nothing below `2 ^ 1023` overflows. -/
theorem round_isSome {x : ℚ} (hx : |x| < 2 ^ 1023) : (round x).isSome := by
  have hexp : exponent |x| ≤ 970 := by
    have hlog : Int.log 2 |x| < 1023 := by
      rcases eq_or_lt_of_le (abs_nonneg x) with h0 | hpos
      · rw [← h0, Int.log_zero_right]
        norm_num
      · rw [← Int.lt_zpow_iff_log_lt (by norm_num) hpos]
        exact_mod_cast hx
    unfold exponent
    omega
  have hround : roundEven (|x| / 2 ^ exponent |x|) ≤ 2 ^ 53 :=
    roundEven_le (by exact_mod_cast scaled_lt |x|)
  have hbound : roundAbs |x| < 2 ^ 1024 := by
    calc roundAbs |x| ≤ 2 ^ 53 * 2 ^ exponent |x| := by
          unfold roundAbs
          gcongr
          exact_mod_cast hround
      _ ≤ 2 ^ 53 * 2 ^ (970 : ℤ) := by
          gcongr
          norm_num
      _ < 2 ^ 1024 := by
          rw [show (970 : ℤ) = ((970 : ℕ) : ℤ) from rfl, zpow_natCast, ← pow_add]
          exact pow_lt_pow_right₀ (by norm_num) (by norm_num)
  rw [round, if_neg (not_le.mpr hbound)]
  rfl

theorem round_neg (x : ℚ) : round (-x) = (round x).map (- ·) := by
  unfold round
  rw [abs_neg]
  split_ifs with hbig h1 h2 h2
  · rfl
  · linarith
  · rfl
  · simp
  · -- both fail only at zero, which rounds to itself
    have hx : x = 0 := by linarith
    simp [hx, roundAbs, roundEven]

end MiniCloud.Lib.Double
