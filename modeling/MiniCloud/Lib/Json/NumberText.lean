import MiniCloud.Lib.Double
import MiniCloud.Lib.Json.Syntax

/-!
# The text of a double

How ECMAScript, and with it RFC 8785, writes a finite double: the shortest digits that read
back as the same double, the closest such digits when there are several, laid out plainly for
exponents around zero and in scientific form otherwise.

Seventeen digits always suffice. The search below does not rest on that: if it found nothing
it would fall back on the exact decimal expansion, which every double has, so that
`round_numberText` needs no bound.
-/

namespace MiniCloud.Lib.Json

open Double

/-- The two decimals with `k` significant digits around `q`, the nearer one first. -/
def candidates (q : ℚ) (k : ℕ) : List (ℕ × ℤ) :=
  let x : ℤ := Int.log 10 q + 1 - k
  let t := q / 10 ^ x
  let f := ⌊t⌋₊
  if t - f < 1 / 2 ∨ (t - f = 1 / 2 ∧ f % 2 = 0) then [(f, x), (f + 1, x)]
  else [(f + 1, x), (f, x)]

/-- Digits and exponent of a positive double. -/
def shortest (q : ℚ) : ℕ × ℤ :=
  match ((List.range' 1 17).flatMap (candidates q)).find?
      fun c => Double.round (c.1 * 10 ^ c.2) = some q with
  | some c => c
  | none => (⌊q * 10 ^ 1074⌋₊, -1074)

/-- Zeros at the end belong to the exponent. -/
def strip : ℕ → ℕ × ℤ → ℕ × ℤ
  | 0, c => c
  | fuel + 1, (s, x) => if s % 10 = 0 then strip fuel (s / 10, x + 1) else (s, x)

/-- `Number::toString` of `s * 10 ^ x`. The point stands after the first `n` digits. -/
def layout (neg : Bool) (s : ℕ) (x : ℤ) : Num :=
  let ds := Text.decimal s
  let n : ℤ := ds.length + x
  if 0 ≤ x ∧ n ≤ 21 then ⟨neg, ds ++ List.replicate x.toNat bZero, [], none⟩
  else if 0 < n ∧ n ≤ 21 then ⟨neg, ds.take n.toNat, ds.drop n.toNat, none⟩
  else if -6 < n ∧ n ≤ 0 then ⟨neg, [bZero], List.replicate (-n).toNat bZero ++ ds, none⟩
  else ⟨neg, ds.take 1, ds.drop 1, some ⟨false, some (n - 1 < 0), Text.decimal (n - 1).natAbs⟩⟩

/-- The canonical literal of a double. Both zeros are written `0`. -/
def numberText (q : ℚ) : Num :=
  if q = 0 then ⟨false, [bZero], [], none⟩
  else
    let c := strip (shortest |q|).1 (shortest |q|)
    layout (q < 0) c.1 c.2

/-! ## Digits -/

theorem digitsValue_append (as bs : GoString) :
    Text.digitsValue (as ++ bs) = Text.digitsValue as * 10 ^ bs.length + Text.digitsValue bs := by
  induction bs using List.reverseRecOn with
  | nil => simp [Text.digitsValue]
  | append_singleton bs b ih =>
    have hsnoc : ∀ cs : GoString,
        Text.digitsValue (cs ++ [b]) = 10 * Text.digitsValue cs + (b.toNat - 48) := by
      intro cs
      simp [Text.digitsValue]
    rw [← List.append_assoc, hsnoc, hsnoc, ih, List.length_append, List.length_singleton, pow_succ]
    ring

theorem digitsValue_zeros (n : ℕ) : Text.digitsValue (List.replicate n bZero) = 0 := by
  have h := Text.digitsValue_zeros n []
  rwa [List.append_nil] at h

/-! ## Values -/

def signOf (neg : Bool) : ℚ := if neg then -1 else 1

/-- The value of a literal is its sign, its digits and where the point stands. -/
theorem value_mk (neg : Bool) (int frac : GoString) (e : Option Exponent) :
    Num.value ⟨neg, int, frac, e⟩ =
      signOf neg * ((Text.digitsValue (int ++ frac) : ℚ) *
        10 ^ ((e.map Exponent.value).getD 0 - (frac.length : ℤ))) := by
  cases neg <;> simp [Num.value, signOf]

theorem value_layout (neg : Bool) (s : ℕ) (x : ℤ) :
    (layout neg s x).value = signOf neg * ((s : ℚ) * 10 ^ x) := by
  have hs := (Text.spells_decimal s).value
  have hk : 0 < (Text.decimal s).length := List.length_pos_of_ne_nil (Text.spells_decimal s).nonempty
  simp only [layout]
  split_ifs with h1 h2 h3 <;> rw [value_mk] <;> congr 1
  · -- an integer: zeros after the digits
    obtain ⟨n, rfl⟩ := Int.eq_ofNat_of_zero_le h1.1
    rw [List.append_nil, digitsValue_append, digitsValue_zeros, hs]
    simp
  · -- the point falls among the digits
    rw [List.take_append_drop, hs]
    simp only [Option.map_none, Option.getD_none, List.length_drop]
    congr 2
    omega
  · -- zeros between the point and the digits
    rw [digitsValue_append, digitsValue_append, digitsValue_zeros, hs]
    have hz : Text.digitsValue [bZero] = 0 := by decide
    simp only [hz, zero_mul, zero_add, Option.map_none, Option.getD_none, List.length_append,
      List.length_replicate]
    congr 2
    omega
  · rw [List.take_append_drop, hs]
    have hexp : Exponent.value ⟨false, some (decide ((Text.decimal s).length + x - 1 < 0)),
        Text.decimal ((Text.decimal s).length + x - 1).natAbs⟩ = (Text.decimal s).length + x - 1 := by
      unfold Exponent.value
      rw [(Text.spells_decimal _).value]
      split_ifs with hneg
      · have : (Text.decimal s).length + x - 1 < 0 := by simpa using hneg
        omega
      · have : ¬ (Text.decimal s).length + x - 1 < 0 := by simpa using hneg
        omega
    simp only [Option.map_some, Option.getD_some, hexp, List.length_drop]
    congr 2
    omega

theorem layout_wf (neg : Bool) {s : ℕ} (hs : 0 < s) (x : ℤ) : (layout neg s x).WF := by
  have hsp := Text.spells_decimal s
  obtain ⟨d, ds, heq⟩ := List.exists_cons_of_ne_nil hsp.nonempty
  have hd : d ≠ bZero := hsp.lead hs d ds heq
  have hall : ∀ b ∈ Text.decimal s, Text.isDigit b = true := List.all_eq_true.mp hsp.digits
  have hzero : Text.isDigit bZero = true := by decide
  simp only [layout]
  split_ifs with h1 h2 h3
  · refine ⟨.inr ⟨⟨d, _, by rw [heq]; rfl, hd⟩, ?_⟩, rfl, by simp⟩
    simp [hsp.digits, hzero]
  · obtain ⟨n, hn⟩ : ∃ n : ℕ, (Text.decimal s).length + x = n + 1 :=
      ⟨((Text.decimal s).length + x - 1).toNat, by omega⟩
    have htn : ((n : ℤ) + 1).toNat = n + 1 := by omega
    refine ⟨.inr ⟨⟨d, ds.take n, ?_, hd⟩, ?_⟩, ?_, by simp⟩
    · rw [hn, htn, heq, List.take_succ_cons]
    · exact List.all_eq_true.mpr fun b hb => hall b (List.mem_of_mem_take hb)
    · exact List.all_eq_true.mpr fun b hb => hall b (List.mem_of_mem_drop hb)
  · refine ⟨.inl rfl, ?_, by simp⟩
    simp [hsp.digits, hzero]
  · refine ⟨.inr ⟨⟨d, [], by simp [heq], hd⟩, ?_⟩, ?_, ?_⟩
    · exact List.all_eq_true.mpr fun b hb => hall b (List.mem_of_mem_take hb)
    · exact List.all_eq_true.mpr fun b hb => hall b (List.mem_of_mem_drop hb)
    · rintro e he
      obtain rfl := Option.some.inj he
      exact ⟨(Text.spells_decimal _).nonempty, (Text.spells_decimal _).digits⟩

/-! ## Reading the text back -/

theorem strip_spec (fuel : ℕ) (c : ℕ × ℤ) (hc : 0 < c.1) : 0 < (strip fuel c).1 ∧
    ((strip fuel c).1 : ℚ) * 10 ^ (strip fuel c).2 = c.1 * 10 ^ c.2 := by
  induction fuel generalizing c with
  | zero => exact ⟨hc, rfl⟩
  | succ fuel ih =>
    obtain ⟨s, x⟩ := c
    simp only at hc
    unfold strip
    split_ifs with h10
    · obtain ⟨hpos, hval⟩ := ih (s / 10, x + 1) (by simp only; omega)
      refine ⟨hpos, hval.trans ?_⟩
      obtain ⟨t, ht⟩ := Nat.dvd_of_mod_eq_zero h10
      rw [ht, Nat.mul_div_cancel_left _ (by norm_num), zpow_add_one₀ (by norm_num)]
      push_cast
      ring
    · exact ⟨hc, rfl⟩

/-- A dyadic rational with `p` binary places has a decimal expansion with `p` places. -/
theorem dyadic_decimal (m p : ℕ) {e : ℤ} (he : -(p : ℤ) ≤ e) :
    ((⌊(m : ℚ) * 2 ^ e * 10 ^ p⌋₊ : ℕ) : ℚ) * 10 ^ (-(p : ℤ)) = m * 2 ^ e := by
  obtain ⟨j, hj⟩ := Int.eq_ofNat_of_zero_le (show 0 ≤ e + p by omega)
  have hscale : (m : ℚ) * 2 ^ e * 10 ^ p = ((m * 2 ^ j * 5 ^ p : ℕ) : ℚ) := by
    have h10 : (10 : ℚ) ^ p = 2 ^ p * 5 ^ p := by rw [← mul_pow]; norm_num
    obtain rfl : e = j - p := by omega
    rw [h10, zpow_sub₀ (by norm_num), zpow_natCast, zpow_natCast]
    push_cast
    field_simp
  rw [hscale, Nat.floor_natCast, ← hscale, mul_assoc, ← zpow_natCast, ← zpow_add₀ (by norm_num)]
  simp

theorem exact_decimal {q : ℚ} (hq : Exact q) :
    ((⌊q * 10 ^ 1074⌋₊ : ℕ) : ℚ) * 10 ^ (-1074 : ℤ) = q := by
  obtain ⟨m, e, -, he, rfl⟩ := hq
  exact dyadic_decimal m 1074 he

theorem round_shortest {q : ℚ} (hq : IsDouble q) (hpos : 0 < q) :
    0 < (shortest q).1 ∧ Double.round ((shortest q).1 * 10 ^ (shortest q).2) = some q := by
  have hround : Double.round ((shortest q).1 * 10 ^ (shortest q).2) = some q := by
    unfold shortest
    split
    · rename_i c hc
      simpa using List.find?_some hc
    · have hex := hq.1
      rw [abs_of_pos hpos] at hex
      rw [exact_decimal hex]
      exact round_of_isDouble hq
  refine ⟨Nat.pos_of_ne_zero fun h0 => ?_, hround⟩
  -- no digits would read back as zero
  rw [h0] at hround
  have hz : Double.round ((0 : ℕ) * 10 ^ (shortest q).2) = some 0 := by
    simp [Double.round, roundAbs, roundEven]
  rw [hz] at hround
  exact hpos.ne (Option.some.inj hround)

theorem isDouble_abs {q : ℚ} (hq : IsDouble q) : IsDouble |q| := by
  unfold IsDouble
  rw [abs_abs]
  exact hq

theorem numberText_wf {q : ℚ} (hq : IsDouble q) : (numberText q).WF := by
  unfold numberText
  split_ifs with h0
  · exact ⟨.inl rfl, rfl, by simp⟩
  · have hs := round_shortest (isDouble_abs hq) (abs_pos.mpr h0)
    exact layout_wf _ (strip_spec _ _ hs.1).1 _

/-- **The text of a double reads back as the double.** -/
theorem round_numberText {q : ℚ} (hq : IsDouble q) :
    Double.round (numberText q).value = some q := by
  unfold numberText
  split_ifs with h0
  · subst h0
    have hv : Num.value ⟨false, [bZero], [], none⟩ = 0 := by
      rw [value_mk]
      have hz : Text.digitsValue [bZero] = 0 := by decide
      simp [hz]
    rw [hv]
    simp [Double.round, roundAbs, roundEven]
  · obtain ⟨hpos, hround⟩ := round_shortest (isDouble_abs hq) (abs_pos.mpr h0)
    have hval := (strip_spec (shortest |q|).1 _ hpos).2
    rw [value_layout, hval]
    rcases lt_or_gt_of_ne h0 with hneg | hposq
    · have : signOf (decide (q < 0)) = -1 := by simp [signOf, hneg]
      rw [this, neg_one_mul, round_neg, hround, abs_of_neg hneg]
      simp
    · have : signOf (decide (q < 0)) = 1 := by simp [signOf, hposq.le]
      rw [this, one_mul, hround, abs_of_pos hposq]

theorem numberText_injective {q r : ℚ} (hq : IsDouble q) (hr : IsDouble r)
    (h : numberText q = numberText r) : q = r := by
  have := round_numberText hq
  rw [h, round_numberText hr] at this
  exact (Option.some.inj this).symm

end MiniCloud.Lib.Json
