import Mathlib.Data.UInt

/-!
# Machine words as numbers

A counter that goes up or down by one, and a subtraction behind its guard, without the wrap.
-/

namespace MiniCloud.Lib

/-- A counter that does not wrap to zero goes up by one as a number. -/
theorem toNat_succ {a : UInt64} (h : a + 1 ≠ 0) : (a + 1).toNat = a.toNat + 1 := by
  have hlt := a.toNat_lt
  have hadd : (a + 1).toNat = (a.toNat + 1) % 2 ^ 64 := UInt64.toNat_add a 1
  have hne : (a + 1).toNat ≠ 0 := fun h0 => h (UInt64.toNat_inj.mp h0)
  omega

theorem toNat_succ_of_lt {a b : UInt32} (h : a < b) : (a + 1).toNat = a.toNat + 1 := by
  have hadd : (a + 1).toNat = (a.toNat + 1) % 2 ^ 32 := UInt32.toNat_add a 1
  have hlt := UInt32.lt_iff_toNat_lt.mp h
  have hb := b.toNat_lt
  omega

theorem toNat_pred {a : UInt32} (h : a ≠ 0) : (a - 1).toNat + 1 = a.toNat := by
  have hne : a.toNat ≠ 0 := fun h0 => h (UInt32.toNat_inj.mp h0)
  have hle : (1 : UInt32) ≤ a := UInt32.le_iff_toNat_le.mpr (Nat.one_le_iff_ne_zero.mpr hne)
  rw [UInt32.toNat_sub_of_le _ _ hle]
  have h1 : (1 : UInt32).toNat = 1 := rfl
  omega

/-- A guarded subtraction is room for the amount. -/
theorem room_iff {total used amount : UInt64} :
    (used ≤ total && amount ≤ total - used) = true ↔
      used.toNat + amount.toNat ≤ total.toNat := by
  rw [Bool.and_eq_true, decide_eq_true_eq, decide_eq_true_eq, UInt64.le_iff_toNat_le]
  constructor
  · rintro ⟨hle, hroom⟩
    rw [UInt64.le_iff_toNat_le, UInt64.toNat_sub_of_le _ _ (UInt64.le_iff_toNat_le.mpr hle)] at hroom
    omega
  · intro h
    have hle : used.toNat ≤ total.toNat := by omega
    refine ⟨hle, ?_⟩
    rw [UInt64.le_iff_toNat_le, UInt64.toNat_sub_of_le _ _ (UInt64.le_iff_toNat_le.mpr hle)]
    omega

end MiniCloud.Lib
