import Mathlib.Data.List.Rotate

/-!
# Balanced loads and turns

Two facts about spreading work over a fixed list of keys. Giving the next piece to a key of least
load keeps the loads within one of each other. A cursor that moves on by one at every turn visits
every position of the list once in as many turns as there are positions.
-/

namespace MiniCloud.Lib.Balance

variable {κ : Type}

/-- No load is more than one above another. -/
def Even (load : κ → ℕ) (keys : List κ) : Prop := ∀ a ∈ keys, ∀ b ∈ keys, load a ≤ load b + 1

theorem even_of_equal {load : κ → ℕ} {keys : List κ}
    (h : ∀ a ∈ keys, ∀ b ∈ keys, load a = load b) : Even load keys := by
  intro a ha b hb
  have := h a ha b hb
  omega

/-- One more for a key of least load. -/
theorem Even.bump {load load' : κ → ℕ} {keys : List κ} {x : κ} (h : Even load keys)
    (hleast : ∀ a ∈ keys, load x ≤ load a) (hx : load' x = load x + 1)
    (hothers : ∀ a, a ≠ x → load' a = load a) : Even load' keys := by
  intro a ha b hb
  have hab := h a ha b hb
  have hxb := hleast b hb
  by_cases hax : a = x
  · subst hax
    by_cases hbx : b = a
    · subst hbx
      omega
    · rw [hx, hothers b hbx]
      omega
  · rw [hothers a hax]
    by_cases hbx : b = x
    · subst hbx
      omega
    · rw [hothers b hbx]
      exact hab

/-- As many turns as there are positions, from wherever the cursor stands. -/
theorem window_perm {l taken : List κ} {start : ℕ}
    (h : ∀ i < taken.length, taken[i]? = l[(start + i) % l.length]?) {j : ℕ}
    (hj : j + l.length ≤ taken.length) : ((taken.drop j).take l.length).Perm l := by
  have heq : (taken.drop j).take l.length = l.rotate (start + j) := by
    refine List.ext_getElem? fun i => ?_
    by_cases hi : i < l.length
    · rw [List.getElem?_take_of_lt hi, List.getElem?_drop, h (j + i) (by omega),
        List.getElem?_rotate hi]
      congr 2
      omega
    · have hlength : (l.rotate (start + j)).length ≤ i := by
        rw [List.length_rotate]
        omega
      rw [List.getElem?_eq_none hlength, List.getElem?_eq_none]
      rw [List.length_take]
      omega
  rw [heq]
  exact List.rotate_perm l _

end MiniCloud.Lib.Balance
