import Mathlib.Data.List.Basic

/-!
# Channels that are only closed

Go code signals with `chan struct{}` that nobody sends on: a receive returns once the channel is
closed. The channels made so far are a list of flags and a channel is a position in it.
-/

namespace MiniCloud.Lib

/-- A channel that has been made. -/
abbrev Chan := Nat

/-- The channels made so far; `true` for the closed ones. -/
structure Channels where
  flags : List Bool

namespace Channels

def isClosed (cs : Channels) (c : Chan) : Bool := cs.flags[c]?.getD false

/-- The channel that `make` returns next. -/
def next (cs : Channels) : Chan := cs.flags.length

def make (cs : Channels) : Channels := ⟨cs.flags ++ [false]⟩

/-- `close`, which panics on a closed channel. -/
def close (cs : Channels) (c : Chan) : Option Channels :=
  if cs.flags[c]? = some false then some ⟨cs.flags.set c true⟩ else none

variable {cs cs' : Channels} {c c' : Nat}

/-- Made and still open. -/
def IsOpen (cs : Channels) (c : Chan) : Prop := cs.flags[c]? = some false

theorem IsOpen.lt (h : cs.IsOpen c) : c < cs.next := (List.getElem?_eq_some_iff.mp h).1

theorem IsOpen.not_closed (h : cs.IsOpen c) : cs.isClosed c = false := by
  unfold isClosed
  rw [h]
  rfl

theorem isClosed_make : cs.make.isClosed c = cs.isClosed c := by
  unfold isClosed make
  dsimp only
  by_cases h : c < cs.flags.length
  · rw [List.getElem?_append_left h]
  · rw [List.getElem?_eq_none (Nat.le_of_not_lt h)]
    by_cases heq : c = cs.flags.length
    · subst heq
      simp
    · rw [List.getElem?_eq_none]
      rw [List.length_append, List.length_singleton]
      omega

theorem isOpen_make_next : cs.make.IsOpen cs.next := by
  unfold IsOpen make next
  simp

theorem close_isSome (h : cs.IsOpen c) : ∃ cs', cs.close c = some cs' := by
  unfold close
  exact ⟨_, if_pos h⟩

theorem close_ne_none (h : cs.IsOpen c) : cs.close c ≠ none := by
  obtain ⟨cs', hclose⟩ := close_isSome h
  rw [hclose]
  exact Option.some_ne_none cs'

theorem close_eq (h : cs.close c = some cs') : cs.IsOpen c ∧ cs' = ⟨cs.flags.set c true⟩ := by
  unfold close at h
  by_cases hc : cs.flags[c]? = some false
  · rw [if_pos hc] at h
    exact ⟨hc, (Option.some.inj h).symm⟩
  · rw [if_neg hc] at h
    cases h

theorem isClosed_close (h : cs.close c = some cs') :
    cs'.isClosed c' = (decide (c' = c) || cs.isClosed c') := by
  obtain ⟨hopen, rfl⟩ := close_eq h
  unfold isClosed
  dsimp only
  rw [List.getElem?_set]
  by_cases heq : c = c'
  · subst heq
    have hlt := hopen.lt
    unfold next at hlt
    simp [hlt]
  · simp [heq, Ne.symm heq]

end Channels

end MiniCloud.Lib
