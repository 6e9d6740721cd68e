import Mathlib.Data.List.Basic
import Mathlib.Data.List.Induction
import Mathlib.Data.List.Pairwise

/-!
# Runs of a deterministic machine

A machine takes an input in a state and produces an output and a next state. `run`
folds a list of inputs; `events` records every step of that run, with the state it was
taken in, so that statements about histories ("no two successful steps …", "between
this step and that one …") can quantify over it.

The rules at the end package the inductions once. An invariant is two goals, and a
quantity that never goes down along a step never goes down along a run.

`Since P Q` is the past-time operator: a grant that nothing has ended, a failure that nothing
has repaired. A state that remembers such a fact follows the history one event at a time, which
is what `since_snoc` says.
-/

namespace MiniCloud.Lib

/-! ## Since -/

section Since

variable {α : Type} {P P' Q Q' : α → Prop} {h : List α}

/-- Something in the history satisfies `P`, and everything after it satisfies `Q`. -/
def Since (P Q : α → Prop) (h : List α) : Prop :=
  ∃ before e after, h = before ++ e :: after ∧ P e ∧ ∀ e' ∈ after, Q e'

theorem not_since_nil : ¬ Since P Q [] := by
  rintro ⟨before, e, after, heq, -⟩
  simp at heq

theorem since_snoc {e : α} : Since P Q (h ++ [e]) ↔ P e ∨ (Since P Q h ∧ Q e) := by
  constructor
  · rintro ⟨before, a, after, heq, hP, hQ⟩
    rcases List.eq_nil_or_concat after with rfl | ⟨rest, b, rfl⟩
    · left
      obtain ⟨-, hsingle⟩ := List.append_inj' heq rfl
      obtain ⟨rfl, -⟩ := List.cons.inj hsingle
      exact hP
    · right
      rw [List.concat_eq_append] at heq hQ
      have heq' : h ++ [e] = (before ++ a :: rest) ++ [b] := by rw [heq]; simp
      obtain ⟨rfl, hsingle⟩ := List.append_inj' heq' rfl
      obtain ⟨rfl, -⟩ := List.cons.inj hsingle
      exact ⟨⟨before, a, rest, rfl, hP, fun x hx => hQ x (by simp [hx])⟩, hQ e (by simp)⟩
  · rintro (hP | ⟨⟨before, a, after, rfl, hP, hQ⟩, hQe⟩)
    · exact ⟨h, e, [], rfl, hP, by simp⟩
    · refine ⟨before, a, after ++ [e], by simp, hP, fun x hx => ?_⟩
      rcases List.mem_append.mp hx with hx | hx
      · exact hQ x hx
      · rw [List.mem_singleton.mp hx]
        exact hQe

/-- Where nothing has started anew, everything has kept on. -/
theorem Since.of_append {after : List α} (hs : Since P Q (h ++ after)) (hP : ∀ e ∈ after, ¬ P e) :
    ∀ e ∈ after, Q e := by
  induction after using List.reverseRecOn with
  | nil => exact fun e he => absurd he List.not_mem_nil
  | append_singleton rest last ih =>
    rw [← List.append_assoc, since_snoc] at hs
    rcases hs with hlast | ⟨hs, hlast⟩
    · exact absurd hlast (hP last (by simp))
    · intro e he
      rcases List.mem_append.mp he with he | he
      · exact ih hs (fun e he => hP e (List.mem_append_left _ he)) e he
      · rw [List.mem_singleton.mp he]
        exact hlast

theorem Since.mono (hs : Since P Q h) (hP : ∀ e, P e → P' e) (hQ : ∀ e, Q e → Q' e) :
    Since P' Q' h := by
  obtain ⟨before, e, after, heq, he, hafter⟩ := hs
  exact ⟨before, e, after, heq, hP e he, fun x hx => hQ x (hafter x hx)⟩

end Since

/-! ## Runs -/

/-- A deterministic machine with inputs `ι` and outputs `ο`. -/
structure Machine (σ ι ο : Type) where
  step : σ → ι → ο × σ

/-- One step of a run. -/
structure Event (σ ι ο : Type) where
  pre : σ
  input : ι
  output : ο
  post : σ

namespace Machine

variable {σ ι ο : Type} (M : Machine σ ι ο)

/-- The step taken in `s` on input `i`. -/
def event (s : σ) (i : ι) : Event σ ι ο := ⟨s, i, (M.step s i).1, (M.step s i).2⟩

/-- The state after a list of inputs. -/
def run (s : σ) : List ι → σ
  | [] => s
  | i :: is => run (M.step s i).2 is

/-- The steps of the run, oldest first. -/
def events (s : σ) : List ι → List (Event σ ι ο)
  | [] => []
  | i :: is => M.event s i :: events (M.step s i).2 is

/-- What some run from `s₀` ends in. -/
inductive Reachable (s₀ : σ) : σ → Prop where
  | init : Reachable s₀ s₀
  | tail {s : σ} (i : ι) : Reachable s₀ s → Reachable s₀ (M.step s i).2

@[simp] theorem run_nil (s : σ) : M.run s [] = s := rfl

@[simp] theorem run_cons (s : σ) (i : ι) (is : List ι) :
    M.run s (i :: is) = M.run (M.step s i).2 is := rfl

theorem run_append (s : σ) (is js : List ι) : M.run s (is ++ js) = M.run (M.run s is) js := by
  induction is generalizing s with
  | nil => rfl
  | cons i is ih => exact ih _

theorem events_append (s : σ) (is js : List ι) :
    M.events s (is ++ js) = M.events s is ++ M.events (M.run s is) js := by
  induction is generalizing s with
  | nil => rfl
  | cons i is ih => exact congrArg (M.event s i :: ·) (ih _)

variable {M}

variable {e : Event σ ι ο} {s₀ s : σ} {is : List ι}

theorem Reachable.run (h : M.Reachable s₀ s) (is : List ι) :
    M.Reachable s₀ (M.run s is) := by
  induction is generalizing s with
  | nil => exact h
  | cons i is ih => exact ih (.tail i h)

/-- Every event of a run was taken in a state the run reaches. -/
theorem mem_events (h : e ∈ M.events s is) :
    ∃ is₁ is₂, is = is₁ ++ e.input :: is₂ ∧ e.pre = M.run s is₁ ∧ e = M.event e.pre e.input := by
  induction is generalizing s with
  | nil => simp [events] at h
  | cons i is ih =>
      rcases List.mem_cons.mp h with rfl | h
      · exact ⟨[], is, rfl, rfl, rfl⟩
      · obtain ⟨is₁, is₂, h1, h2, h3⟩ := ih h
        exact ⟨i :: is₁, is₂, by rw [h1]; rfl, h2, h3⟩

theorem event_reachable (hr : M.Reachable s₀ s) (h : e ∈ M.events s is) :
    M.Reachable s₀ e.pre ∧ e = M.event e.pre e.input := by
  obtain ⟨is₁, _, _, h2, h3⟩ := mem_events h
  exact ⟨by rw [h2]; exact hr.run is₁, h3⟩

theorem Reachable.post {i : ι} (hr : M.Reachable s₀ s) (he : e = M.event s i) :
    M.Reachable s₀ e.post := by
  rw [he]
  exact hr.tail i

/-- A history cut at one of its events is a run up to that event and a run after it. -/
theorem events_split {l₁ l₂ : List (Event σ ι ο)} (h : M.events s is = l₁ ++ e :: l₂) :
    ∃ is₁ i is₂, is = is₁ ++ i :: is₂ ∧ l₁ = M.events s is₁ ∧ e = M.event (M.run s is₁) i ∧
      l₂ = M.events e.post is₂ := by
  induction is generalizing s l₁ with
  | nil => simp [events] at h
  | cons i is ih =>
      cases l₁ with
      | nil =>
          obtain ⟨rfl, rfl⟩ := List.cons.inj h
          exact ⟨[], i, is, rfl, rfl, rfl, rfl⟩
      | cons a l₁ =>
          obtain ⟨rfl, htail⟩ := List.cons.inj h
          obtain ⟨is₁, j, is₂, rfl, rfl, he, rfl⟩ := ih htail
          exact ⟨i :: is₁, j, is₂, rfl, rfl, he, rfl⟩

/-! ## Rules -/

/-- **The invariant rule.** -/
theorem invariant {P : σ → Prop} (h0 : P s₀)
    (hstep : ∀ s i, M.Reachable s₀ s → P s → P (M.step s i).2) (h : M.Reachable s₀ s) : P s := by
  induction h with
  | init => exact h0
  | tail i hr ih => exact hstep _ i hr ih

/--
**The persistence rule.** What one event keeps, in a reachable state and unless the event is
excluded, a run without excluded events keeps.
-/
theorem run_keeps {P : σ → Prop} {X : Event σ ι ο → Prop}
    (hstep : ∀ s i, M.Reachable s₀ s → ¬ X (M.event s i) → P s → P (M.step s i).2)
    (hr : M.Reachable s₀ s) (hs : P s) (is : List ι) (hx : ∀ e ∈ M.events s is, ¬ X e) :
    P (M.run s is) := by
  induction is generalizing s with
  | nil => exact hs
  | cons i is ih =>
      have hhead : ¬ X (M.event s i) := hx _ List.mem_cons_self
      exact ih (.tail i hr) (hstep s i hr hhead hs) fun e he => hx e (List.mem_cons_of_mem _ he)

/-- **The trace rule.** A relation between the history so far and the state it has led to. -/
theorem trace {P : List (Event σ ι ο) → σ → Prop} (h0 : P [] s₀)
    (hstep : ∀ h s i, M.Reachable s₀ s → P h s → P (h ++ [M.event s i]) (M.step s i).2)
    (is : List ι) : P (M.events s₀ is) (M.run s₀ is) := by
  induction is using List.reverseRecOn with
  | nil => exact h0
  | append_singleton is i ih =>
      rw [events_append, run_append]
      exact hstep _ _ i (Reachable.init.run is) ih

/-- A relation every step keeps, that is reflexive and transitive, relates the two ends of a run. -/
theorem run_rel {R : σ → σ → Prop} (hrefl : ∀ s, R s s) (htrans : ∀ a b c, R a b → R b c → R a c)
    (hstep : ∀ s i, M.Reachable s₀ s → R s (M.step s i).2) (hr : M.Reachable s₀ s) (is : List ι) :
    R s (M.run s is) := by
  induction is generalizing s with
  | nil => exact hrefl s
  | cons i is ih => exact htrans _ _ _ (hstep s i hr) (ih (.tail i hr))

/-- **The history rule.** A relation between an event and every event after it holds pairwise. -/
theorem events_pairwise {R : Event σ ι ο → Event σ ι ο → Prop}
    (h : ∀ s i, M.Reachable s₀ s → ∀ is, ∀ e ∈ M.events (M.step s i).2 is, R (M.event s i) e)
    (hr : M.Reachable s₀ s) (is : List ι) : (M.events s is).Pairwise R := by
  induction is generalizing s with
  | nil => exact List.Pairwise.nil
  | cons i is ih => exact List.Pairwise.cons (fun e he => h s i hr is e he) (ih (.tail i hr))

/--
**The compare-and-swap rule.** Let `N` give every resource a number that no step lowers, and let
an event that swaps a resource at `n` find `n` there and leave more. Then no two events of a run
swap the same resource at the same number.
-/
theorem swap_once {R : Type} {N : σ → R → Nat} {S : Event σ ι ο → R → Nat → Prop}
    (hmono : ∀ s i, M.Reachable s₀ s → ∀ r, N s r ≤ N (M.step s i).2 r)
    (hswap : ∀ s i, M.Reachable s₀ s → ∀ r n, S (M.event s i) r n →
      N s r = n ∧ n < N (M.step s i).2 r) (is : List ι) :
    (M.events s₀ is).Pairwise fun e e' => ∀ r n, S e r n → ¬ S e' r n := by
  refine events_pairwise ?_ Reachable.init is
  intro s i hr js e he r n hs hs'
  obtain ⟨js₁, js₂, -, hpre, heq⟩ := mem_events he
  have hr₁ : M.Reachable s₀ (M.run (M.step s i).2 js₁) := (hr.tail i).run js₁
  rw [heq, hpre] at hs'
  have hlater : N (M.step s i).2 r ≤ N (M.run (M.step s i).2 js₁) r :=
    run_rel (R := fun s s' => ∀ r, N s r ≤ N s' r) (fun _ _ => Nat.le_refl _)
      (fun _ _ _ hab hbc r => Nat.le_trans (hab r) (hbc r)) hmono (hr.tail i) js₁ r
  have h₁ := hswap s i hr r n hs
  have h₂ := hswap _ _ hr₁ r n hs'
  omega

end Machine

end MiniCloud.Lib
