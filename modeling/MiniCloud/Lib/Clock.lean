import MiniCloud.Lib.Time

/-!
# Guarded elapsed-time clocks

A process-local clock is a function `func() time.Duration` that promises to be monotonic. A
component that must fail closed does not trust the promise: it keeps the last value and a health
flag, and one reading below the last makes it refuse every later one.

The clock is what its successive calls return, so `∀ clock` ranges over every behaviour of it. The
guard counts its calls. `Tracks` says what the flag means, that no reading so far went back, and
`read_eq_some` turns a successful reading into that fact about the clock.
-/

namespace MiniCloud.Lib

/-- What the successive calls of an elapsed-time clock return. -/
abbrev MonotonicClock := Nat → Duration

structure ClockGuard where
  /-- How often the clock has been called. -/
  reads : Nat
  lastElapsed : Duration
  clockHealthy : Bool

namespace ClockGuard

variable {clock : MonotonicClock} {g : ClockGuard}

/-- The guard after the first call. -/
def start (clock : MonotonicClock) : ClockGuard := ⟨1, clock 0, true⟩

/-- Call the clock once; nothing is returned once it has gone back. -/
def read (clock : MonotonicClock) (g : ClockGuard) : Option Duration × ClockGuard :=
  let now := clock g.reads
  if !g.clockHealthy || now < g.lastElapsed then
    (none, { g with reads := g.reads + 1, clockHealthy := false })
  else (some now, { g with reads := g.reads + 1, lastElapsed := now })

/-- The first `n` readings never go back. -/
def Steady (clock : MonotonicClock) (n : Nat) : Prop := ∀ i j, i ≤ j → j < n → clock i ≤ clock j

theorem Steady.mono {m n : Nat} (h : Steady clock n) (hmn : m ≤ n) : Steady clock m :=
  fun i j hij hj => h i j hij (by omega)

theorem steady_succ {n : Nat} (hn : 0 < n) :
    Steady clock (n + 1) ↔ Steady clock n ∧ clock (n - 1) ≤ clock n := by
  constructor
  · intro h
    exact ⟨h.mono (by omega), h _ _ (by omega) (by omega)⟩
  · rintro ⟨h, hlast⟩ i j hij hj
    rcases Nat.lt_or_ge j n with hjn | hjn
    · exact h i j hij hjn
    · obtain rfl : j = n := by omega
      rcases Nat.lt_or_ge i j with hi | hi
      · exact Int.le_trans (h i (j - 1) (by omega) (by omega)) hlast
      · obtain rfl : i = j := by omega
        exact Int.le_refl _

/-- The guard's fields say what the calls so far returned. -/
structure Tracks (clock : MonotonicClock) (g : ClockGuard) : Prop where
  called : 0 < g.reads
  healthy : g.clockHealthy = true ↔ Steady clock g.reads
  last : g.clockHealthy = true → g.lastElapsed = clock (g.reads - 1)

theorem tracks_start (clock : MonotonicClock) : Tracks clock (start clock) where
  called := Nat.one_pos
  healthy := by
    refine ⟨fun _ i j hij hj => ?_, fun _ => rfl⟩
    obtain rfl : j = 0 := Nat.lt_one_iff.mp hj
    obtain rfl : i = 0 := by omega
    exact Int.le_refl _
  last := fun _ => rfl

/-- A reading is returned exactly when no reading up to it has gone back. -/
theorem read_eq_some (h : Tracks clock g) {now : Duration} :
    (g.read clock).1 = some now ↔ now = clock g.reads ∧ Steady clock (g.reads + 1) := by
  rw [steady_succ h.called, ← h.healthy]
  unfold read
  cases hh : g.clockHealthy with
  | false => simp
  | true =>
    rw [← h.last hh]
    by_cases hlt : clock g.reads < g.lastElapsed
    · simp [hlt]
    · simp [hlt, eq_comm, Int.not_lt.mp hlt]

theorem Tracks.read (h : Tracks clock g) : Tracks clock (g.read clock).2 := by
  have hsteady : Steady clock (g.reads + 1) ↔ _ := steady_succ h.called
  have hlast := h.last
  rw [← h.healthy] at hsteady
  unfold ClockGuard.read
  cases hh : g.clockHealthy with
  | false =>
    refine ⟨Nat.succ_pos _, ?_, by simp⟩
    simpa [hh] using hsteady
  | true =>
    rw [← hlast hh, hh] at hsteady
    by_cases hlt : clock g.reads < g.lastElapsed
    · refine ⟨by simp [hlt], ?_, by simp [hlt]⟩
      simpa [hlt, Int.not_le.mpr hlt] using hsteady
    · refine ⟨by simp [hlt], ?_, by simp [hlt]⟩
      simpa [hlt, hh, Int.not_lt.mp hlt] using hsteady

/-! ## What a call does to the guard -/

@[simp] theorem read_reads : (g.read clock).2.reads = g.reads + 1 := by
  unfold read
  dsimp only
  split <;> rfl

/-- Once a reading has gone back the guard stays unhealthy and returns nothing. -/
theorem read_unhealthy (h : g.clockHealthy = false) :
    (g.read clock).1 = none ∧ (g.read clock).2.clockHealthy = false := by
  simp [read, h]

/-- A reading that is returned is the new last one, and not below the old. -/
theorem read_some {now : Duration} (h : (g.read clock).1 = some now) :
    now = clock g.reads ∧ g.lastElapsed ≤ now ∧
      (g.read clock).2 = { g with reads := g.reads + 1, lastElapsed := now } := by
  unfold read at h ⊢
  dsimp only at h ⊢
  split_ifs at h with hbad
  cases h
  rw [if_neg hbad]
  simp only [Bool.or_eq_true, decide_eq_true_eq, not_or, Int.not_lt] at hbad
  exact ⟨rfl, hbad.2, rfl⟩

/-- The last value never goes down. -/
theorem lastElapsed_le_read : g.lastElapsed ≤ (g.read clock).2.lastElapsed := by
  cases h : (g.read clock).1 with
  | some now =>
    obtain ⟨-, hle, heq⟩ := read_some h
    rw [heq]
    exact hle
  | none =>
    unfold read at h ⊢
    dsimp only at h ⊢
    split_ifs at h ⊢
    exact Int.le_refl _

end ClockGuard

end MiniCloud.Lib
