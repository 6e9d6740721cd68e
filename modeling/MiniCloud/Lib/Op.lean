import Mathlib.Order.Defs.Unbundled

/-!
# Store methods

A method of a store reads and writes the store and returns a value or an error. The
store survives an error: `Op ε σ α` keeps the state beside the result, so "a failed
call changes nothing" is a property to prove of each method and not a consequence of
how methods are modelled.

`exec` runs a method. The `exec_*` equations push it through the body, one guard at a
time; a proof about a method rewrites with them and splits on the guards in the order
the source tests them.
-/

namespace MiniCloud.Lib

/-- A method on a store `σ` that returns an `α` or fails with an `ε`. -/
abbrev Op (ε σ α : Type) := ExceptT ε (StateM σ) α

namespace Op

variable {ε σ α β : Type}

/-- Run a method: its result, and the store it leaves behind. -/
def exec (m : Op ε σ α) (s : σ) : Except ε α × σ := (ExceptT.run m) s

/-- `if bad { return err }`. -/
def failIf (bad : Bool) (err : ε) : Op ε σ Unit := if bad then throw err else pure ()

/-- `if err := f(); err != nil { return err }` for a callee that does not touch the store. -/
def ofExcept (r : Except ε α) : Op ε σ α := ExceptT.mk (pure r)

/-- `v, exists := lookup; if !exists { return err }`. -/
def orFail (v : Option α) (err : ε) : Op ε σ α :=
  match v with
  | some a => pure a
  | none => throw err

/-- A callee that works on one part of the store. -/
def onPart {τ : Type} (m : Op ε τ α) (get : σ → τ) (put : σ → τ → σ) : Op ε σ α :=
  ExceptT.mk fun s => ((exec m (get s)).1, put s (exec m (get s)).2)

/-- `if err != nil { return f(err) }`. -/
def mapError (f : ε → ε) (m : Op ε σ α) : Op ε σ α :=
  ExceptT.mk fun s => ((exec m s).1.mapError f, (exec m s).2)

/-- A callee whose error the caller looks at. -/
def attempt (m : Op ε σ α) : Op ε σ (Except ε α) :=
  ExceptT.mk fun s => (.ok (exec m s).1, (exec m s).2)

@[simp] theorem exec_pure (a : α) (s : σ) : exec (pure a : Op ε σ α) s = (.ok a, s) := rfl

@[simp] theorem exec_throw (e : ε) (s : σ) : exec (throw e : Op ε σ α) s = (.error e, s) := rfl

@[simp] theorem exec_get (s : σ) : exec (get : Op ε σ σ) s = (.ok s, s) := rfl

@[simp] theorem exec_set (t s : σ) : exec (set t : Op ε σ PUnit) s = (.ok ⟨⟩, t) := rfl

@[simp] theorem exec_ofExcept (r : Except ε α) (s : σ) :
    exec (ofExcept r : Op ε σ α) s = (r, s) := rfl

variable {τ : Type} {r : Except ε β} {a : α} {f : β → Op ε σ α} {bad : Bool} {e : ε}
    {v : Option β} {t : σ} {part : σ → τ}

@[simp] theorem exec_onPart (m : Op ε τ α) (get : σ → τ) (put : σ → τ → σ) (s : σ) :
    exec (onPart m get put) s = ((exec m (get s)).1, put s (exec m (get s)).2) := rfl

@[simp] theorem exec_mapError (f : ε → ε) (m : Op ε σ α) (s : σ) :
    exec (mapError f m) s = ((exec m s).1.mapError f, (exec m s).2) := rfl

@[simp] theorem exec_attempt (m : Op ε σ α) (s : σ) :
    exec (attempt m) s = (.ok (exec m s).1, (exec m s).2) := rfl

theorem exec_bind (m : Op ε σ α) (f : α → Op ε σ β) (s : σ) :
    exec (m >>= f) s =
      match exec m s with
      | (.ok a, t) => exec (f a) t
      | (.error e, t) => (.error e, t) := by
  show (ExceptT.run (m >>= f)) s = _
  rw [ExceptT.run_bind]
  show (match (ExceptT.run m s).1 with
    | Except.ok x => ExceptT.run (f x)
    | Except.error e => pure (Except.error e)) (ExceptT.run m s).2 = _
  rw [exec]
  rcases ExceptT.run m s with ⟨_ | _, _⟩ <;> rfl

@[simp] theorem exec_map (f : α → β) (m : Op ε σ α) (s : σ) :
    exec (f <$> m) s = ((exec m s).1.map f, (exec m s).2) := by
  rw [map_eq_pure_bind, exec_bind]
  rcases exec m s with ⟨_ | _, _⟩ <;> rfl

@[simp] theorem exec_get_bind (f : σ → Op ε σ β) (s : σ) :
    exec (get >>= f) s = exec (f s) s := by
  rw [exec_bind, exec_get]

@[simp] theorem exec_set_bind (t : σ) (f : PUnit → Op ε σ β) (s : σ) :
    exec (set t >>= f) s = exec (f ⟨⟩) t := by
  rw [exec_bind, exec_set]

@[simp] theorem exec_failIf_bind (bad : Bool) (e : ε) (f : Unit → Op ε σ β) (s : σ) :
    exec (failIf bad e >>= f) s = if bad then (.error e, s) else exec (f ()) s := by
  rw [exec_bind]
  cases bad <;> rfl

@[simp] theorem exec_ofExcept_bind (r : Except ε α) (f : α → Op ε σ β) (s : σ) :
    exec (ofExcept r >>= f) s =
      match r with
      | .ok a => exec (f a) s
      | .error e => (.error e, s) := by
  rw [exec_bind, exec_ofExcept]
  cases r <;> rfl

/-- A callee that succeeds. -/
theorem exec_ofExcept_ok_bind {r : Except ε α} (h : r = .ok a) (f : α → Op ε σ β) (s : σ) :
    exec (ofExcept r >>= f) s = exec (f a) s := by
  rw [h]
  rfl

@[simp] theorem exec_orFail_bind (v : Option α) (e : ε) (f : α → Op ε σ β) (s : σ) :
    exec (orFail v e >>= f) s =
      match v with
      | some a => exec (f a) s
      | none => (.error e, s) := by
  rw [exec_bind]
  cases v <;> rfl

/-! ## Atomic methods -/

/--
Run in `s`, the method either fails and leaves `s` as it was, or succeeds with a value and a store
that satisfy `Q`. The rules below follow the body of a method statement by statement and collect,
as hypotheses, the tests it passed.
-/
def Atomic (m : Op ε σ α) (s : σ) (Q : α → σ → Prop) : Prop :=
  match exec m s with
  | (.ok a, t) => Q a t
  | (.error _, t) => t = s

namespace Atomic

variable {m : Op ε σ α} {s : σ} {Q : α → σ → Prop}

theorem ret (h : Q a s) : Atomic (pure a : Op ε σ α) s Q := h

theorem mono {P : α → σ → Prop} (h : Atomic m s P) (hPQ : ∀ a t, P a t → Q a t) :
    Atomic m s Q := by
  rw [Atomic] at h ⊢
  rcases he : exec m s with ⟨_ | a, t⟩
  · rw [he] at h
    exact h
  · rw [he] at h
    exact hPQ a t h

/-- The value and the store are those of the run itself. -/
theorem with_exec (h : Atomic m s Q) :
    Atomic m s fun a t => exec m s = (.ok a, t) ∧ Q a t := by
  rw [Atomic] at h ⊢
  rcases he : exec m s with ⟨_ | a, t⟩
  · rw [he] at h
    exact h
  · rw [he] at h
    exact ⟨rfl, h⟩

theorem get_bind {f : σ → Op ε σ α} (h : Atomic (f s) s Q) : Atomic (get >>= f) s Q := by
  rw [Atomic, exec_get_bind]
  exact h

theorem failIf_bind {f : Unit → Op ε σ α} (h : bad = false → Atomic (f ()) s Q) :
    Atomic (failIf bad e >>= f) s Q := by
  rw [Atomic, exec_failIf_bind]
  cases bad with
  | false => exact h rfl
  | true => rfl

theorem ofExcept_bind (h : ∀ b, r = .ok b → Atomic (f b) s Q) : Atomic (ofExcept r >>= f) s Q := by
  rw [Atomic, exec_ofExcept_bind]
  cases r with
  | ok b => exact h b rfl
  | error e => rfl

theorem orFail_bind (h : ∀ b, v = some b → Atomic (f b) s Q) : Atomic (orFail v e >>= f) s Q := by
  rw [Atomic, exec_orFail_bind]
  cases v with
  | some b => exact h b rfl
  | none => rfl

/-- Writing is the last thing a method does, so nothing can fail after it. -/
theorem set_ret (h : Q a t) :
    Atomic (set t >>= fun _ => pure a : Op ε σ α) s Q := h

/-- A callee on one part of the store, with its answer repackaged. -/
theorem map_onPart {m : Op ε τ α} {put : σ → τ → σ} {f : α → β} {R : α → τ → Prop}
    {Q : β → σ → Prop} (h : Atomic m (part s) R) (hput : put s (part s) = s)
    (hQ : ∀ a t, R a t → Q (f a) (put s t)) : Atomic (f <$> onPart m part put) s Q := by
  rw [Atomic, exec_map, exec_onPart]
  rw [Atomic] at h
  rcases he : exec m (part s) with ⟨_ | a, t⟩
  · rw [he] at h
    show put s t = s
    rw [show t = part s from h, hput]
  · rw [he] at h
    exact hQ a t h

theorem mapError {f : ε → ε} (h : Atomic m s Q) : Atomic (mapError f m) s Q := by
  rw [Atomic] at h ⊢
  rw [exec_mapError]
  rcases he : exec m s with ⟨_ | a, t⟩
  · rw [he] at h
    exact h
  · rw [he] at h
    exact h

/-- What follows a commit only reads, and does not fail. -/
theorem bind_reads {R : α → σ → Prop} {f : α → Op ε σ β} {Q : β → σ → Prop} (h : Atomic m s R)
    (hf : ∀ a t, R a t → ∃ b, exec (f a) t = (.ok b, t) ∧ Q b t) : Atomic (m >>= f) s Q := by
  rw [Atomic] at h ⊢
  rw [exec_bind]
  rcases he : exec m s with ⟨_ | a, t⟩
  · rw [he] at h
    exact h
  · rw [he] at h
    obtain ⟨b, hb, hq⟩ := hf a t h
    show match exec (f a) t with | (.ok a, t) => Q a t | (.error _, t) => t = s
    rw [hb]
    exact hq

theorem map {f : α → β} {Q : β → σ → Prop} (h : Atomic m s fun a t => Q (f a) t) :
    Atomic (f <$> m) s Q := by
  rw [map_eq_pure_bind]
  exact bind_reads h fun a t hq => ⟨f a, rfl, hq⟩

theorem of_map {f : α → β} {Q : β → σ → Prop} (h : Atomic (f <$> m) s Q) :
    Atomic m s fun a t => Q (f a) t := by
  rw [Atomic, exec_map] at h
  rw [Atomic]
  rcases he : exec m s with ⟨_ | a, t⟩
  · rw [he] at h
    exact h
  · rw [he] at h
    exact h

theorem of_get_bind {f : σ → Op ε σ α} (h : Atomic (get >>= f) s Q) : Atomic (f s) s Q := by
  rw [Atomic, exec_get_bind] at h
  exact h

end Atomic

/-! ## Methods that leave a part alone -/

/--
Run in `s`, the method leaves `V` of the store as it was, also when it fails, and a value it
returns satisfies `Q`.
-/
def Leaves {γ : Type} (V : σ → γ) (m : Op ε σ α) (s : σ) (Q : α → Prop) : Prop :=
  V (exec m s).2 = V s ∧ ∀ a, (exec m s).1 = .ok a → Q a

namespace Leaves

variable {γ : Type} {V : σ → γ} {m : Op ε σ α} {s : σ} {Q : α → Prop}

theorem ret (h : Q a) : Leaves V (pure a : Op ε σ α) s Q :=
  ⟨rfl, fun _ heq => Except.ok.inj heq ▸ h⟩

theorem mono {P : α → Prop} (h : Leaves V m s P) (hPQ : ∀ a, P a → Q a) : Leaves V m s Q :=
  ⟨h.1, fun a ha => hPQ a (h.2 a ha)⟩

theorem fail : Leaves V (throw e : Op ε σ α) s Q := ⟨rfl, nofun⟩

theorem bind {P : α → Prop} {f : α → Op ε σ β} {Q : β → Prop} (h : Leaves V m s P)
    (hf : ∀ a t, V t = V s → P a → Leaves V (f a) t Q) : Leaves V (m >>= f) s Q := by
  obtain ⟨hV, hP⟩ := h
  rw [Leaves, exec_bind]
  rcases he : exec m s with ⟨e | a, t⟩
  · rw [he] at hV
    exact ⟨hV, nofun⟩
  · rw [he] at hV hP
    obtain ⟨hV', hQ⟩ := hf a t hV (hP a rfl)
    exact ⟨hV'.trans hV, hQ⟩

theorem map {f : α → β} {Q : β → Prop} (h : Leaves V m s fun a => Q (f a)) :
    Leaves V (f <$> m) s Q := by
  rw [map_eq_pure_bind]
  exact h.bind fun a t _ hq => ret hq

theorem mapError {f : ε → ε} (h : Leaves V m s Q) : Leaves V (mapError f m) s Q := by
  refine ⟨h.1, fun a ha => h.2 a ?_⟩
  rw [exec_mapError] at ha
  rcases he : (exec m s).1 with e | b
  · rw [he] at ha
    cases ha
  · rw [he] at ha
    exact ha

theorem onPart {m : Op ε τ α} {put : σ → τ → σ} (h : ∀ t, V (put s t) = V s) :
    Leaves V (onPart m part put) s fun _ => True :=
  ⟨h _, fun _ _ => trivial⟩

theorem get_bind {f : σ → Op ε σ α} (h : Leaves V (f s) s Q) : Leaves V (get >>= f) s Q := by
  rw [Leaves, exec_get_bind]
  exact h

theorem failIf_bind {f : Unit → Op ε σ α} (h : bad = false → Leaves V (f ()) s Q) :
    Leaves V (failIf bad e >>= f) s Q := by
  rw [Leaves, exec_failIf_bind]
  cases bad with
  | false => exact h rfl
  | true => exact ⟨rfl, nofun⟩

theorem ofExcept_bind (h : ∀ b, r = .ok b → Leaves V (f b) s Q) :
    Leaves V (ofExcept r >>= f) s Q := by
  rw [Leaves, exec_ofExcept_bind]
  cases r with
  | ok b => exact h b rfl
  | error e => exact ⟨rfl, nofun⟩

theorem orFail_bind (h : ∀ b, v = some b → Leaves V (f b) s Q) :
    Leaves V (orFail v e >>= f) s Q := by
  rw [Leaves, exec_orFail_bind]
  cases v with
  | some b => exact h b rfl
  | none => exact ⟨rfl, nofun⟩

theorem set_ret (ht : V t = V s) (h : Q a) :
    Leaves V (set t >>= fun _ => pure a : Op ε σ α) s Q :=
  ⟨ht, fun _ heq => Except.ok.inj heq ▸ h⟩

end Leaves

/-! ## Methods that move a part one way -/

/--
Run in `s`, the method takes the store along `R`, also when it fails, and a value it returns
satisfies `Q` together with the store it leaves.
-/
def Moves (R : σ → σ → Prop) (m : Op ε σ α) (s : σ) (Q : α → σ → Prop) : Prop :=
  R s (exec m s).2 ∧ ∀ a t, exec m s = (.ok a, t) → Q a t

namespace Moves

variable {R : σ → σ → Prop} {m : Op ε σ α} {s : σ} {Q : α → σ → Prop}

theorem ret [Std.Refl R] (h : Q a s) : Moves R (pure a : Op ε σ α) s Q := by
  refine ⟨Std.Refl.refl s, ?_⟩
  rintro b t heq
  cases heq
  exact h

theorem rel {r : Except ε α} (h : Moves R m s Q) (he : exec m s = (r, t)) : R s t := by
  have hR := h.1
  rw [he] at hR
  exact hR

theorem bind [IsTrans σ R] {P : α → σ → Prop} {f : α → Op ε σ β} {Q : β → σ → Prop}
    (h : Moves R m s P)
    (hf : ∀ a t, R s t → P a t → Moves R (f a) t Q) : Moves R (m >>= f) s Q := by
  obtain ⟨hR, hP⟩ := h
  rw [Moves, exec_bind]
  rcases he : exec m s with ⟨e | a, t⟩
  · rw [he] at hR
    exact ⟨hR, nofun⟩
  · rw [he] at hR
    obtain ⟨hR', hQ⟩ := hf a t hR (hP a t he)
    exact ⟨IsTrans.trans _ _ _ hR hR', hQ⟩

theorem mapError {f : ε → ε} (h : Moves R m s Q) : Moves R (mapError f m) s Q := by
  refine ⟨h.1, fun a t ha => h.2 a t ?_⟩
  rw [exec_mapError] at ha
  rcases he : exec m s with ⟨e | b, t'⟩
  · rw [he] at ha
    cases ha
  · rw [he] at ha
    cases ha
    rfl

theorem onPart {m : Op ε τ α} {put : σ → τ → σ} (h : ∀ t, R s (put s t)) :
    Moves R (onPart m part put) s fun _ _ => True :=
  ⟨h _, fun _ _ _ => trivial⟩

theorem get_bind {f : σ → Op ε σ α} (h : Moves R (f s) s Q) : Moves R (get >>= f) s Q := by
  rw [Moves, exec_get_bind]
  exact h

theorem failIf_bind [Std.Refl R] {f : Unit → Op ε σ α} (h : bad = false → Moves R (f ()) s Q) :
    Moves R (failIf bad e >>= f) s Q := by
  rw [Moves, exec_failIf_bind]
  cases bad with
  | false => exact h rfl
  | true => exact ⟨Std.Refl.refl s, nofun⟩

theorem ofExcept_bind [Std.Refl R] (h : ∀ b, r = .ok b → Moves R (f b) s Q) :
    Moves R (ofExcept r >>= f) s Q := by
  rw [Moves, exec_ofExcept_bind]
  cases r with
  | ok b => exact h b rfl
  | error e => exact ⟨Std.Refl.refl s, nofun⟩

theorem orFail_bind [Std.Refl R] (h : ∀ b, v = some b → Moves R (f b) s Q) :
    Moves R (orFail v e >>= f) s Q := by
  rw [Moves, exec_orFail_bind]
  cases v with
  | some b => exact h b rfl
  | none => exact ⟨Std.Refl.refl s, nofun⟩

theorem set_ret (hR : R s t) (h : Q a t) :
    Moves R (set t >>= fun _ => pure a : Op ε σ α) s Q := by
  refine ⟨hR, ?_⟩
  rintro b u heq
  cases heq
  exact h

end Moves

/-! ## Methods whose errors leave a state behind -/

/--
Run in `s`, the method ends with a result and a store that satisfy `Q`. The rules hand over both
ways a statement can go.
-/
def Ends (m : Op ε σ α) (s : σ) (Q : Except ε α → σ → Prop) : Prop := Q (exec m s).1 (exec m s).2

namespace Ends

variable {m : Op ε σ α} {s : σ} {Q : Except ε α → σ → Prop}

theorem of_exec {result : Except ε α} (h : Ends m s Q) (he : exec m s = (result, t)) :
    Q result t := by
  rw [Ends, he] at h
  exact h

theorem ret (h : Q (.ok a) s) : Ends (pure a : Op ε σ α) s Q := h

theorem put {Q : Except ε PUnit → σ → Prop} (h : Q (.ok ⟨⟩) t) :
    Ends (set t : Op ε σ PUnit) s Q := h

theorem bind {P : Except ε α → σ → Prop} {f : α → Op ε σ β} {Q : Except ε β → σ → Prop}
    (h : Ends m s P) (herror : ∀ e t, P (.error e) t → Q (.error e) t)
    (hok : ∀ a t, P (.ok a) t → Ends (f a) t Q) : Ends (m >>= f) s Q := by
  rw [Ends, exec_bind]
  rcases he : exec m s with ⟨e | a, t⟩
  · exact herror e t (h.of_exec he)
  · exact hok a t (h.of_exec he)

theorem get_bind {f : σ → Op ε σ α} (h : Ends (f s) s Q) : Ends (get >>= f) s Q := by
  rw [Ends, exec_get_bind]
  exact h

theorem set_bind {f : PUnit → Op ε σ α} (h : Ends (f ⟨⟩) t Q) :
    Ends (set t >>= f) s Q := by
  rw [Ends, exec_set_bind]
  exact h

theorem failIf_bind {f : Unit → Op ε σ α} (herror : bad = true → Q (.error e) s)
    (h : bad = false → Ends (f ()) s Q) : Ends (failIf bad e >>= f) s Q := by
  rw [Ends, exec_failIf_bind]
  cases bad with
  | false => exact h rfl
  | true => exact herror rfl

theorem ofExcept_bind (herror : ∀ e, r = .error e → Q (.error e) s)
    (h : ∀ b, r = .ok b → Ends (f b) s Q) :
    Ends (ofExcept r >>= f) s Q := by
  rw [Ends, exec_ofExcept_bind]
  cases r with
  | ok b => exact h b rfl
  | error e => exact herror e rfl

theorem orFail_bind (herror : v = none → Q (.error e) s) (h : ∀ b, v = some b → Ends (f b) s Q) :
    Ends (orFail v e >>= f) s Q := by
  rw [Ends, exec_orFail_bind]
  cases v with
  | some b => exact h b rfl
  | none => exact herror rfl

end Ends

end Op

/-! ## Checks without a store -/

/-- One test of a validator: the condition that fails it and the error it then returns. -/
structure Check (ε : Type) where
  fails : Bool
  error : ε

/-- Run the tests in order; the first that fails decides the error. -/
def checks {ε : Type} : List (Check ε) → Except ε Unit
  | [] => .ok ()
  | c :: rest => if c.fails then .error c.error else checks rest

/-- A validator accepts exactly when every one of its tests passes. -/
theorem checks_ok {ε : Type} {l : List (Check ε)} :
    checks l = .ok () ↔ ∀ c ∈ l, c.fails = false := by
  induction l with
  | nil => simp [checks]
  | cons c rest ih =>
      rw [checks, List.forall_mem_cons]
      cases hc : c.fails with
      | true => simp
      | false => simpa using ih

/-- The error of a validator is that of one of its tests. -/
theorem checks_error {ε : Type} {e : ε} {l : List (Check ε)} (h : checks l = .error e) :
    ∃ c ∈ l, c.error = e := by
  induction l with
  | nil => cases h
  | cons c rest ih =>
      rw [checks] at h
      split at h
      · exact ⟨c, List.mem_cons_self, Except.error.inj h⟩
      · obtain ⟨c', hc', he⟩ := ih h
        exact ⟨c', List.mem_cons_of_mem _ hc', he⟩

/-- A value computed in two stages. -/
theorem bind_ok {ε α β : Type} {a : Except ε α} {f : α → Except ε β} {b : β} :
    (a >>= f) = .ok b ↔ ∃ x, a = .ok x ∧ f x = .ok b := by
  cases a with
  | ok | error => simp [bind, Except.bind]

/-- Validators run one after the other accept exactly when both accept. -/
theorem seq_ok {ε : Type} {a b : Except ε Unit} :
    (a >>= fun _ => b) = .ok () ↔ a = .ok () ∧ b = .ok () := by
  cases a with
  | ok | error => simp [bind, Except.bind]

/-- A test, and then whatever follows it. -/
theorem after_ok {ε β : Type} {a : Except ε Unit} {f : Unit → Except ε β} {b : β} :
    (a >>= f) = .ok b ↔ a = .ok () ∧ f () = .ok b := by
  rw [bind_ok]
  constructor
  · rintro ⟨⟨⟩, ha, hf⟩
    exact ⟨ha, hf⟩
  · rintro ⟨ha, hf⟩
    exact ⟨(), ha, hf⟩

theorem mapError_ok {ε ε' α : Type} {v : Except ε α} {a : α} {f : ε → ε'} :
    v.mapError f = .ok a ↔ v = .ok a := by
  cases v with
  | error e => exact ⟨fun h => (by cases h), fun h => (by cases h)⟩
  | ok b => exact ⟨fun h => by cases h; rfl, fun h => by cases h; rfl⟩

theorem isOk_iff {ε : Type} {v : Except ε Unit} : v.isOk = true ↔ v = .ok () := by
  rcases v with e | ⟨⟩ <;> simp [Except.isOk, Except.toBool]

/-- A value found by evaluation. -/
theorem exists_ok {ε α : Type} {v : Except ε α} {p : α → Bool} (h : v.toOption.any p = true) :
    ∃ a, v = .ok a ∧ p a = true := by
  cases v with
  | error e => cases h
  | ok a => exact ⟨a, rfl, h⟩

/-- A loop that validates each item. -/
def checkAll {ε α : Type} (item : α → Except ε Unit) : List α → Except ε Unit
  | [] => .ok ()
  | a :: rest => do
    item a
    checkAll item rest

theorem checkAll_ok {ε α : Type} {item : α → Except ε Unit} {l : List α} :
    checkAll item l = .ok () ↔ ∀ a ∈ l, item a = .ok () := by
  induction l with
  | nil => simp [checkAll]
  | cons a rest ih => rw [checkAll, seq_ok, ih, List.forall_mem_cons]

/-- A loop that validates each item and refuses a key it has already seen. -/
def checkEach {ε α κ : Type} [DecidableEq κ] (item : α → Except ε Unit) (key : α → κ)
    (duplicate : ε) : List κ → List α → Except ε Unit
  | _, [] => .ok ()
  | seen, a :: rest => do
    item a
    checks [⟨decide (key a ∈ seen), duplicate⟩]
    checkEach item key duplicate (key a :: seen) rest

theorem checkEach_ok {ε α κ : Type} [DecidableEq κ] {item : α → Except ε Unit} {key : α → κ}
    {duplicate : ε} {seen : List κ} {l : List α} :
    checkEach item key duplicate seen l = .ok () ↔
      (∀ a ∈ l, item a = .ok ()) ∧ (∀ a ∈ l, key a ∉ seen) ∧ (l.map key).Nodup := by
  induction l generalizing seen with
  | nil => simp [checkEach]
  | cons a rest ih =>
      rw [checkEach, seq_ok, seq_ok, ih, checks_ok]
      simp only [List.mem_singleton, forall_eq, decide_eq_false_iff_not, List.forall_mem_cons,
        List.map_cons, List.nodup_cons]
      simp only [List.mem_map, not_exists, not_and, List.mem_cons, not_or]
      constructor
      · rintro ⟨h1, h2, h3, h4, h5⟩
        exact ⟨⟨h1, h3⟩, ⟨h2, fun b hb => (h4 b hb).2⟩, fun b hb => (h4 b hb).1, h5⟩
      · rintro ⟨⟨h1, h3⟩, ⟨h2, h4⟩, h5, h6⟩
        exact ⟨h1, h2, h3, fun b hb => ⟨h5 b hb, h4 b hb⟩, h6⟩

end MiniCloud.Lib
