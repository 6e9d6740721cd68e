import MiniCloud.WasmExec.Lifecycle

/-!
# Release runs alone, and how it runs twice

A call of `close` looks at the lifecycle twice: at the head of the loop, and again once the
operations are over. The first look stops at `closed`; the second stops only at `releasing`. So
what the mutex protects holds in every run: `release` finds no operation and no other `release`.
That it does not run again after a success needs more: no other call may be between its two looks
when a release succeeds.
-/

namespace MiniCloud.WasmExec

open Lib

variable {s s' : State} {call : Nat} {phase : Phase} {m : Move} {e : Effect} {c : Chan}

/-! ## What a move does -/

/-- Everything a move can do. -/
inductive Does (s : State) : Move → Effect → State → Prop where
  | idle {m : Move} : Does s m .nothing s
  | refused {op : Nat} (h : s.life.closing = true ∨ s.life.closed = true) :
      Does s (.begin op) (.began false) s
  | beganFirst {op : Nat} (hnew : op ∉ s.running) (hclosing : s.life.closing = false)
      (hclosed : s.life.closed = false) (hactive : s.life.active = 0) :
      Does s (.begin op) (.began true)
        ⟨{ s.life with active := s.life.active + 1, drained := s.chans.next }, s.chans.make,
          op :: s.running, s.calls⟩
  | beganMore {op : Nat} (hnew : op ∉ s.running) (hclosing : s.life.closing = false)
      (hclosed : s.life.closed = false) (hactive : s.life.active ≠ 0) :
      Does s (.begin op) (.began true)
        ⟨{ s.life with active := s.life.active + 1 }, s.chans, op :: s.running, s.calls⟩
  | ended {op : Nat} (hop : op ∈ s.running) (hactive : s.life.active - 1 ≠ 0) :
      Does s (.end op) .nothing
        ⟨{ s.life with active := s.life.active - 1 }, s.chans, s.running.erase op, s.calls⟩
  | endedLast {op : Nat} {chans : Channels} (hop : op ∈ s.running)
      (hactive : s.life.active - 1 = 0) (hclose : s.chans.close s.life.drained = some chans) :
      Does s (.end op) .nothing
        ⟨{ s.life with active := s.life.active - 1 }, chans, s.running.erase op, s.calls⟩
  | endCrashed {op : Nat} (hop : op ∈ s.running) (hactive : s.life.active - 1 = 0)
      (hclose : s.chans.close s.life.drained = none) :
      Does s (.end op) .crashed
        ⟨{ s.life with active := s.life.active - 1 }, s.chans, s.running.erase op, s.calls⟩
  | enteredClosed {call : Nat} (hclosed : s.life.closed = true)
      (hphase : ∀ phase, s.calls.get? call = some phase → phase = .looping) :
      Does s (.enter call) (.returned s.life.closeErr)
        { s with calls := s.calls.set call (.returned s.life.closeErr) }
  | enteredReleasing {call : Nat} (hclosed : s.life.closed = false)
      (hreleasing : s.life.releasing = true)
      (hphase : ∀ phase, s.calls.get? call = some phase → phase = .looping) :
      Does s (.enter call) .nothing
        { s with
          life := { s.life with closing := true }
          calls := s.calls.set call (.awaitingRelease s.life.releaseDone) }
  | entered {call : Nat} (hclosed : s.life.closed = false) (hreleasing : s.life.releasing = false)
      (hphase : ∀ phase, s.calls.get? call = some phase → phase = .looping) :
      Does s (.enter call) .nothing
        { s with
          life := { s.life with closing := true }
          calls := s.calls.set call (.awaitingDrained s.life.drained) }
  | wokeReleased {call : Nat} {releaseDone : Chan}
      (hphase : s.calls.get? call = some (.awaitingRelease (some releaseDone))) :
      Does s (.wake call) .nothing { s with calls := s.calls.set call .looping }
  | wokeDrained {call : Nat} {drained : Chan}
      (hphase : s.calls.get? call = some (.awaitingDrained drained))
      (hclosed : s.chans.isClosed drained = true) :
      Does s (.wake call) .nothing { s with calls := s.calls.set call .ready }
  | cancelled {call : Nat} {err : GoError} {phase : Phase}
      (hphase : s.calls.get? call = some phase) (hreleasing : ∀ c, phase ≠ .releasing c) :
      Does s (.cancel call err) (.returned (some err))
        { s with calls := s.calls.set call (.returned (some err)) }
  | lockedOut {call : Nat} (hphase : s.calls.get? call = some .ready)
      (hreleasing : s.life.releasing = true) :
      Does s (.lock call) .nothing { s with calls := s.calls.set call .looping }
  | locked {call : Nat} (hphase : s.calls.get? call = some .ready)
      (hreleasing : s.life.releasing = false) :
      Does s (.lock call) .releaseStarted
        ⟨{ s.life with releasing := true, releaseDone := some s.chans.next }, s.chans.make,
          s.running, s.calls.set call (.releasing s.chans.next)⟩
  | released {call : Nat} {releaseDone : Chan} {err : Option GoError} {chans : Channels}
      (hphase : s.calls.get? call = some (.releasing releaseDone))
      (hclose : s.chans.close releaseDone = some chans) :
      Does s (.released call err) (.releaseEnded err)
        ⟨{ s.life with
            releasing := false
            closeErr := err
            closed := if err.isNone then true else s.life.closed }, chans, s.running,
          s.calls.set call (.returned err)⟩
  | releaseCrashed {call : Nat} {releaseDone : Chan} {err : Option GoError}
      (hphase : s.calls.get? call = some (.releasing releaseDone))
      (hclose : s.chans.close releaseDone = none) :
      Does s (.released call err) .crashed
        ⟨{ s.life with
            releasing := false
            closeErr := err
            closed := if err.isNone then true else s.life.closed }, s.chans, s.running,
          s.calls.set call (.returned err)⟩

theorem begin_does (s : State) (op : Nat) (hnew : op ∉ s.running) :
    Does s (.begin op) (s.begin op).1 (s.begin op).2 := by
  unfold State.begin
  by_cases hclosing : s.life.closing = true
  · simp only [hclosing, Bool.true_or, if_true]
    exact .refused (.inl hclosing)
  · by_cases hclosed : s.life.closed = true
    · simp only [hclosed, Bool.or_true, if_true]
      exact .refused (.inr hclosed)
    · rw [Bool.not_eq_true] at hclosing hclosed
      simp only [hclosing, hclosed, Bool.or_self, Bool.false_eq_true, if_false]
      by_cases hactive : s.life.active = 0
      · have h := Does.beganFirst hnew hclosing hclosed hactive
        simp only [hclosing, hclosed] at h
        simp only [hactive, beq_self_eq_true, if_true] at h ⊢
        exact h
      · have h := Does.beganMore hnew hclosing hclosed hactive
        simp only [hclosing, hclosed] at h
        simp only [beq_eq_false_iff_ne.mpr hactive, Bool.false_eq_true, if_false]
        exact h

theorem end_does (s : State) (op : Nat) (hop : op ∈ s.running) :
    Does s (.end op) (s.end op).1 (s.end op).2 := by
  unfold State.end
  by_cases hactive : s.life.active - 1 = 0
  · simp only [hactive, beq_self_eq_true, if_true]
    cases hclose : s.chans.close s.life.drained with
    | none =>
      have h := Does.endCrashed hop hactive hclose
      rw [hactive] at h
      exact h
    | some chans =>
      have h := Does.endedLast hop hactive hclose
      rw [hactive] at h
      exact h
  · simp only [beq_eq_false_iff_ne.mpr hactive, Bool.false_eq_true, if_false]
    exact .ended hop hactive

theorem enter_does (s : State) (call : Nat)
    (hphase : ∀ phase, s.calls.get? call = some phase → phase = .looping) :
    Does s (.enter call) (s.enter call).1 (s.enter call).2 := by
  unfold State.enter
  split_ifs with hclosed hreleasing
  · exact .enteredClosed hclosed hphase
  · exact .enteredReleasing (by simpa using hclosed) hreleasing hphase
  · exact .entered (by simpa using hclosed) (by simpa using hreleasing) hphase

theorem wake_does (s : State) (call : Nat) (hphase : s.calls.get? call = some phase) :
    Does s (.wake call) (s.wake call phase).1 (s.wake call phase).2 := by
  cases phase with
  | awaitingRelease releaseDone =>
    cases releaseDone with
    | none => exact .idle
    | some releaseDone =>
      simp only [State.wake]
      split_ifs with hclosed
      · exact .wokeReleased hphase
      · exact .idle
  | awaitingDrained drained =>
    simp only [State.wake]
    split_ifs with hclosed
    · exact .wokeDrained hphase hclosed
    · exact .idle
  | _ => exact .idle

theorem step_does (s : State) (m : Move) :
    Does s m (machine.step s m).1 (machine.step s m).2 := by
  cases m with
  | «begin» op =>
    simp only [machine, List.contains_iff_mem]
    split_ifs with hop
    · exact .idle
    · exact begin_does s op hop
  | «end» op =>
    simp only [machine, List.contains_iff_mem]
    split_ifs with hop
    · exact end_does s op hop
    · exact .idle
  | enter call =>
    simp only [machine]
    cases hphase : s.calls.get? call with
    | none =>
      refine enter_does s call fun phase h => ?_
      cases hphase.symm.trans h
    | some phase =>
      cases phase with
      | looping =>
        refine enter_does s call fun phase h => ?_
        rw [hphase] at h
        exact (Option.some.inj h).symm
      | _ => exact .idle
  | wake call =>
    simp only [machine]
    cases hphase : s.calls.get? call with
    | none => exact .idle
    | some phase => exact wake_does s call hphase
  | cancel call err =>
    simp only [machine]
    cases hphase : s.calls.get? call with
    | none => exact .idle
    | some phase =>
      cases phase with
      | awaitingRelease | awaitingDrained => exact .cancelled hphase fun c h => by cases h
      | _ => exact .idle
  | lock call =>
    simp only [machine]
    cases hphase : s.calls.get? call with
    | none => exact .idle
    | some phase =>
      cases phase with
      | ready =>
        simp only [State.lock]
        split_ifs with hreleasing
        · exact .lockedOut hphase hreleasing
        · exact .locked hphase (by simpa using hreleasing)
      | _ => exact .idle
  | released call err =>
    simp only [machine]
    cases hphase : s.calls.get? call with
    | none => exact .idle
    | some phase =>
      cases phase with
      | releasing releaseDone =>
        simp only [State.released]
        cases hclose : s.chans.close releaseDone with
        | none => exact .releaseCrashed hphase hclose
        | some chans => exact .released hphase hclose
      | _ => exact .idle

/-! ## The invariant -/

/-- What a phase says about the lifecycle. -/
def PhaseOk (life : Lifecycle) (chans : Channels) : Phase → Prop
  | .awaitingDrained drained => drained = life.drained
  | .ready => life.active = 0
  | .releasing releaseDone => life.active = 0 ∧ life.releasing = true ∧
      life.releaseDone = some releaseDone ∧ chans.IsOpen releaseDone
  | _ => True

structure Inv (s : State) : Prop where
  counted : s.life.active = s.running.length
  nodup : s.running.Nodup
  quiet : s.life.active = 0 → s.chans.isClosed s.life.drained = true
  busy : s.life.active ≠ 0 → s.chans.IsOpen s.life.drained
  called : ∀ call phase, s.calls.get? call = some phase → s.life.closing = true
  closed : s.life.closed = true → s.life.closing = true
  phases : ∀ call phase, s.calls.get? call = some phase → PhaseOk s.life s.chans phase
  alone : ∀ call call' c c', s.calls.get? call = some (.releasing c) →
    s.calls.get? call' = some (.releasing c') → call = call'
  flagged : s.life.releasing = true → ∃ call c, s.calls.get? call = some (.releasing c)

theorem inv_new : Inv newLifecycle where
  counted := rfl
  nodup := List.nodup_nil
  quiet := fun _ => rfl
  busy := fun h => absurd rfl h
  called := fun _ _ h => by cases h
  closed := fun h => by cases h
  phases := fun _ _ h => by cases h
  alone := fun _ _ _ _ h => by cases h
  flagged := fun h => by cases h

/-- A call other than the releasing one goes on, and the lifecycle is closing from then on. -/
theorem Inv.goes (h : Inv s) (hold : ∀ c, s.calls.get? call ≠ some (.releasing c))
    (hnew : ∀ c, phase ≠ .releasing c) (hok : PhaseOk s.life s.chans phase) :
    Inv { s with
      life := { s.life with closing := true }
      calls := s.calls.set call phase } where
  counted := h.counted
  nodup := h.nodup
  quiet := h.quiet
  busy := h.busy
  called := fun _ _ _ => rfl
  closed := fun _ => rfl
  phases := by
    refine GoMap.forall_set (fun k p hp => ?_) ?_
    · have hp' := h.phases k p hp
      cases p <;> exact hp'
    · cases phase <;> exact hok
  alone := by
    intro k k' c c' hk hk'
    rcases GoMap.get?_set_cases hk with ⟨-, hc⟩ | ⟨-, hk⟩
    · exact absurd hc (hnew c)
    · rcases GoMap.get?_set_cases hk' with ⟨-, hc⟩ | ⟨-, hk'⟩
      · exact absurd hc (hnew c')
      · exact h.alone k k' c c' hk hk'
  flagged := by
    intro hreleasing
    obtain ⟨k, c, hk⟩ := h.flagged hreleasing
    have hne : k ≠ call := by
      rintro rfl
      exact hold c hk
    exact ⟨k, c, (GoMap.get?_set_ne _ _ hne).trans hk⟩

/-- The same when `closing` is set already. -/
theorem Inv.goes_closing (h : Inv s) (hclosing : s.life.closing = true)
    (hold : ∀ c, s.calls.get? call ≠ some (.releasing c)) (hnew : ∀ c, phase ≠ .releasing c)
    (hok : PhaseOk s.life s.chans phase) : Inv { s with calls := s.calls.set call phase } := by
  have hgoes := h.goes hold hnew hok
  rw [← hclosing] at hgoes
  exact hgoes

theorem Inv.moves (h : Inv s) {phase' : Phase} (hcall : s.calls.get? call = some phase)
    (hold : ∀ c, phase ≠ .releasing c) (hnew : ∀ c, phase' ≠ .releasing c)
    (hok : PhaseOk s.life s.chans phase') : Inv { s with calls := s.calls.set call phase' } :=
  h.goes_closing (h.called call phase hcall)
    (fun c hc => hold c (Option.some.inj (hcall.symm.trans hc))) hnew hok

/-- No call exists before the first one has set `closing`. -/
theorem Inv.no_call (h : Inv s) (hclosing : s.life.closing = false) (call : Nat) (phase : Phase) :
    s.calls.get? call ≠ some phase := by
  intro hcall
  rw [h.called call phase hcall] at hclosing
  cases hclosing

/-- One operation more, before any call. -/
theorem Inv.begins (h : Inv s) {op : Nat} {drained : Chan} {chans : Channels}
    (hnew : op ∉ s.running) (hclosing : s.life.closing = false) (hopen : chans.IsOpen drained) :
    Inv ⟨{ s.life with active := s.life.active + 1, drained := drained }, chans,
      op :: s.running, s.calls⟩ where
  counted := congrArg (· + 1) h.counted
  nodup := List.nodup_cons.mpr ⟨hnew, h.nodup⟩
  quiet hzero := by
    have hcounted := h.counted
    dsimp only at hzero
    omega
  busy _ := hopen
  called := h.called
  closed := h.closed
  phases call phase hcall := absurd hcall (h.no_call hclosing call phase)
  alone := h.alone
  flagged := h.flagged

/-- One operation fewer, with the channels as the count wants them. -/
theorem Inv.ends (h : Inv s) {op : Nat} {chans : Channels} (hop : op ∈ s.running)
    (hquiet : s.life.active - 1 = 0 → chans.isClosed s.life.drained = true)
    (hbusy : s.life.active - 1 ≠ 0 → chans.IsOpen s.life.drained) :
    Inv ⟨{ s.life with active := s.life.active - 1 }, chans, s.running.erase op, s.calls⟩ where
  counted := by
    have hlength := List.length_erase_of_mem hop
    have hpos := List.length_pos_of_mem hop
    have hcounted := h.counted
    dsimp only
    omega
  nodup := h.nodup.erase op
  quiet := hquiet
  busy := hbusy
  called := h.called
  closed := h.closed
  phases := by
    intro call phase hcall
    have hok := h.phases call phase hcall
    have hpos := List.length_pos_of_mem hop
    have hcounted := h.counted
    -- an operation is running, so no call is past the end of them
    cases phase with
    | ready =>
      have hzero : s.life.active = 0 := hok
      omega
    | releasing c =>
      have hzero : s.life.active = 0 := hok.1
      omega
    | _ => exact hok
  alone := h.alone
  flagged := h.flagged

theorem inv_does (h : Inv s) (hdoes : Does s m e s') : Inv s' := by
  cases hdoes with
  | idle | refused => exact h
  | beganFirst hnew hclosing _ _ => exact h.begins hnew hclosing Channels.isOpen_make_next
  | beganMore hnew hclosing _ hactive => exact h.begins hnew hclosing (h.busy hactive)
  | @ended op hop hactive =>
    refine h.ends hop (fun hzero => absurd hzero hactive) fun _ => h.busy ?_
    have hpos := List.length_pos_of_mem hop
    have hcounted := h.counted
    omega
  | @endedLast op chans hop hactive hclose =>
    refine h.ends hop (fun _ => ?_) fun hne => absurd hactive hne
    rw [Channels.isClosed_close hclose]
    simp
  | @endCrashed op hop hactive hclose =>
    exact absurd hclose (Channels.close_ne_none (h.busy (by omega)))
  | @enteredClosed call hclosed hphase =>
    refine h.goes_closing (h.closed hclosed) (fun c hc => ?_) (fun c hc => by cases hc) trivial
    cases hphase _ hc
  | @enteredReleasing call hclosed hreleasing hphase =>
    refine h.goes (fun c hc => ?_) (fun c hc => by cases hc) trivial
    cases hphase _ hc
  | @entered call hclosed hreleasing hphase =>
    refine h.goes (fun c hc => ?_) (fun c hc => by cases hc) rfl
    cases hphase _ hc
  | wokeReleased hphase | lockedOut hphase =>
    exact h.moves hphase (fun c hc => by cases hc) (fun c hc => by cases hc) trivial
  | @wokeDrained call drained hphase hclosed =>
    refine h.moves hphase (fun c hc => by cases hc) (fun c hc => by cases hc) ?_
    -- the channel of the last operation is closed, so there is none
    have hsame : drained = s.life.drained := h.phases call _ hphase
    by_cases hactive : s.life.active = 0
    · exact hactive
    · have hopen := (h.busy hactive).not_closed
      rw [← hsame, hclosed] at hopen
      cases hopen
  | cancelled hphase hreleasing =>
    exact h.moves hphase hreleasing (fun c hc => by cases hc) trivial
  | @locked call hphase hreleasing =>
    have hactive : s.life.active = 0 := h.phases call _ hphase
    have hnone : ∀ k c, s.calls.get? k ≠ some (.releasing c) := by
      intro k c hk
      have hok := (h.phases k _ hk).2.1
      cases hreleasing.symm.trans hok
    refine ⟨h.counted, h.nodup, fun _ => ?_, fun hne => absurd hactive hne, ?_, h.closed, ?_, ?_,
      fun _ => ⟨call, s.chans.next, GoMap.get?_set_self _ _ _⟩⟩
    · dsimp only
      rw [Channels.isClosed_make]
      exact h.quiet hactive
    · exact fun _ _ _ => h.called call _ hphase
    · refine GoMap.forall_set (fun k p hp => ?_) ⟨hactive, rfl, rfl, Channels.isOpen_make_next⟩
      have hok := h.phases k p hp
      cases p with
      | releasing c => exact absurd hp (hnone k c)
      | _ => exact hok
    · intro k k' c c' hk hk'
      rcases GoMap.get?_set_cases hk with ⟨rfl, -⟩ | ⟨-, hk⟩
      · rcases GoMap.get?_set_cases hk' with ⟨rfl, -⟩ | ⟨-, hk'⟩
        · rfl
        · exact absurd hk' (hnone k' c')
      · exact absurd hk (hnone k c)
  | @released call releaseDone err chans hphase hclose =>
    obtain ⟨hactive, hreleasing, hdone, hopen⟩ := h.phases call _ hphase
    have hclosing := h.called call _ hphase
    have hother : ∀ k c, k ≠ call → s.calls.get? k ≠ some (.releasing c) := by
      intro k c hne hk
      exact hne (h.alone k call c releaseDone hk hphase)
    refine ⟨h.counted, h.nodup, fun _ => ?_, fun hne => absurd hactive hne, fun _ _ _ => hclosing,
      fun _ => hclosing, ?_, ?_, fun hflag => by cases hflag⟩
    · dsimp only
      rw [Channels.isClosed_close hclose, h.quiet hactive, Bool.or_true]
    · intro k p hp
      rcases GoMap.get?_set_cases hp with ⟨-, rfl⟩ | ⟨hne, hp⟩
      · trivial
      · have hok := h.phases k p hp
        cases p with
        | releasing c => exact absurd hp (hother k c hne)
        | _ => exact hok
    · intro k k' c c' hk _
      rcases GoMap.get?_set_cases hk with ⟨-, hc⟩ | ⟨hne, hk⟩
      · cases hc
      · exact absurd hk (hother k c hne)
  | @releaseCrashed call releaseDone err hphase hclose =>
    exact absurd hclose (Channels.close_ne_none (h.phases call _ hphase).2.2.2)

theorem inv_reachable (h : machine.Reachable newLifecycle s) : Inv s :=
  Machine.invariant inv_new (fun s m _ hs => inv_does hs (step_does s m)) h

theorem reachable_run (moves : List Move) :
    machine.Reachable newLifecycle (machine.run newLifecycle moves) :=
  Machine.Reachable.init.run moves

/-- No channel is closed twice. -/
theorem never_crashes (h : machine.Reachable newLifecycle s) (m : Move) :
    (machine.step s m).1 ≠ .crashed := by
  intro heq
  have hinv := inv_reachable h
  have hdoes := step_does s m
  rw [heq] at hdoes
  generalize (machine.step s m).2 = s' at hdoes
  cases hdoes with
  | endCrashed hop hactive hclose =>
    exact absurd hclose (Channels.close_ne_none (hinv.busy (by omega)))
  | releaseCrashed hphase hclose =>
    exact absurd hclose (Channels.close_ne_none (hinv.phases _ _ hphase).2.2.2)

theorem never_crashes_last :
    (machine.step (machine.run newLifecycle [.begin 0, .enter 1]) (.end 0)).1 ≠ .crashed :=
  never_crashes (Machine.Reachable.init.run _) _

/-! ## Closed for good -/

/-- A call between its two looks at the lifecycle. -/
def Pending : Phase → Prop
  | .awaitingDrained _ | .ready => True
  | _ => False

/-- Closed, with no call that could still start a release. -/
structure Sealed (s : State) : Prop where
  closed : s.life.closed = true
  calls : ∀ call phase, s.calls.get? call = some phase → ¬ Pending phase ∧ ∀ c, phase ≠ .releasing c

theorem Sealed.set (h : Sealed s) (hphase : ¬ Pending phase) (hnot : ∀ c, phase ≠ .releasing c) :
    Sealed { s with calls := s.calls.set call phase } :=
  ⟨h.closed, GoMap.forall_set h.calls ⟨hphase, hnot⟩⟩

/-- From there on no release starts. -/
theorem sealed_does (h : Sealed s) (hdoes : Does s m e s') : Sealed s' ∧ e ≠ .releaseStarted := by
  cases hdoes with
  | idle | refused => exact ⟨h, by decide⟩
  | beganFirst _ _ hclosed | beganMore _ _ hclosed | enteredReleasing hclosed | entered hclosed =>
    exact absurd h.closed (by rw [hclosed]; decide)
  | ended | endedLast | endCrashed => exact ⟨⟨h.closed, h.calls⟩, by decide⟩
  | enteredClosed | cancelled =>
    exact ⟨h.set (fun hp => hp) (fun c hc => by cases hc), fun heq => by cases heq⟩
  | wokeReleased _ => exact ⟨h.set (fun hp => hp) (fun c hc => by cases hc), by decide⟩
  | wokeDrained hphase | lockedOut hphase | locked hphase =>
    exact absurd trivial (h.calls _ _ hphase).1
  | released hphase | releaseCrashed hphase => exact absurd rfl ((h.calls _ _ hphase).2 _)

abbrev Step := Event State Move Effect

theorem sealed_run (h : Sealed s) (moves : List Move) :
    ∀ e ∈ machine.events s moves, e.output ≠ .releaseStarted := by
  induction moves generalizing s with
  | nil => exact fun e he => absurd he List.not_mem_nil
  | cons m moves ih =>
    obtain ⟨hnext, hstart⟩ := sealed_does h (step_does s m)
    exact List.forall_mem_cons.mpr ⟨hstart, ih hnext⟩

/-- A release succeeds while no other call is between its two looks. -/
def Undisturbed (e : Step) : Prop :=
  ∀ call, e.input = .released call none → e.output = .releaseEnded none →
    ∀ other phase, other ≠ call → e.pre.calls.get? other = some phase → ¬ Pending phase

section

variable (h : Inv s) (hphase : s.calls.get? call = some (.releasing c))
include h hphase

/-- What the call that runs `release` does when it has succeeded. -/
theorem step_success : ∃ chans,
      s.chans.close c = some chans ∧
      machine.step s (.released call none) = (.releaseEnded none,
        ⟨{ s.life with releasing := false, closeErr := none, closed := true }, chans, s.running,
          s.calls.set call (.returned none)⟩) := by
  obtain ⟨chans, hclose⟩ := Channels.close_isSome (h.phases call _ hphase).2.2.2
  refine ⟨chans, hclose, ?_⟩
  simp only [machine, hphase, State.released, hclose, Option.isNone_none, if_true]

theorem sealed_success
    (hothers : ∀ other phase, other ≠ call → s.calls.get? other = some phase → ¬ Pending phase) :
    Sealed (machine.step s (.released call none)).2 := by
  obtain ⟨chans, -, hstep⟩ := step_success h hphase
  rw [hstep]
  refine ⟨rfl, fun k p hp => ?_⟩
  rcases GoMap.get?_set_cases hp with ⟨-, rfl⟩ | ⟨hne, hp⟩
  · exact ⟨fun hp => hp, fun c hc => by cases hc⟩
  · refine ⟨hothers k p hne hp, ?_⟩
    rintro c' rfl
    exact hne (h.alone k call c' c hp hphase)

/-- A call between its looks is not stopped by the success of another. -/
theorem pending_starts {other : Nat} (hne : other ≠ call)
    (hother : s.calls.get? other = some phase) (hpending : Pending phase) : ∃ moves,
      ∃ e ∈ machine.events (machine.step s (.released call none)).2 moves,
        e.output = .releaseStarted := by
  obtain ⟨chans, hclose, hstep⟩ := step_success h hphase
  rw [hstep]
  dsimp only
  -- from `ready` the second look finds `releasing` false
  have hlock : ∀ (life : Lifecycle) (chans : Channels) (running : List Nat)
      (calls : GoMap Nat Phase), life.releasing = false → calls.get? other = some .ready →
      (machine.step ⟨life, chans, running, calls⟩ (.lock other)).1 = .releaseStarted := by
    intro life chans running calls hfree hready
    simp only [machine, hready, State.lock, hfree, Bool.false_eq_true, if_false]
  have hkept : (s.calls.set call (.returned none)).get? other = some phase :=
    (GoMap.get?_set_ne _ _ hne).trans hother
  cases phase with
  | ready => exact ⟨[.lock other], _, List.mem_singleton.mpr rfl, hlock _ _ _ _ rfl hkept⟩
  | awaitingDrained drained =>
    have hsame : drained = s.life.drained := h.phases other _ hother
    have hquiet : chans.isClosed drained = true := by
      rw [Channels.isClosed_close hclose, hsame, h.quiet (h.phases call _ hphase).1, Bool.or_true]
    have hwake : ∀ (life : Lifecycle) (running : List Nat) (calls : GoMap Nat Phase),
        calls.get? other = some (.awaitingDrained drained) →
        (machine.step ⟨life, chans, running, calls⟩ (.wake other)).2 =
          ⟨life, chans, running, calls.set other .ready⟩ := by
      intro life running calls hwaiting
      simp only [machine, hwaiting, State.wake, hquiet, if_true]
    refine ⟨[.wake other, .lock other], _, List.mem_cons_of_mem _ (List.mem_singleton.mpr rfl), ?_⟩
    rw [hwake _ _ _ hkept]
    exact hlock _ _ _ _ rfl (GoMap.get?_set_self _ _ _)
  | _ => exact absurd hpending (fun hp => hp)

end

/-! ## Whole runs -/

/-- A release that starts finds only failed ones before it. -/
def RunsOnce (history : List Step) : Prop :=
  ∀ before e after, history = before ++ e :: after → e.output = .releaseStarted →
    ∀ f ∈ before, f.output ≠ .releaseEnded none

theorem success_inv (hdoes : Does s m (.releaseEnded none) s') :
    ∃ call c, m = .released call none ∧ s.calls.get? call = some (.releasing c) := by
  cases hdoes with
  | released hphase _ => exact ⟨_, _, rfl, hphase⟩

/-- In a run without disturbance a success seals the lifecycle. -/
theorem sealed_of_success {moves : List Move}
    (hcalm : ∀ e ∈ machine.events newLifecycle moves, Undisturbed e)
    (hsuccess : ∃ f ∈ machine.events newLifecycle moves, f.output = .releaseEnded none) :
    Sealed (machine.run newLifecycle moves) := by
  induction moves using List.reverseRecOn with
  | nil =>
    obtain ⟨f, hf, -⟩ := hsuccess
    exact absurd hf List.not_mem_nil
  | append_singleton moves m ih =>
    rw [Machine.events_append] at hcalm hsuccess
    rw [Machine.run_append]
    have hreach := reachable_run moves
    obtain ⟨f, hf, hsucceeds⟩ := hsuccess
    rcases List.mem_append.mp hf with hf | hf
    · have hsealed := ih (fun e he => hcalm e (List.mem_append_left _ he)) ⟨f, hf, hsucceeds⟩
      exact (sealed_does hsealed (step_does _ m)).1
    · rw [Machine.events, Machine.events, List.mem_singleton] at hf
      subst hf
      have hdoes := step_does (machine.run newLifecycle moves) m
      change (machine.step (machine.run newLifecycle moves) m).1 = _ at hsucceeds
      rw [hsucceeds] at hdoes
      obtain ⟨call, c, rfl, hphase⟩ := success_inv hdoes
      have hundisturbed := hcalm _ (List.mem_append_right _ (List.mem_singleton.mpr rfl))
      exact sealed_success (inv_reachable hreach) hphase (hundisturbed call rfl hsucceeds)

theorem runsOnce_of_undisturbed {moves : List Move}
    (hcalm : ∀ e ∈ machine.events newLifecycle moves, Undisturbed e) :
    RunsOnce (machine.events newLifecycle moves) := by
  intro before e after hsplit hstart f hf hsuccess
  obtain ⟨front, m, rest, rfl, rfl, rfl, -⟩ := Machine.events_split hsplit
  rw [Machine.events_append] at hcalm
  have hsealed := sealed_of_success (fun e he => hcalm e (List.mem_append_left _ he))
    ⟨f, hf, hsuccess⟩
  exact (sealed_does hsealed (step_does _ m)).2 hstart

theorem closing_does (h : s.life.closing = true) (hdoes : Does s m e s') :
    s'.life.closing = true ∧ e ≠ .began true := by
  cases hdoes with
  | beganFirst _ hclosing | beganMore _ hclosing => exact absurd h (by rw [hclosing]; decide)
  | enteredReleasing | entered => exact ⟨rfl, fun heq => by cases heq⟩
  | _ => exact ⟨h, fun heq => by cases heq⟩

theorem enter_closing (h : Inv s) (call : Nat) :
    (machine.step s (.enter call)).2.life.closing = true := by
  cases hphase : s.calls.get? call with
  | some phase => exact (closing_does (h.called call phase hphase) (step_does s _)).1
  | none =>
    simp only [machine, hphase, State.enter]
    split_ifs with hclosed
    · exact h.closed hclosed
    · rfl
    · rfl

/-- Once a call has entered, nothing begins. -/
theorem begin_refused {moves : List Move} {before : List Step} {e : Step} {after : List Step}
    (hsplit : machine.events newLifecycle moves = before ++ e :: after)
    (hentered : ∃ f ∈ before, ∃ call, f.input = .enter call) : e.output ≠ .began true := by
  obtain ⟨front, m, rest, rfl, rfl, rfl, -⟩ := Machine.events_split hsplit
  have hclosing : (machine.run newLifecycle front).life.closing = true := by
    obtain ⟨f, hf, call, hinput⟩ := hentered
    obtain ⟨front₁, front₂, rfl, hpre, -⟩ := Machine.mem_events hf
    rw [hinput, Machine.run_append, Machine.run_cons]
    have hreach := reachable_run front₁
    have hstart := enter_closing (inv_reachable hreach) call
    generalize (machine.step (machine.run newLifecycle front₁) (.enter call)).2 = s at hstart
    clear hf hpre hsplit
    induction front₂ generalizing s with
    | nil => exact hstart
    | cons m front₂ ih => exact ih _ (closing_does hstart (step_does s m)).1
  exact (closing_does hclosing (step_does _ m)).2

/--
**Release runs alone, once no call is between its looks.** In every run `release` finds no
operation running and no other release, and nothing begins after a call of `close` has entered.
No release starts after a successful one exactly when no other call was between its two looks at
the success; so in a run in which every success is undisturbed, only failed releases are retried.
-/
theorem release_once_iff_undisturbed (moves : List Move) :
    (∀ call c, (machine.run newLifecycle moves).calls.get? call = some (.releasing c) →
      (machine.run newLifecycle moves).running = []) ∧
    (∀ before e after, machine.events newLifecycle moves = before ++ e :: after →
      (∃ f ∈ before, ∃ call, f.input = .enter call) → e.output ≠ .began true) ∧
    (∀ call call' c c', (machine.run newLifecycle moves).calls.get? call = some (.releasing c) →
      (machine.run newLifecycle moves).calls.get? call' = some (.releasing c') → call = call') ∧
    (∀ call c, (machine.run newLifecycle moves).calls.get? call = some (.releasing c) →
      ((∀ more, ∀ e ∈ machine.events
          (machine.step (machine.run newLifecycle moves) (.released call none)).2 more,
          e.output ≠ .releaseStarted) ↔
        ∀ other phase, other ≠ call →
          (machine.run newLifecycle moves).calls.get? other = some phase → ¬ Pending phase)) ∧
    ((∀ e ∈ machine.events newLifecycle moves, Undisturbed e) →
      RunsOnce (machine.events newLifecycle moves)) := by
  have hinv := inv_reachable (reachable_run moves)
  refine ⟨?_, fun before e after hsplit => begin_refused hsplit, hinv.alone, ?_,
    runsOnce_of_undisturbed⟩
  · intro call c hphase
    have hactive := (hinv.phases call _ hphase).1
    have hcounted := hinv.counted
    exact List.length_eq_zero_iff.mp (by omega)
  · intro call c hphase
    constructor
    · intro hnone other phase hne hother hpending
      obtain ⟨more, e, he, hstart⟩ := pending_starts hinv hphase hne hother hpending
      exact hnone more e he hstart
    · intro hothers
      exact sealed_run (sealed_success hinv hphase hothers)

/-- Two calls close an idle lifecycle at the same time. -/
def bothClose : List Move :=
  [.enter 1, .enter 2, .wake 1, .wake 2, .lock 1, .released 1 none, .lock 2]

/-- The first release succeeds, and the second call releases again. -/
theorem release_runs_twice :
    (machine.events newLifecycle bothClose).map Event.output =
      [.nothing, .nothing, .nothing, .nothing, .releaseStarted, .releaseEnded none,
        .releaseStarted] := by
  decide

end MiniCloud.WasmExec
