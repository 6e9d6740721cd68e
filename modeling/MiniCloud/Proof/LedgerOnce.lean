import MiniCloud.Lib.Machine
import MiniCloud.Proof.LedgerSteps

/-!
# At most once

The ledger as a machine that takes its four calls in any order with any arguments. Beside the
ledger stands the list of keys whose apply callback was run, so that "the callback is not run
again" is a statement about states.

The argument is about one key at a time. A call that is not a collection leaves the slot of a
known key alone; a collection moves it one way, from recorded to expired to unknown, and as far as
the cutoff reaches. A callback runs only for an unknown key. So between the step that stores a key
and the step that forgets it, no callback runs for it.
-/

namespace MiniCloud.ControlPlane

open Lib Problem Digest Model

variable {s : LedgerState} {config : LedgerConfig} {call : LedgerCall} {k : OperationKey}
  {r : Record}

/-! ## The machine -/

/-- A call. A callback is what it answers; `none` is a nil callback. -/
inductive LedgerCall where
  | complete (c : Completion)
  | completeAfter (c : Completion) (apply : Option (Except GoError Unit))
  | lookup (key : OperationKey)
  | gc (cutoff : Time)

inductive LedgerAnswer where
  | completed (r : CompletionResult)
  | found (r : Record)
  | collected (r : GCResult)

/-- The callback of a call for `key`: it is noted, then it answers. -/
def noted (key : OperationKey) (answer : Except GoError Unit) :
    Op GoError (List OperationKey) Unit := do
  let log ← get
  set (key :: log)
  Op.ofExcept answer

/-- A ledger and the keys whose callback has run, latest first. -/
abbrev LedgerState := Ledger × List OperationKey

def LedgerCall.step (s : LedgerState) : LedgerCall → Except GoError LedgerAnswer × LedgerState
  | .complete c =>
    let r := Op.exec (Ledger.complete c) s
    (r.1.map .completed, r.2)
  | .completeAfter c apply =>
    let r := Op.exec (Ledger.completeAfter c (apply.map (noted c.key))) s
    (r.1.map .completed, r.2)
  | .lookup key =>
    let r := Op.exec (Ledger.lookup key) s.1
    (r.1.map .found, (r.2, s.2))
  | .gc cutoff =>
    let r := Op.exec (Ledger.gc cutoff) s.1
    (r.1.map .collected, (r.2, s.2))

def ledgerMachine : Machine LedgerState LedgerCall (Except GoError LedgerAnswer) :=
  ⟨LedgerCall.step⟩

def ledgerInit (config : LedgerConfig) : LedgerState := (newLedgerWithConfig config, [])

abbrev LedgerEvent := Event LedgerState LedgerCall (Except GoError LedgerAnswer)

/-! ## Steps -/

/-- The completion a call submits to the ledger, with its callback. -/
def LedgerCall.submits : LedgerCall → Option (Completion × Option (Except GoError Unit))
  | .complete c => some (c, none)
  | .completeAfter c (some answer) => some (c, some answer)
  | _ => none

/-- **Everything a step can do.** -/
inductive Steps (s : LedgerState) : LedgerCall → Except GoError LedgerAnswer → LedgerState → Prop
  /-- An error, or an answer that only reads. -/
  | quiet (call : LedgerCall) (answer : Except GoError LedgerAnswer) : Steps s call answer s
  /-- The callback ran and failed. -/
  | aborted (c : Completion) (e : GoError) (d : SHA256) (hi : Insertable s.1 c d) :
      Steps s (.completeAfter c (some (.error e))) (.error e) (s.1, c.key :: s.2)
  /-- A completion was stored; a callback, if there was one, ran and succeeded. -/
  | stored (call : LedgerCall) (c : Completion) (d : SHA256) (log : List OperationKey)
      (hc : (call = .complete c ∧ log = s.2) ∨
        (call = .completeAfter c (some (.ok ())) ∧ log = c.key :: s.2))
      (hi : Insertable s.1 c d) :
      Steps s call (.ok (.completed ⟨.applied, c.record d⟩)) (s.1.insert c d, log)
  | collected (cutoff : Time) (hv : validateUTC "cutoff" cutoff = .ok ()) :
      Steps s (.gc cutoff) (.ok (.collected (s.1.collect cutoff).1))
        ((s.1.collect cutoff).2, s.2)

theorem exec_noted (key : OperationKey) (answer : Except GoError Unit) (log : List OperationKey) :
    Op.exec (noted key answer) log = (answer, key :: log) := by
  simp [noted]

theorem steps (s : LedgerState) (call : LedgerCall) :
    Steps s call (call.step s).1 (call.step s).2 := by
  obtain ⟨l, log⟩ := s
  cases call with
  | lookup key =>
    have : (LedgerCall.step (l, log) (.lookup key)).2 = (l, log) := by
      simp only [LedgerCall.step, exec_lookup]
    rw [this]
    exact .quiet _ _
  | gc cutoff =>
    cases hv : validateUTC "cutoff" cutoff with
    | error e =>
      have : LedgerCall.step (l, log) (.gc cutoff) = (.error e, (l, log)) := by
        simp [LedgerCall.step, Ledger.gc, hv, Except.map]
      rw [this]
      exact .quiet _ _
    | ok u =>
      have : LedgerCall.step (l, log) (.gc cutoff) =
          (.ok (.collected (l.collect cutoff).1), ((l.collect cutoff).2, log)) := by
        simp only [LedgerCall.step, Ledger.gc, Op.exec_ofExcept_bind, hv, Op.exec_get_bind,
          Op.exec_set_bind, Op.exec_pure, Except.map]
      rw [this]
      exact .collected cutoff hv
  | complete c =>
    have h := completes l log c none
    simp only [LedgerCall.step, Ledger.complete]
    generalize Op.exec (Ledger.completeWith c none) (l, log) = r at h
    cases h with
    | rejected | replayed => exact .quiet _ _
    | aborted m e t d hi ha hm => cases ha
    | stored t d hi ha =>
      rcases ha with ⟨-, rfl⟩ | ⟨m, ha, -⟩
      · rw [cloneRecord_record]
        exact .stored _ c d t (.inl ⟨rfl, rfl⟩) hi
      · cases ha
  | completeAfter c apply =>
    cases apply with
    | none =>
      have : LedgerCall.step (l, log) (.completeAfter c none) =
          (.error applyRequiredError, (l, log)) := by
        simp only [LedgerCall.step, Ledger.completeAfter, Option.map_none, Option.isNone_none,
          Op.exec_failIf_bind, if_true, Except.map]
      rw [this]
      exact .quiet _ _
    | some answer =>
      have h := completes l log c (some (noted c.key answer))
      simp only [LedgerCall.step, Ledger.completeAfter, Option.map_some, Option.isNone_some,
        Op.exec_failIf_bind, Bool.false_eq_true, if_false]
      generalize Op.exec (Ledger.completeWith c (some (noted c.key answer))) (l, log) = r at h
      cases h with
      | rejected | replayed => exact .quiet _ _
      | aborted m e t d hi ha hm =>
        obtain rfl := Option.some.inj ha
        rw [exec_noted] at hm
        obtain ⟨rfl, rfl⟩ := Prod.mk.inj hm
        exact .aborted c e d hi
      | stored t d hi ha =>
        rcases ha with ⟨ha, -⟩ | ⟨m, ha, hm⟩
        · cases ha
        · obtain rfl := Option.some.inj ha
          rw [exec_noted] at hm
          obtain ⟨rfl, rfl⟩ := Prod.mk.inj hm
          rw [cloneRecord_record]
          exact .stored _ c d _ (.inr ⟨rfl, rfl⟩) hi

/-! ## The invariant -/

theorem ledgerInv_step {s' : LedgerState} {answer : Except GoError LedgerAnswer}
    (hs : Steps s call answer s') (h : LedgerInv config s.1) : LedgerInv config s'.1 := by
  cases hs with
  | quiet | aborted => exact h
  | stored _ c d log hc hi => exact ledgerInv_insert h hi
  | collected cutoff hv => exact ledgerInv_collect h cutoff

theorem ledgerInv_reachable (h : ledgerMachine.Reachable (ledgerInit config) s) :
    LedgerInv config s.1 :=
  Machine.invariant (P := fun s : LedgerState => LedgerInv config s.1) (ledgerInv_new config)
    (fun s call _ ih => ledgerInv_step (steps s call) ih) h

/-- One step seen from one key. -/
theorem slot_step {s' : LedgerState} {answer : Except GoError LedgerAnswer}
    (hs : Steps s call answer s') (h : LedgerInv config s.1) (k : OperationKey) :
    s'.1.slot k = s.1.slot k ∨
      (s.1.slot k = .absent ∧ ∃ c answer d, call.submits = some (c, answer) ∧
        s'.1.slot k = .live (c.record d)) ∨
      ∃ cutoff, call = .gc cutoff ∧ validateUTC "cutoff" cutoff = .ok () ∧
        s'.1.slot k = (s.1.slot k).collect config cutoff := by
  cases hs with
  | quiet | aborted => exact .inl rfl
  | stored _ c d log hc hi =>
    have hslot := Ledger.insert_slot hi k
    split_ifs at hslot with hk
    · have hsubmits : ∃ answer, call.submits = some (c, answer) := by
        rcases hc with ⟨rfl, -⟩ | ⟨rfl, -⟩
        · exact ⟨none, rfl⟩
        · exact ⟨some (.ok ()), rfl⟩
      obtain ⟨answer, hsubmits⟩ := hsubmits
      refine .inr (.inl ⟨?_, c, answer, d, hsubmits, hslot⟩)
      rw [hk]
      exact slot_absent.mpr ⟨hi.untombed, hi.unrecorded⟩
    · exact .inl hslot
  | collected cutoff hv => exact .inr (.inr ⟨cutoff, rfl, hv, collect_slot h cutoff k⟩)

/-! ## Answers -/

/-- The call at this event is for `k`: it submits a completion of `k` or looks `k` up. -/
def LedgerCall.For (call : LedgerCall) (k : OperationKey) : Prop :=
  call = .lookup k ∨ ∃ c answer, call.submits = some (c, answer) ∧ c.key = k

/-- The event answered from the record `r` of `k`. -/
def Replays (e : LedgerEvent) (k : OperationKey) (r : Record) : Prop :=
  (e.input = .lookup k → e.output = .ok (.found r)) ∧
  ∀ c answer, e.input.submits = some (c, answer) → c.key = k →
    (c.request.digest = .ok r.digest → e.output = .ok (.completed
      ⟨if r.outcome.credentialIssued then .credentialNotReplayable else .replay, r⟩)) ∧
    ∀ d, c.request.digest = .ok d → d ≠ r.digest → e.output = .error conflictError

/-- The event answered that `k` has expired. -/
def Expired (e : LedgerEvent) (k : OperationKey) : Prop :=
  e.input.For k → e.output = .error expiredError

theorem step_submits {c : Completion} {answer : Option (Except GoError Unit)}
    (h : call.submits = some (c, answer)) :
    call.step s =
      ((Op.exec (Ledger.completeWith c (answer.map (noted c.key))) s).1.map .completed,
        (Op.exec (Ledger.completeWith c (answer.map (noted c.key))) s).2) := by
  cases call with
  | complete c' =>
    obtain ⟨rfl, rfl⟩ := Prod.mk.inj (Option.some.inj h)
    rfl
  | completeAfter c' apply =>
    cases apply with
    | none => cases h
    | some a =>
      obtain ⟨rfl, rfl⟩ := Prod.mk.inj (Option.some.inj h)
      simp only [LedgerCall.step, Ledger.completeAfter, Option.map_some, Option.isNone_some,
        Op.exec_failIf_bind, Bool.false_eq_true, if_false]
  | lookup | gc => cases h

theorem replays_of_live (h : LedgerInv config s.1) (hr : s.1.records.get? k = some r)
    (call : LedgerCall) : Replays (ledgerMachine.event s call) k r := by
  obtain ⟨-, hval, hclone⟩ := h.records k r hr
  have ht : s.1.tombstones.get? k = none := by
    rcases h.disjoint k with hd | hd
    · exact hd
    · rw [hd] at hr; cases hr
  refine ⟨?_, ?_⟩
  · intro hlook
    have hlook' : call = .lookup k := hlook
    subst hlook'
    show (Op.exec (Ledger.lookup k) s.1).1.map _ = _
    rw [exec_lookup, hval, h.slot_live.mpr hr]
    simp only [hclone, Except.map]
  · rintro c answer hsub rfl
    have hsub' : call.submits = some (c, answer) := hsub
    have hexec := exec_complete_live s.2 (answer.map (noted c.key)) hval ht hr
    have hout : (ledgerMachine.event s call).output = (call.step s).1 := rfl
    rw [hout, step_submits hsub', hexec]
    refine ⟨fun hd => ?_, fun d hd hne => ?_⟩
    · simp only [hd, if_true, replayResult, hclone]
      rfl
    · simp only [hd, if_neg (Ne.symm hne)]
      rfl

theorem expired_of_dead (h : LedgerInv config s.1) {t : Tombstone}
    (ht : s.1.tombstones.get? k = some t) (call : LedgerCall) :
    Expired (ledgerMachine.event s call) k := by
  obtain ⟨-, hval⟩ := h.tombstones k t ht
  rintro (hlook | ⟨c, answer, hsub, rfl⟩)
  · have hlook' : call = .lookup k := hlook
    subst hlook'
    show (Op.exec (Ledger.lookup k) s.1).1.map _ = _
    rw [exec_lookup, hval, slot_dead.mpr ht]
    rfl
  · have hsub' : call.submits = some (c, answer) := hsub
    have hexec := exec_complete_dead s.2 (answer.map (noted c.key)) hval ht
    have hout : (ledgerMachine.event s call).output = (call.step s).1 := rfl
    rw [hout, step_submits hsub', hexec]
    rfl

/-! ## Histories -/

/-- The event stored `r` as the first completion of `k`. -/
def StoresRecord (e : LedgerEvent) (k : OperationKey) (r : Record) : Prop :=
  (∃ c answer, e.input.submits = some (c, answer) ∧ c.key = k) ∧
    e.output = .ok (.completed ⟨.applied, r⟩)

/-- A collection that makes the record of `k` a tombstone and finds it due already. -/
def Skips (e : LedgerEvent) (k : OperationKey) : Prop :=
  ∃ r cutoff, e.pre.1.records.get? k = some r ∧ e.input = .gc cutoff ∧
    (r.completedAt.add e.pre.1.operationTTL).after cutoff = false ∧
    (cutoff.add e.pre.1.tombstoneTTL).after cutoff = false

/-- The event took the tombstone of `k` away, one that stood there or one of its own making. -/
def Forgets (e : LedgerEvent) (k : OperationKey) : Prop :=
  ((e.pre.1.tombstones.get? k).isSome ∨ Skips e k) ∧ e.post.1.tombstones.get? k = none

/-- The callback of a call for `k` was run at this event. -/
def RunsApply (e : LedgerEvent) (k : OperationKey) : Prop := e.post.2 = k :: e.pre.2

/-- What an event that stores a record leaves behind. -/
theorem stores_spec (h : StoresRecord (ledgerMachine.event s call) k r) :
    ∃ c answer d, call.submits = some (c, answer) ∧ c.key = k ∧ Insertable s.1 c d ∧
      r = c.record d ∧ (call.step s).2.1 = s.1.insert c d := by
  obtain ⟨⟨c, answer, hsub, hkey⟩, hout⟩ := h
  have hsub' : call.submits = some (c, answer) := hsub
  have hout' : (call.step s).1 = .ok (.completed ⟨.applied, r⟩) := hout
  rw [step_submits hsub'] at hout' ⊢
  have hc := completes s.1 s.2 c (answer.map (noted c.key))
  generalize Op.exec (Ledger.completeWith c (answer.map (noted c.key))) (s.1, s.2) = res at hc hout' ⊢
  cases hc with
  | rejected | aborted => cases hout'
  | replayed current hrec hd =>
    -- a replay is never marked as applied
    simp only [Except.map, replayResult, Except.ok.injEq, LedgerAnswer.completed.injEq,
      CompletionResult.mk.injEq] at hout'
    split_ifs at hout' <;> simp at hout'
  | stored t d hi ha =>
    simp only [Except.map, Except.ok.injEq, LedgerAnswer.completed.injEq,
      CompletionResult.mk.injEq, cloneRecord_record, true_and] at hout'
    exact ⟨c, answer, d, hsub', hkey, hi, hout'.symm, rfl⟩

theorem stores_post (h : StoresRecord (ledgerMachine.event s call) k r) :
    (ledgerMachine.step s call).2.1.slot k = .live r := by
  obtain ⟨c, answer, d, -, rfl, hi, rfl, hpost⟩ := stores_spec h
  show (call.step s).2.1.slot c.key = _
  rw [hpost, Ledger.insert_slot hi, if_pos rfl]

/-- `k` is recorded with `r`, or its record has expired. -/
def Known (k : OperationKey) (r : Record) (s : LedgerState) : Prop :=
  s.1.slot k = .live r ∨ ∃ t, s.1.slot k = .dead t

theorem known_step (s : LedgerState) (call : LedgerCall)
    (hr : ledgerMachine.Reachable (ledgerInit config) s)
    (hf : ¬ Forgets (ledgerMachine.event s call) k) (hk : Known k r s) :
    Known k r (ledgerMachine.step s call).2 := by
  have hinv := ledgerInv_reachable hr
  rcases slot_step (steps s call) hinv k with hsame | ⟨habs, -⟩ | ⟨cutoff, rfl, -, hgc⟩
  · exact hk.imp (hsame.trans ·) fun ⟨t, ht⟩ => ⟨t, hsame.trans ht⟩
  · -- only an unknown key can be stored, and this one is known
    rcases hk with hk | ⟨t, hk⟩ <;> rw [habs] at hk <;> cases hk
  · rcases hk with hk | ⟨t, hk⟩
    · rw [hk, Slot.collect, ← hinv.built] at hgc
      split_ifs at hgc with hlive hdue
      · exact .inl hgc
      · exact .inr ⟨_, hgc⟩
      · exact absurd ⟨.inr ⟨r, cutoff, hinv.slot_live.mp hk, rfl, Bool.eq_false_iff.mpr hlive,
          Bool.eq_false_iff.mpr hdue⟩, (slot_absent.mp hgc).1⟩ hf
    · rw [hk, Slot.collect] at hgc
      split_ifs at hgc
      · exact .inr ⟨t, hgc⟩
      · exact absurd
          ⟨.inl (Option.isSome_iff_exists.mpr ⟨t, slot_dead.mp hk⟩), (slot_absent.mp hgc).1⟩ hf

/-- No callback runs for a key the ledger knows. -/
theorem not_runsApply (hk : Known k r s) : ¬ RunsApply (ledgerMachine.event s call) k := by
  intro hrun
  have hrun' : (call.step s).2.2 = k :: s.2 := hrun
  have habsent : ∀ {c : Completion} {d : SHA256}, Insertable s.1 c d → c.key = k → False := by
    rintro c d hi rfl
    have habs := slot_absent.mpr ⟨hi.untombed, hi.unrecorded⟩
    rcases hk with hk | ⟨t, hk⟩ <;> rw [habs] at hk <;> cases hk
  have hs := steps s call
  generalize (call.step s).1 = answer at hs
  generalize (call.step s).2 = s' at hs hrun'
  cases hs with
  | quiet | collected => exact absurd hrun' (by simp)
  | aborted c e d hi => exact habsent hi (List.cons.inj hrun').1
  | stored _ c d log hc hi =>
    rcases hc with ⟨-, rfl⟩ | ⟨-, rfl⟩
    · exact absurd hrun' (by simp)
    · exact habsent hi (List.cons.inj hrun').1

/--
**The ledger runs each operation at most once.** For every ledger and every sequence of calls:

* no key is a record and a tombstone at once, and the two together stay within the bound;
* an event that stores a completion stores that completion's digest and outcome;
* from then on, until an event forgets the key, no callback runs for it, and every call for it is
  answered from the stored record, or with `operation_expired` once the record is a tombstone;
* an event that answers with an error leaves the ledger as it was, and if it ran a callback, that
  callback returned the error.
-/
theorem ledger_at_most_once (config : LedgerConfig) (calls : List LedgerCall) :
    let final := (ledgerMachine.run (ledgerInit config) calls).1
    let history := ledgerMachine.events (ledgerInit config) calls
    (∀ k, ¬ ((final.records.get? k).isSome ∧ (final.tombstones.get? k).isSome)) ∧
    final.records.len + final.tombstones.len ≤ config.maxOperations ∧
    (∀ e ∈ history, ∀ k r, StoresRecord e k r → ∃ c answer, e.input.submits = some (c, answer) ∧
      c.key = k ∧ c.request.digest = .ok r.digest ∧ r.outcome = cloneOutcome c.outcome ∧
      e.post.1.records.get? k = some r) ∧
    (∀ before e₁ middle e₂ after, history = before ++ e₁ :: (middle ++ e₂ :: after) →
      ∀ k r, StoresRecord e₁ k r → (∀ e ∈ middle, ¬ Forgets e k) →
        ¬ RunsApply e₂ k ∧
        ((e₂.pre.1.records.get? k = some r ∧ Replays e₂ k r) ∨
          ((e₂.pre.1.tombstones.get? k).isSome ∧ Expired e₂ k))) ∧
    (∀ e ∈ history, ∀ err, e.output = .error err → e.post.1 = e.pre.1 ∧
      (e.post.2 ≠ e.pre.2 → ∃ c, e.input = .completeAfter c (some (.error err)))) := by
  intro final history
  have hreach : ∀ {s : LedgerState} (is : List LedgerCall),
      ledgerMachine.Reachable (ledgerInit config) s →
      ledgerMachine.Reachable (ledgerInit config) (ledgerMachine.run s is) := fun is h => h.run is
  have hfinal := ledgerInv_reachable (hreach calls .init)
  refine ⟨fun k => ?_, hfinal.bounded, ?_, ?_, ?_⟩
  · rintro ⟨hrec, htomb⟩
    rcases hfinal.disjoint k with hd | hd
    · rw [hd] at htomb
      cases htomb
    · rw [hd] at hrec
      cases hrec
  · intro e he k r hst
    obtain ⟨hre, heq⟩ := Machine.event_reachable .init he
    rw [heq] at hst
    obtain ⟨c, answer, d, hsub, hkey, hi, rfl, -⟩ := stores_spec hst
    have hpost := (ledgerInv_reachable (hre.tail e.input)).slot_live.mp (stores_post hst)
    refine ⟨c, answer, hsub, hkey, hi.digest, rfl, ?_⟩
    rw [heq]
    exact hpost
  · intro before e₁ middle e₂ after hsplit k r hst hmid
    -- cut the run at both events and carry `Known` across the middle
    obtain ⟨is₁, i₁, is₂, -, -, he₁, hrest⟩ := Machine.events_split hsplit
    obtain ⟨js₁, j₂, js₂, -, hmiddle, he₂, -⟩ := Machine.events_split hrest.symm
    have hr₁ := hreach is₁ Machine.Reachable.init
    rw [he₁] at hst
    have hpost : Known k r e₁.post := by
      rw [he₁]
      exact .inl (stores_post hst)
    have hr₁' := hr₁.post he₁
    rw [hmiddle] at hmid
    have hknown := Machine.run_keeps known_step hr₁' hpost js₁ hmid
    have hinv := ledgerInv_reachable (hreach js₁ hr₁')
    subst he₂
    refine ⟨not_runsApply hknown, ?_⟩
    rcases hknown with hlive | ⟨t, hdead⟩
    · have hrec := hinv.slot_live.mp hlive
      exact .inl ⟨hrec, replays_of_live hinv hrec j₂⟩
    · have htomb := slot_dead.mp hdead
      exact .inr ⟨Option.isSome_iff_exists.mpr ⟨t, htomb⟩, expired_of_dead hinv htomb j₂⟩
  · intro e he err hout
    obtain ⟨-, heq⟩ := Machine.event_reachable .init he
    have hs := steps e.pre e.input
    rw [heq] at hout ⊢
    have hout' : (e.input.step e.pre).1 = .error err := hout
    show (e.input.step e.pre).2.1 = e.pre.1 ∧ ((e.input.step e.pre).2.2 ≠ e.pre.2 → _)
    rw [hout'] at hs
    generalize (e.input.step e.pre).2 = s' at hs ⊢
    generalize e.input = call at hs ⊢
    cases hs with
    | quiet => exact ⟨rfl, fun h => absurd rfl h⟩
    | aborted c _ d hi => exact ⟨rfl, fun _ => ⟨c, rfl⟩⟩

/-- A successful creation without body, as the first operation of a fresh ledger. -/
def sampleCompletion : Completion where
  key := ⟨"alice", "default", "op-1"⟩
  request := ⟨"post", "/v1/functions", ⟨true, none, none⟩, false, none, none⟩
  outcome := ⟨.succeeded, none, [⟨"function", "fn-1", some 1, none⟩], false⟩
  completedAt := ⟨1, .utc⟩
  appliedIndex := 1

def sampleDigest : SHA256 :=
  match sampleCompletion.request.digest with
  | .ok d => d
  | .error _ => []

/-- Submitted twice to the ledger of `New`, it is stored once and its callback does not run. -/
theorem ledger_at_most_once_sample :
    let first := ledgerMachine.event (ledgerInit defaultLedgerConfig) (.complete sampleCompletion)
    let second := ledgerMachine.event first.post
      (.completeAfter sampleCompletion (some (.ok ())))
    StoresRecord first sampleCompletion.key (sampleCompletion.record sampleDigest) ∧
      ¬ RunsApply second sampleCompletion.key := by
  refine ⟨⟨⟨sampleCompletion, none, rfl, rfl⟩, rfl⟩, ?_⟩
  have h := ledger_at_most_once defaultLedgerConfig
    [.complete sampleCompletion, .completeAfter sampleCompletion (some (.ok ()))]
  exact (h.2.2.2.1 [] _ [] _ [] rfl sampleCompletion.key (sampleCompletion.record sampleDigest)
    ⟨⟨sampleCompletion, none, rfl, rfl⟩, rfl⟩ (by simp)).1

end MiniCloud.ControlPlane
