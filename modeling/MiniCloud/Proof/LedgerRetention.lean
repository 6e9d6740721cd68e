import MiniCloud.Proof.LedgerOnce

/-!
# Retention windows

How long a completed operation is answered, in terms of the cutoffs of the collections alone. The
cutoffs come from outside and may go backwards, so "until" means until the first collection whose
cutoff has reached the boundary, however many earlier or later cutoffs stand in between.
-/

namespace MiniCloud.ControlPlane

open Lib Problem Digest Model

variable {k : OperationKey} {s : LedgerState} {r : Record} {t : Tombstone} {cutoff : Time}

/-- The event is a collection with an acceptable cutoff at or after `boundary`. -/
def Reaches (boundary : Int) (e : LedgerEvent) : Prop :=
  ∃ cutoff, e.input = .gc cutoff ∧ validateUTC "cutoff" cutoff = .ok () ∧ boundary ≤ cutoff.instant

/-- The cutoff from which a collection moves the key on. -/
def Slot.due (config : LedgerConfig) : Slot → Int
  | .live r => (r.completedAt.add config.operationTTL).instant
  | .dead t => (t.tombstonedAt.add config.tombstoneTTL).instant
  | .absent => 0

/-- The retention that is counted from a time of this call ends at a time. -/
def LedgerCall.Fits (config : LedgerConfig) : LedgerCall → Prop
  | .complete c | .completeAfter c _ => c.completedAt.Fits config.operationTTL
  | .gc cutoff => cutoff.Fits config.tombstoneTTL
  | .lookup _ => True

theorem LedgerCall.Fits.submits {config : LedgerConfig} {call : LedgerCall} {c : Completion}
    {answer : Option (Except GoError Unit)} (h : call.Fits config)
    (hsub : call.submits = some (c, answer)) : c.completedAt.Fits config.operationTTL := by
  cases call with
  | complete c' =>
    cases hsub
    exact h
  | completeAfter c' apply =>
    cases apply <;> cases hsub
    exact h
  | lookup | gc => cases hsub

/-- So does the retention of what is held. -/
def Slot.Fits (config : LedgerConfig) : Slot → Prop
  | .live r => r.completedAt.Fits config.operationTTL
  | .dead t => t.tombstonedAt.Fits config.tombstoneTTL
  | .absent => True

section

variable {config : LedgerConfig}

/-- A key that is known stays as it is, unless a collection reaches its boundary. -/
theorem slot_kept {slot : Slot} (hknown : slot ≠ .absent) (s : LedgerState) (call : LedgerCall)
    (hr : ledgerMachine.Reachable (ledgerInit config) s)
    (hx : ¬ Reaches (slot.due config) (ledgerMachine.event s call)) (hs : s.1.slot k = slot) :
    (ledgerMachine.step s call).2.1.slot k = slot := by
  have hinv := ledgerInv_reachable hr
  rcases slot_step (steps s call) hinv k with hsame | ⟨habs, -⟩ | ⟨cutoff, hcall, hv, hgc⟩
  · exact hsame.trans hs
  · exact absurd (hs.symm.trans habs) hknown
  · rw [hs] at hgc
    refine hgc.trans ?_
    cases slot with
    | absent => rfl
    | live _ | dead _ =>
      rw [Slot.collect, if_pos]
      by_contra hafter
      exact hx ⟨cutoff, hcall, hv, by simpa [Slot.due] using hafter⟩

/-- A collection with an acceptable cutoff, seen from one key. -/
theorem gc_slot (hr : ledgerMachine.Reachable (ledgerInit config) s)
    (hv : validateUTC "cutoff" cutoff = .ok ()) (k : OperationKey) :
    (ledgerMachine.step s (.gc cutoff)).2.1.slot k = (s.1.slot k).collect config cutoff := by
  have hstep : (ledgerMachine.step s (.gc cutoff)).2.1 = (s.1.collect cutoff).2 := by
    show (Op.exec (Ledger.gc cutoff) s.1).2 = _
    simp only [Ledger.gc, Op.exec_ofExcept_bind, hv, Op.exec_get_bind, Op.exec_set_bind,
      Op.exec_pure]
  rw [hstep]
  exact collect_slot (ledgerInv_reachable hr) cutoff k

/-- A key the ledger knows is not stored again. -/
theorem not_stores {call : LedgerCall} (hk : s.1.slot k ≠ .absent) (r : Record) :
    ¬ StoresRecord (ledgerMachine.event s call) k r := by
  intro h
  obtain ⟨c, answer, d, -, rfl, hi, -⟩ := stores_spec h
  exact hk (slot_absent.mpr ⟨hi.untombed, hi.unrecorded⟩)

/-- It stays so over every event that does not reach its boundary. -/
theorem slot_until {slot : Slot} (hknown : slot ≠ .absent)
    (hr : ledgerMachine.Reachable (ledgerInit config) s) (hs : s.1.slot k = slot)
    {rest : List LedgerCall} {middle : List LedgerEvent} {e : LedgerEvent}
    {after : List LedgerEvent} (hsplit : ledgerMachine.events s rest = middle ++ e :: after)
    (hmid : ∀ x ∈ middle, ¬ Reaches (slot.due config) x) :
    ledgerMachine.Reachable (ledgerInit config) e.pre ∧ e = ledgerMachine.event e.pre e.input ∧
      e.pre.1.slot k = slot ∧ ∃ later, ledgerMachine.events e.post later = after := by
  obtain ⟨is, i, later, -, hmiddle, rfl, hafter⟩ := Machine.events_split hsplit
  rw [hmiddle] at hmid
  exact ⟨hr.run is, rfl, Machine.run_keeps (slot_kept hknown) hr hs is hmid, later,
    hafter.symm⟩

/-- A collection leaves a key alone, or moves it as `Slot.collect` says. -/
theorem gc_slot_or (hr : ledgerMachine.Reachable (ledgerInit config) s) (cutoff : Time)
    (k : OperationKey) :
    (ledgerMachine.step s (.gc cutoff)).2.1.slot k = s.1.slot k ∨
      (ledgerMachine.step s (.gc cutoff)).2.1.slot k = (s.1.slot k).collect config cutoff := by
  cases hv : validateUTC "cutoff" cutoff with
  | ok u => exact .inr (gc_slot hr hv k)
  | error e =>
    left
    show (Op.exec (Ledger.gc cutoff) s.1).2.slot k = _
    simp only [Ledger.gc, Op.exec_ofExcept_bind, hv]

theorem gc_forgets (hr : ledgerMachine.Reachable (ledgerInit config) s)
    (hs : s.1.slot k = .dead t) (hv : validateUTC "cutoff" cutoff = .ok ())
    (hdue : (t.tombstonedAt.add config.tombstoneTTL).instant ≤ cutoff.instant) :
    (ledgerMachine.step s (.gc cutoff)).2.1.slot k = .absent := by
  rw [gc_slot hr hv, hs, Slot.collect, if_neg (by simpa using hdue)]

/-- A record whose time has come becomes a tombstone, if the tombstone is to be kept. -/
theorem gc_expires (hr : ledgerMachine.Reachable (ledgerInit config) s)
    (hs : s.1.slot k = .live r) (hv : validateUTC "cutoff" cutoff = .ok ())
    (hdue : (r.completedAt.add config.operationTTL).instant ≤ cutoff.instant)
    (hkept : cutoff.instant < (cutoff.add config.tombstoneTTL).instant) :
    (ledgerMachine.step s (.gc cutoff)).2.1.slot k = .dead ⟨k, r.digest, cutoff⟩ := by
  have hinv := ledgerInv_reachable hr
  rw [gc_slot hr hv, hs, Slot.collect, if_neg (by simpa using hdue),
    (hinv.records k r (hinv.slot_live.mp hs)).1]
  exact if_pos (Time.after_iff.mpr hkept)

section Answers

variable {e : LedgerEvent} (hr : ledgerMachine.Reachable (ledgerInit config) e.pre)
  (heq : e = ledgerMachine.event e.pre e.input)
include hr heq

/-- What a call finds while the record is there. -/
theorem live_answers (hlive : e.pre.1.slot k = .live r) :
    e.pre.1.records.get? k = some r ∧ Replays e k r ∧ ∀ r', ¬ StoresRecord e k r' := by
  have hinv := ledgerInv_reachable hr
  have hrec := hinv.slot_live.mp hlive
  rw [heq]
  exact ⟨hrec, replays_of_live hinv hrec _, not_stores (by rw [hlive]; exact Slot.noConfusion)⟩

/-- What it finds while the tombstone is. -/
theorem dead_answers (hdead : e.pre.1.slot k = .dead t) :
    e.pre.1.tombstones.get? k = some t ∧ Expired e k ∧ ∀ r', ¬ StoresRecord e k r' := by
  have htomb := slot_dead.mp hdead
  rw [heq]
  exact ⟨htomb, expired_of_dead (ledgerInv_reachable hr) htomb _,
    not_stores (by rw [hdead]; exact Slot.noConfusion)⟩

end Answers

/-- A forgotten key can be completed again. -/
theorem absent_stores (hr : ledgerMachine.Reachable (ledgerInit config) s) {c : Completion}
    {d : SHA256} (habs : s.1.slot c.key = .absent) (hkey : c.key.validate = .ok ())
    (hd : c.request.digest = .ok d) (hval : c.validateForInsert = .ok ())
    (hroom : s.1.records.len + s.1.tombstones.len < config.maxOperations) :
    StoresRecord (ledgerMachine.event s (.complete c)) c.key (c.record d) := by
  obtain ⟨hnotomb, hnorec⟩ := slot_absent.mp habs
  have hcap : s.1.maxOperations = config.maxOperations :=
    congrArg LedgerConfig.maxOperations (ledgerInv_reachable hr).built
  have hexec := exec_complete_absent s.2 ⟨hkey, hnotomb, hd, hnorec, hval, hcap ▸ hroom⟩
  refine ⟨⟨c, none, rfl, rfl⟩, ?_⟩
  show (Op.exec (Ledger.completeWith c none) s).1.map _ = _
  rw [hexec, cloneRecord_record]
  rfl

/-- What fits on the way in fits as long as it is held. -/
theorem slot_fits (k : OperationKey) (s : LedgerState) (call : LedgerCall)
    (hr : ledgerMachine.Reachable (ledgerInit config) s)
    (hx : ¬ ¬ (ledgerMachine.event s call).input.Fits config) (hs : (s.1.slot k).Fits config) :
    ((ledgerMachine.step s call).2.1.slot k).Fits config := by
  have hcall : call.Fits config := not_not.mp hx
  rcases slot_step (steps s call) (ledgerInv_reachable hr) k with
    hsame | ⟨-, c, answer, d, hsub, hlive⟩ | ⟨cutoff, rfl, -, hgc⟩
  · exact hsame ▸ hs
  · refine hlive ▸ ?_
    exact hcall.submits hsub
  · refine hgc ▸ ?_
    cases hslot : s.1.slot k with
    | absent => exact trivial
    | live r =>
      rw [hslot] at hs
      rw [Slot.collect]
      split_ifs
      · exact hs
      · exact hcall
      · exact trivial
    | dead t =>
      rw [hslot] at hs
      rw [Slot.collect]
      split_ifs
      · exact hs
      · exact trivial

theorem run_fits {calls : List LedgerCall} (hfits : ∀ call ∈ calls, call.Fits config)
    {e : LedgerEvent} (he : e ∈ ledgerMachine.events (ledgerInit config) calls)
    (k : OperationKey) : e.input.Fits config ∧ (e.pre.1.slot k).Fits config := by
  obtain ⟨is₁, is₂, rfl, hpre, -⟩ := Machine.mem_events he
  refine ⟨hfits _ (List.mem_append_right _ List.mem_cons_self), ?_⟩
  have hinit : ((ledgerInit config).1.slot k).Fits config := trivial
  rw [hpre]
  refine Machine.run_keeps (P := fun s : LedgerState => (s.1.slot k).Fits config)
    (X := fun e => ¬ e.input.Fits config) (slot_fits k) .init hinit is₁ fun x hx => not_not.mpr ?_
  obtain ⟨js₁, js₂, rfl, -⟩ := Machine.mem_events hx
  exact hfits _ (by simp)

end

/--
**Retention windows.** Take any history of calls whose times, with the retention that is counted
from them, stay within what a time can hold, and an event that stores a record of `k` completed at
`T`.

* Up to and including the first collection that reaches `T + operationTTL`, every call for `k` is
  answered from the record.
* Let that collection have cutoff `C₁`. After it, up to and including the first later collection
  that reaches `C₁ + tombstoneTTL`, every call for `k` is answered `operation_expired`, and nothing
  is stored for it.
* That later collection forgets `k`, and the next valid completion of `k` that finds room is
  applied.

And one collection moves a key by at most one of these two steps, and only a key that has reached
its boundary. In any history at all, a collection makes both steps at once exactly if its cutoff
is so late that adding the retention of tombstones does not lead past it.
-/
theorem ledger_retention (config : LedgerConfig) (hpos : (0 : Int) < config.tombstoneTTL)
    (calls : List LedgerCall) :
    let history := ledgerMachine.events (ledgerInit config) calls
    ((∀ call ∈ calls, call.Fits config) →
    (∀ before e₁ rest, history = before ++ e₁ :: rest → ∀ k r, StoresRecord e₁ k r →
      let expiry := r.completedAt.instant + config.operationTTL
      (∀ middle e after, rest = middle ++ e :: after → (∀ x ∈ middle, ¬ Reaches expiry x) →
        e.pre.1.records.get? k = some r ∧ Replays e k r ∧ ∀ r', ¬ StoresRecord e k r') ∧
      (∀ middle g after cutoff, rest = middle ++ g :: after → (∀ x ∈ middle, ¬ Reaches expiry x) →
        g.input = .gc cutoff → validateUTC "cutoff" cutoff = .ok () → expiry ≤ cutoff.instant →
        let oblivion := cutoff.instant + config.tombstoneTTL
        g.post.1.records.get? k = none ∧
        g.post.1.tombstones.get? k = some ⟨k, r.digest, cutoff⟩ ∧
        ∀ middle' e after', after = middle' ++ e :: after' → (∀ x ∈ middle', ¬ Reaches oblivion x) →
          (e.pre.1.tombstones.get? k = some ⟨k, r.digest, cutoff⟩ ∧ Expired e k ∧
            ∀ r', ¬ StoresRecord e k r') ∧
          (Reaches oblivion e → e.post.1.tombstones.get? k = none ∧
            e.post.1.records.get? k = none ∧
            ∀ c d, c.key = k → c.key.validate = .ok () → c.request.digest = .ok d →
              c.validateForInsert = .ok () →
              e.post.1.records.len + e.post.1.tombstones.len < config.maxOperations →
              StoresRecord (ledgerMachine.event e.post (.complete c)) k (c.record d)))) ∧
    (∀ e ∈ history, ∀ cutoff, e.input = .gc cutoff → ∀ k,
      (∀ r, e.pre.1.records.get? k = some r →
        e.post.1.records.get? k = some r ∨
          (r.completedAt.instant + config.operationTTL ≤ cutoff.instant ∧
            e.post.1.tombstones.get? k = some ⟨k, r.digest, cutoff⟩)) ∧
      (∀ t, e.pre.1.tombstones.get? k = some t →
        e.post.1.tombstones.get? k = some t ∨
          t.tombstonedAt.instant + config.tombstoneTTL ≤ cutoff.instant) ∧
      (e.pre.1.slot k = .absent → e.post.1.slot k = .absent))) ∧
    (∀ e ∈ history, ∀ cutoff, e.input = .gc cutoff → validateUTC "cutoff" cutoff = .ok () →
      ∀ k r, e.pre.1.records.get? k = some r →
        (r.completedAt.add config.operationTTL).instant ≤ cutoff.instant →
        (e.post.1.slot k = .absent ↔
          (cutoff.add config.tombstoneTTL).instant ≤ cutoff.instant)) := by
  intro history
  refine ⟨fun hfits => ⟨?_, ?_⟩, ?_⟩
  · intro before e₁ rest hsplit k r hst expiry
    have hmem₁ : e₁ ∈ history := hsplit ▸ List.mem_append_right _ List.mem_cons_self
    obtain ⟨is₁, i₁, is₂, -, -, he₁, hrest⟩ := Machine.events_split hsplit
    have hr₁ := (Machine.Reachable.init.run is₁).post he₁
    have hlive₁ : e₁.post.1.slot k = .live r := by
      rw [he₁] at hst ⊢
      exact stores_post hst
    have hexpiry : (Slot.live r).due config = expiry := by
      have hfit := (run_fits hfits hmem₁ k).1
      rw [he₁] at hst hfit
      obtain ⟨c, answer, d, hsub, -, -, rfl, -⟩ := stores_spec hst
      exact Time.add_instant (hfit.submits hsub)
    refine ⟨?_, ?_⟩
    · intro middle e after hcut hmid
      rw [← hexpiry] at hmid
      obtain ⟨hre, heq, hlive, -⟩ :=
        slot_until Slot.noConfusion hr₁ hlive₁ (hrest.symm.trans hcut) hmid
      exact live_answers hre heq hlive
    · intro middle g after cutoff hcut hmid hgc hv hdue oblivion
      rw [← hexpiry] at hmid hdue
      obtain ⟨hrg, hgeq, hlive, later, hlater⟩ :=
        slot_until Slot.noConfusion hr₁ hlive₁ (hrest.symm.trans hcut) hmid
      have hoblivion : (cutoff.add config.tombstoneTTL).instant = oblivion := by
        have hmem : g ∈ history := by
          rw [hsplit, hcut]
          simp
        have hfit := (run_fits hfits hmem k).1
        rw [hgc] at hfit
        exact Time.add_instant hfit
      have hdead : g.post.1.slot k = .dead ⟨k, r.digest, cutoff⟩ := by
        rw [hgeq, hgc]
        exact gc_expires hrg hlive hv hdue (by omega)
      have hrg' := hrg.post hgeq
      have htomb := slot_dead.mp hdead
      refine ⟨?_, htomb, ?_⟩
      · exact ((ledgerInv_reachable hrg').disjoint k).resolve_left (by rw [htomb]; simp)
      intro middle' e after' hcut' hmid'
      rw [← hoblivion] at hmid'
      obtain ⟨hre, heq, hdead', -⟩ :=
        slot_until Slot.noConfusion hrg' hdead (hlater.trans hcut') hmid'
      refine ⟨dead_answers hre heq hdead', ?_⟩
      rintro ⟨cutoff', hgc', hv', hdue'⟩
      have habs : e.post.1.slot k = .absent := by
        rw [heq, hgc']
        exact gc_forgets hre hdead' hv' (hoblivion.trans_le hdue')
      obtain ⟨hnotomb, hnorec⟩ := slot_absent.mp habs
      refine ⟨hnotomb, hnorec, ?_⟩
      rintro c d rfl hkey hd hval hroom
      exact absent_stores (hre.post heq) habs hkey hd hval hroom
  · intro e he cutoff hgc k
    obtain ⟨hre, heq⟩ := Machine.event_reachable .init he
    obtain ⟨hcall, hslots⟩ := run_fits hfits he k
    rw [hgc] at hcall
    have hinv := ledgerInv_reachable hre
    have hinv' := ledgerInv_reachable (hre.post heq)
    have hslot : e.post.1.slot k = e.pre.1.slot k ∨
        e.post.1.slot k = (e.pre.1.slot k).collect config cutoff := by
      rw [heq, hgc]
      exact gc_slot_or hre cutoff k
    refine ⟨fun r hrec => ?_, fun t htomb => ?_, fun habs => ?_⟩
    · rw [hinv.slot_live.mpr hrec] at hslot hslots
      have hkept : (cutoff.add config.tombstoneTTL).after cutoff = true := by
        rw [Time.after_iff, Time.add_instant hcall]
        omega
      rw [Slot.collect, (hinv.records k r hrec).1, if_pos hkept] at hslot
      split_ifs at hslot with hafter
      · exact .inl (hinv'.slot_live.mp (or_self_iff.mp hslot))
      · rcases hslot with hslot | hslot
        · exact .inl (hinv'.slot_live.mp hslot)
        · rw [Time.after_iff, Time.add_instant hslots, not_lt] at hafter
          exact .inr ⟨hafter, slot_dead.mp hslot⟩
    · rw [slot_dead.mpr htomb] at hslot hslots
      rw [Slot.collect] at hslot
      split_ifs at hslot with hafter
      · exact .inl (slot_dead.mp (or_self_iff.mp hslot))
      · rw [Time.after_iff, Time.add_instant hslots, not_lt] at hafter
        exact .inr hafter
    · rw [habs, Slot.collect] at hslot
      exact or_self_iff.mp hslot
  · intro e he cutoff hgc hv k r hrec hdue
    obtain ⟨hre, heq⟩ := Machine.event_reachable .init he
    have hslot : e.post.1.slot k = (e.pre.1.slot k).collect config cutoff := by
      rw [heq, hgc]
      exact gc_slot hre hv k
    rw [hslot, (ledgerInv_reachable hre).slot_live.mpr hrec, Slot.collect,
      if_neg (by simpa using hdue)]
    split_ifs with hkept
    · simpa using hkept
    · simpa using hkept

/-- The last second there is, in UTC. -/
def lastTime : Time := ⟨Time.lastSecond * Duration.second, .utc⟩

/-- Collected at that time, a record is made a tombstone and forgotten in the same call, and the
key can be completed again at once. -/
theorem retention_skipped :
    let k := sampleCompletion.key
    let first := ledgerMachine.event (ledgerInit defaultLedgerConfig) (.complete sampleCompletion)
    let second := ledgerMachine.event first.post (.gc lastTime)
    let third := ledgerMachine.event second.post (.complete sampleCompletion)
    validateUTC "cutoff" lastTime = .ok () ∧
      StoresRecord first k (sampleCompletion.record sampleDigest) ∧
      second.output = .ok (.collected ⟨1, 1⟩) ∧ second.post.1.slot k = .absent ∧
      StoresRecord third k (sampleCompletion.record sampleDigest) :=
  ⟨rfl, ⟨⟨sampleCompletion, none, rfl, rfl⟩, rfl⟩, rfl, rfl, ⟨sampleCompletion, none, rfl, rfl⟩, rfl⟩

/-- A record completed at instant 1 survives a collection just before the boundary; the next one
expires it, and going back in time afterwards does not bring it back. -/
theorem ledger_retention_sample :
    let k := sampleCompletion.key
    let day : Int := defaultLedgerConfig.operationTTL
    let history := ledgerMachine.events (ledgerInit defaultLedgerConfig)
      [.complete sampleCompletion, .gc ⟨day, .utc⟩, .gc ⟨day + 1, .utc⟩, .gc ⟨5, .utc⟩, .lookup k]
    (0 : Int) < defaultLedgerConfig.tombstoneTTL ∧
      (∃ e₁ e₂ e₃, history[0]? = some e₁ ∧ StoresRecord e₁ k (sampleCompletion.record sampleDigest) ∧
        history[2]? = some e₂ ∧ e₂.pre.1.records.get? k = some (sampleCompletion.record sampleDigest) ∧
        history[4]? = some e₃ ∧ Expired e₃ k) := by
  intro k day history
  have hstore : StoresRecord (ledgerMachine.event (ledgerInit defaultLedgerConfig)
      (.complete sampleCompletion)) k (sampleCompletion.record sampleDigest) :=
    ⟨⟨sampleCompletion, none, rfl, rfl⟩, rfl⟩
  have h := ((ledger_retention defaultLedgerConfig (by decide)
    [.complete sampleCompletion, .gc ⟨day, .utc⟩, .gc ⟨day + 1, .utc⟩, .gc ⟨5, .utc⟩, .lookup k]).1
    (by
      simp only [List.forall_mem_cons, LedgerCall.Fits, Time.Fits, List.not_mem_nil,
        false_imp_iff, implies_true, and_true]
      decide)).1 [] _ _ rfl k _ hstore
  have hearly : ∀ {s : LedgerState}, ¬ Reaches
      ((sampleCompletion.record sampleDigest).completedAt.instant +
        defaultLedgerConfig.operationTTL) (ledgerMachine.event s (.gc ⟨day, .utc⟩)) := by
    rintro s ⟨cutoff, hin, -, hle⟩
    have hin' : LedgerCall.gc ⟨day, .utc⟩ = .gc cutoff := hin
    obtain rfl := LedgerCall.gc.inj hin'
    exact absurd hle (by decide)
  refine ⟨by decide, _, _, _, rfl, hstore, rfl, (h.1 [_] _ _ rfl ?_).1, rfl,
    ((h.2 [_] _ _ ⟨day + 1, .utc⟩ rfl ?_ rfl rfl ?_).2.2 [_] _ _ rfl ?_).1.2.1⟩
  · simpa using hearly
  · simpa using hearly
  · decide
  · intro x hx
    rw [List.mem_singleton] at hx
    subst hx
    rintro ⟨cutoff, hin, -, hle⟩
    obtain rfl := LedgerCall.gc.inj hin
    exact absurd hle (by decide)

end MiniCloud.ControlPlane
