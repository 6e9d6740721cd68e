import MiniCloud.GatewayDiscovery.Store
import MiniCloud.Proof.Snapshot

/-!
# What a call of the store can do

`step_acts` lists everything a call can do, with the tests an installed event has passed. Four
things happen to the functions: a Full event replaces them, an incremental event replaces one, a
suppression marks an endpoint of one, and everything else leaves them alone. `contents`,
which snapshot a list of snapshots has for a Function, is the common language of the modules that
follow. `lookup_ok` and `lookupAll_ok` say when the store serves.
-/

namespace MiniCloud.GatewayDiscovery

open Lib Problem Digest ServingAuth Discovery

variable {now : Duration} {snapshot : Snapshot} {event normalized : Event} {fingerprint : SHA256}
  {s : Store}

/-! ## Normalized events -/

/-- The snapshot an event has for a Function. -/
def contents (snapshots : List Snapshot) (functionID : GoString) : Option Snapshot :=
  snapshots.find? fun snapshot => snapshot.functionID = functionID

theorem contents_eq_some {snapshots : List Snapshot} (hnd : (snapshots.map (·.functionID)).Nodup)
    {functionID : GoString} :
    contents snapshots functionID = some snapshot ↔
      snapshot ∈ snapshots ∧ snapshot.functionID = functionID := by
  induction snapshots with
  | nil => simp [contents]
  | cons first rest ih =>
    rw [List.map_cons, List.nodup_cons] at hnd
    rw [contents, List.find?_cons]
    by_cases hid : first.functionID = functionID
    · simp only [hid, decide_true, Option.some.injEq, List.mem_cons]
      constructor
      · rintro rfl
        exact ⟨.inl rfl, hid⟩
      · rintro ⟨rfl | hmem, hs⟩
        · rfl
        · exact absurd (by rw [hid, ← hs]; exact List.mem_map_of_mem hmem) hnd.1
    · simp only [hid, decide_false, List.mem_cons]
      rw [show List.find? _ rest = contents rest functionID from rfl, ih hnd.2]
      constructor
      · rintro ⟨hmem, hs⟩
        exact ⟨.inr hmem, hs⟩
      · rintro ⟨rfl | hmem, hs⟩
        · exact absurd hs hid
        · exact ⟨hmem, hs⟩

/-- The order of an event's snapshots does not matter. -/
theorem contents_perm {l l' : List Snapshot} (hp : l.Perm l')
    (hnd : (l.map (·.functionID)).Nodup) : contents l = contents l' := by
  funext functionID
  ext snapshot
  rw [contents_eq_some hnd, contents_eq_some ((hp.map _).nodup_iff.mp hnd), hp.mem_iff]

/-- What `normalizeEvent` accepts, and what it returns. -/
structure Normalized (event normalized : Event) (fingerprint : SHA256) (maxFunctions : Int) :
    Prop where
  full : normalized.full = event.full
  epoch : normalized.discoveryEpoch = event.discoveryEpoch
  sequence : normalized.servingSequence = event.servingSequence
  perm : normalized.snapshots.Perm event.snapshots
  distinct : (event.snapshots.map (·.functionID)).Nodup
  valid : ∀ snapshot ∈ event.snapshots, snapshot.validate = .ok () ∧
    snapshot.discoveryEpoch = event.discoveryEpoch ∧
    snapshot.servingSequence = event.servingSequence
  single : event.full = false → ∃ snapshot, event.snapshots = [snapshot]
  epoch_pos : event.discoveryEpoch ≠ 0
  sequence_pos : event.servingSequence ≠ 0
  bounded : (event.snapshots.length : Int) ≤ maxFunctions
  fingerprinted : eventFingerprint normalized = .ok fingerprint

theorem normalizeEvent_ok {maxFunctions : Int}
    (h : normalizeEvent event maxFunctions = .ok (normalized, fingerprint)) :
    Normalized event normalized fingerprint maxFunctions := by
  obtain ⟨u, hhead, h⟩ := bind_ok.mp h
  obtain ⟨v, heach, h⟩ := bind_ok.mp h
  obtain ⟨fp, hfp, h⟩ := bind_ok.mp h
  cases h
  obtain ⟨hitems, -, hdistinct⟩ := checkEach_ok.mp heach
  have hhead := checks_ok.mp hhead
  simp only [List.forall_mem_cons, mustNot_fails, Bool.or_eq_false_iff, beq_eq_false_iff_ne,
    decide_eq_false_iff_not, Int.not_lt, Bool.and_eq_false_iff, Bool.not_eq_false',
    bne_eq_false_iff_eq] at hhead
  obtain ⟨⟨hepoch, hsequence⟩, hbound, hsingle, -⟩ := hhead
  refine ⟨rfl, rfl, rfl, sortFunc_perm _ _, hdistinct, ?_, ?_, hepoch, hsequence, hbound, hfp⟩
  · intro snapshot hmem
    obtain ⟨hpos, hvalid⟩ := seq_ok.mp (hitems snapshot hmem)
    simp only [checks_ok, List.mem_singleton, forall_eq, mustNot_fails, Bool.or_eq_false_iff,
      bne_eq_false_iff_eq] at hpos
    exact ⟨hvalid, hpos⟩
  · intro hincremental
    rcases hsingle with hfull | hlen
    · cases hfull.symm.trans hincremental
    · exact List.length_eq_one_iff.mp hlen

theorem eventFingerprint_exists (event : Event) : ∃ fingerprint,
    eventFingerprint event = .ok fingerprint := by
  have hitems : ∀ snapshot : Snapshot, (Json.obj [
      ("function_id", .ofGoString snapshot.functionID),
      ("checksum", .ofGoString snapshot.checksum)] : Json Json.Num).Accepted :=
    fun snapshot => Json.accepted_record rfl (by simp)
  have haccepted : event.canonical.Accepted :=
    Json.accepted_record rfl (by simp [-Json.accepted_obj, hitems])
  have hdomain : eventDomain ≠ [] := by decide
  have hversion : eventVersion ≠ [] := by decide
  obtain ⟨d, hd, -⟩ := canonicalJSON_exists hdomain hversion haccepted
  exact ⟨d, hd⟩

/-- An event with these properties is accepted. -/
theorem normalizeEvent_exists {maxFunctions : Int}
    (hdistinct : (event.snapshots.map (·.functionID)).Nodup)
    (hvalid : ∀ snapshot ∈ event.snapshots, snapshot.validate = .ok () ∧
      snapshot.discoveryEpoch = event.discoveryEpoch ∧
      snapshot.servingSequence = event.servingSequence)
    (hsingle : event.full = false → event.snapshots.length = 1)
    (hepoch : event.discoveryEpoch ≠ 0) (hsequence : event.servingSequence ≠ 0)
    (hbounded : (event.snapshots.length : Int) ≤ maxFunctions) :
    ∃ fingerprint, normalizeEvent event maxFunctions = .ok ({ event with
      snapshots := sortFunc (compareOn Snapshot.functionID) event.snapshots }, fingerprint) := by
  obtain ⟨fingerprint, hfp⟩ := eventFingerprint_exists
    { event with snapshots := sortFunc (compareOn Snapshot.functionID) event.snapshots }
  refine ⟨fingerprint, bind_ok.mpr ⟨(), ?_, bind_ok.mpr ⟨(), ?_, bind_ok.mpr ⟨_, hfp, rfl⟩⟩⟩⟩
  · rw [checks_ok]
    simp only [List.forall_mem_cons, mustNot_fails, Bool.or_eq_false_iff, beq_eq_false_iff_ne,
      decide_eq_false_iff_not, Int.not_lt, Bool.and_eq_false_iff, Bool.not_eq_false',
      bne_eq_false_iff_eq]
    refine ⟨⟨hepoch, hsequence⟩, hbounded, ?_, List.forall_mem_nil _⟩
    cases hfull : event.full with
    | true => exact .inl rfl
    | false => exact .inr (hsingle hfull)
  · refine checkEach_ok.mpr ⟨fun snapshot hmem => ?_, by simp, hdistinct⟩
    obtain ⟨hok, hpos⟩ := hvalid snapshot hmem
    refine seq_ok.mpr ⟨?_, hok⟩
    simp only [checks_ok, List.mem_singleton, forall_eq, mustNot_fails, Bool.or_eq_false_iff,
      bne_eq_false_iff_eq]
    exact hpos

namespace Normalized

variable {maxFunctions : Int}

section

variable (h : Normalized event normalized fingerprint maxFunctions)
include h

theorem contents_eq :
    contents normalized.snapshots = contents event.snapshots :=
  contents_perm h.perm ((h.perm.map _).nodup_iff.mpr h.distinct)

theorem mem_iff :
    snapshot ∈ normalized.snapshots ↔ snapshot ∈ event.snapshots := h.perm.mem_iff

/-- An incremental event has one snapshot before and after. -/
theorem single_eq (hincremental : event.full = false)
    (hhead : normalized.snapshots.head? = some snapshot) :
    event.snapshots = [snapshot] := by
  obtain ⟨only, honly⟩ := h.single hincremental
  have hperm := h.perm
  rw [honly] at hperm ⊢
  rw [List.perm_singleton.mp hperm] at hhead
  cases hhead
  rfl

theorem samePosition_eq (position : EventPosition) :
    samePosition normalized position = samePosition event position := by
  rw [samePosition, samePosition, h.epoch, h.sequence]

end

end Normalized

/-! ## The tests of an installed event -/

/-- A Full event that passes every test of `Apply`. -/
structure Replaces (s : Store) (event normalized : Event) (fingerprint : SHA256) (now : Duration) :
    Prop where
  normal : Normalized event normalized fingerprint s.maxFunctions
  full : event.full = true
  healthy : s.clockHealthy = true
  fresh : samePosition event s.position = false
  epoch : s.position.epoch ≤ event.discoveryEpoch
  sequence : event.discoveryEpoch = s.position.epoch → s.position.sequence < event.servingSequence
  revisions : ∀ snapshot ∈ event.snapshots, s.checkRevisions snapshot = .ok ()
  reading : (s.toClockGuard.read s.clock).1 = some now

/-- An incremental event that passes every test of `Apply`. -/
structure Advances (s : Store) (event normalized : Event) (snapshot : Snapshot)
    (fingerprint : SHA256) (now : Duration) : Prop where
  normal : Normalized event normalized fingerprint s.maxFunctions
  incremental : event.full = false
  healthy : s.clockHealthy = true
  synced : s.fullSynced = true
  current : s.needsFullSync = false
  fresh : samePosition event s.position = false
  epoch : event.discoveryEpoch = s.position.epoch
  sequence : event.servingSequence.toNat = s.position.sequence.toNat + 1
  only : event.snapshots = [snapshot]
  revisions : s.checkRevisions snapshot = .ok ()
  capacity : s.checkCapacity snapshot = .ok ()
  reading : (s.toClockGuard.read s.clock).1 = some now

/-- An incremental event beyond the next position. -/
def Ahead (s : Store) (event : Event) : Prop :=
  event.full = false ∧ (s.position.epoch < event.discoveryEpoch ∨
    (event.discoveryEpoch = s.position.epoch ∧
      s.position.sequence.toNat + 1 < event.servingSequence.toNat))

section

variable {s : Store} {event : Event}

theorem Ahead.gap (h : Ahead s event) (hepoch : event.discoveryEpoch = s.position.epoch) :
    s.position.sequence.toNat + 1 < event.servingSequence.toNat := by
  rcases h.2 with hhigher | ⟨-, hgap⟩
  · rw [hepoch] at hhigher
    exact absurd hhigher (UInt64.lt_irrefl _)
  · exact hgap

theorem Ahead.not_same (h : Ahead s event) : samePosition event s.position ≠ true := by
  intro hsame
  simp only [samePosition, Bool.and_eq_true, beq_iff_eq] at hsame
  have hgap := h.gap hsame.1
  rw [hsame.2] at hgap
  omega

end

/-- The event passes `normalizeEvent`. -/
def WellFormed (s : Store) (event : Event) : Prop :=
  ∃ normalized fingerprint, normalizeEvent event s.maxFunctions = .ok (normalized, fingerprint)

/-- A call that does not install, suppress, look up or set anything. -/
def Idle : Call → Answer → Prop
  | .apply _, _ => False
  | .setWatchConnected _, _ => False
  | .lookup _, answer => ∃ e, answer = .view (.error e)
  | .lookupAll, _ => False
  | .suppressEndpoint _ _, answer => answer ≠ .done (.ok ())
  | .status, _ => True

/-- What a call can do. -/
inductive Acts (s : Store) : Call → Answer → Store → Prop where
  | idle {call : Call} {answer : Answer} (h : Idle call answer) : Acts s call answer s
  /-- Refused without a trace; an event that is ahead finds the store closed already. -/
  | refused {event : Event} {e : GoError}
      (h : WellFormed s event → Ahead s event →
        s.clockHealthy = false ∨ s.fullSynced = false ∨ s.needsFullSync = true) :
      Acts s (.apply event) (.done (.error e)) s
  /-- The event is recognised by its fingerprint as the one installed last. -/
  | repeated {event normalized : Event} {fingerprint : SHA256}
      (hnormal : Normalized event normalized fingerprint s.maxFunctions)
      (hhealthy : s.clockHealthy = true) (hsame : samePosition event s.position = true)
      (hprint : fingerprint = s.position.fingerprint) : Acts s (.apply event) (.done (.ok ())) s
  | latched {event : Event} {e : GoError} (hwf : WellFormed s event) (hahead : Ahead s event) :
      Acts s (.apply event) (.done (.error e)) { s with needsFullSync := true }
  | stopped {event : Event} {e : GoError} (hclock : (s.toClockGuard.read s.clock).1 = none) :
      Acts s (.apply event) (.done (.error e)) s.ticked
  | replaced {event normalized : Event} {fingerprint : SHA256} {now : Duration}
      (h : Replaces s event normalized fingerprint now) :
      Acts s (.apply event) (.done (.ok ())) (s.ticked.replaced normalized fingerprint now)
  | advanced {event normalized : Event} {snapshot : Snapshot} {fingerprint : SHA256}
      {now : Duration} (h : Advances s event normalized snapshot fingerprint now) :
      Acts s (.apply event) (.done (.ok ()))
        (s.ticked.advanced normalized snapshot fingerprint now)
  | watched {connected : Bool} :
      Acts s (.setWatchConnected connected) (.done (.ok ()))
        { s with watchConnected := connected }
  | looked {call : Call} {answer : Answer} (h : (∃ id, call = .lookup id) ∨ call = .lookupAll) :
      Acts s call answer s.ticked
  | suppressed {functionID : GoString} {assignment : AssignmentIdentity} {record : FunctionRecord}
      (hheld : s.functions.get? functionID = some record)
      (hmem : ∃ endpoint ∈ record.snapshot.endpointList, endpoint.assignment = assignment) :
      Acts s (.suppressEndpoint functionID assignment) (.done (.ok ()))
        { s with
          functions := s.functions.set functionID
            { record with suppressed := record.suppressed.set assignment.assignmentID assignment } }

/-! ## Each method -/

theorem exec_elapsedLocked_bind {α : Type} (f : Duration → Op GoError Store α) (s : Store) :
    Op.exec (Store.elapsedLocked >>= f) s =
      match (s.toClockGuard.read s.clock).1 with
      | some now => Op.exec (f now) s.ticked
      | none =>
        (.error (classified .controlPlaneStale "gateway monotonic clock is unhealthy"), s.ticked) := by
  rw [Store.elapsedLocked, Op.exec_bind, Op.exec_get_bind, Op.exec_set_bind]
  cases (s.toClockGuard.read s.clock).1 <;> rfl

theorem ticked_of_some (h : (s.toClockGuard.read s.clock).1 = some now) :
    s.ticked = { s with toClockGuard := (s.toClockGuard.read s.clock).2 } := by
  unfold Store.ticked
  split
  · rename_i heq
    rw [heq]
  · rename_i heq
    rw [heq] at h
    cases h

theorem ticked_of_none (h : (s.toClockGuard.read s.clock).1 = none) :
    s.ticked = { s with
      toClockGuard := (s.toClockGuard.read s.clock).2
      needsFullSync := true } := by
  unfold Store.ticked
  split
  · rename_i heq
    rw [heq] at h
    cases h
  · rename_i heq
    rw [heq]

section Ticked

variable (s : Store)

@[simp] theorem ticked_guard : s.ticked.toClockGuard = (s.toClockGuard.read s.clock).2 := by
  cases h : (s.toClockGuard.read s.clock).1 with
  | some now => rw [ticked_of_some h]
  | none => rw [ticked_of_none h]

/-- Reading the clock touches neither the functions, the position nor the configuration. -/
theorem ticked_frame : s.ticked.functions = s.functions ∧ s.ticked.position = s.position ∧
    s.ticked.clock = s.clock ∧ s.ticked.maxStale = s.maxStale ∧
    s.ticked.maxFunctions = s.maxFunctions ∧ s.ticked.fullSynced = s.fullSynced ∧
    s.ticked.watchConnected = s.watchConnected := by
  unfold Store.ticked
  split <;> exact ⟨rfl, rfl, rfl, rfl, rfl, rfl, rfl⟩

@[simp] theorem ticked_functions : s.ticked.functions = s.functions := (ticked_frame s).1

@[simp] theorem ticked_position : s.ticked.position = s.position := (ticked_frame s).2.1

@[simp] theorem ticked_fullSynced : s.ticked.fullSynced = s.fullSynced :=
  (ticked_frame s).2.2.2.2.2.1

end Ticked

theorem acts_applyFull (hnormal : Normalized event normalized fingerprint s.maxFunctions)
    (hfull : event.full = true) (hhealthy : s.clockHealthy = true)
    (hepoch : s.position.epoch ≤ event.discoveryEpoch)
    (hfresh : samePosition event s.position = false) :
    Acts s (.apply event)
      (.done (Op.exec (Store.applyFullLocked normalized fingerprint) s).1)
      (Op.exec (Store.applyFullLocked normalized fingerprint) s).2 := by
  have hnotAhead : ¬ Ahead s event := fun h => by rw [h.1] at hfull; cases hfull
  simp only [Store.applyFullLocked, Op.exec_get_bind, Op.exec_failIf_bind, Op.exec_ofExcept_bind,
    hnormal.epoch, hnormal.sequence]
  split_ifs with hregress
  · exact .refused fun _ h => absurd h hnotAhead
  · cases hrev : checkAll s.checkRevisions normalized.snapshots with
    | error e => exact .refused fun _ h => absurd h hnotAhead
    | ok u =>
      rw [exec_elapsedLocked_bind]
      cases hnow : (s.toClockGuard.read s.clock).1 with
      | none => exact .stopped hnow
      | some now =>
        have hsequence : event.discoveryEpoch = s.position.epoch →
            s.position.sequence < event.servingSequence := by
          intro heq
          simp only [heq, beq_self_eq_true, Bool.true_and, decide_eq_true_eq] at hregress
          refine UInt64.lt_of_le_of_ne (UInt64.not_lt.mp hregress) fun hseq => ?_
          simp [samePosition, heq, hseq] at hfresh
        exact .replaced ⟨hnormal, hfull, hhealthy, hfresh, hepoch, hsequence,
          fun snapshot hmem => checkAll_ok.mp hrev snapshot (hnormal.mem_iff.mpr hmem), hnow⟩

/-- The next sequence, compared as the source compares it. -/
theorem sequence_next {current next : UInt64} (hlt : current < next) :
    (current = 18446744073709551615 ∨ next ≠ current + 1) ↔ current.toNat + 1 < next.toNat := by
  have hnat : current.toNat < next.toNat := UInt64.lt_iff_toNat_lt.mp hlt
  have hbound : next.toNat < 2 ^ 64 := next.toNat_lt
  have hadd : (current + 1).toNat = current.toNat + 1 := by
    rw [UInt64.toNat_add]
    exact Nat.mod_eq_of_lt (by simp; omega)
  constructor
  · rintro (rfl | hne)
    · simp at hnat
      omega
    · have : next.toNat ≠ current.toNat + 1 := fun heq =>
        hne (UInt64.toNat_inj.mp (heq.trans hadd.symm))
      omega
  · intro hgap
    right
    intro heq
    rw [heq, hadd] at hgap
    omega

theorem acts_applyIncremental
    (hnormalize : normalizeEvent event s.maxFunctions = .ok (normalized, fingerprint))
    (hincremental : event.full = false) (hhealthy : s.clockHealthy = true)
    (hepoch : s.position.epoch ≤ event.discoveryEpoch)
    (hfresh : samePosition event s.position = false) :
    Acts s (.apply event)
      (.done (Op.exec (Store.applyIncrementalLocked normalized fingerprint) s).1)
      (Op.exec (Store.applyIncrementalLocked normalized fingerprint) s).2 := by
  have hnormal := normalizeEvent_ok hnormalize
  have hwf : WellFormed s event := ⟨_, _, hnormalize⟩
  rw [Store.applyIncrementalLocked, Op.exec_get_bind, Op.exec_failIf_bind, hnormal.epoch,
    hnormal.sequence]
  by_cases hsync : (!s.fullSynced || s.needsFullSync) = true
  · rw [if_pos hsync]
    simp only [Bool.or_eq_true, Bool.not_eq_true'] at hsync
    exact .refused fun _ _ => .inr hsync
  rw [if_neg hsync]
  by_cases hhigher : s.position.epoch < event.discoveryEpoch
  · rw [if_pos hhigher]
    exact .latched hwf ⟨hincremental, .inl hhigher⟩
  rw [if_neg hhigher, Op.exec_failIf_bind]
  have hsame : event.discoveryEpoch = s.position.epoch :=
    UInt64.le_antisymm (UInt64.not_lt.mp hhigher) hepoch
  by_cases hregress : event.servingSequence ≤ s.position.sequence
  · rw [if_pos (decide_eq_true hregress)]
    refine .refused fun _ hahead => ?_
    have hgap := hahead.gap hsame
    have hle := UInt64.le_iff_toNat_le.mp hregress
    omega
  have hlt : s.position.sequence < event.servingSequence := UInt64.not_le.mp hregress
  rw [if_neg (by simpa using hlt)]
  by_cases hgap : s.position.sequence = 18446744073709551615 ∨
      event.servingSequence ≠ s.position.sequence + 1
  · rw [if_pos hgap]
    exact .latched hwf ⟨hincremental, .inr ⟨hsame, (sequence_next hlt).mp hgap⟩⟩
  rw [if_neg hgap, Op.exec_orFail_bind]
  -- the event is the next one: what is left are the tests of its snapshot and the clock
  have hnotAhead : ¬ Ahead s event := fun h => hgap ((sequence_next hlt).mpr (h.gap hsame))
  have hnext : event.servingSequence.toNat = s.position.sequence.toNat + 1 := by
    have h₁ := UInt64.lt_iff_toNat_lt.mp hlt
    have h₂ := mt (sequence_next hlt).mpr hgap
    omega
  cases hhead : normalized.snapshots.head? with
  | none => exact .refused fun _ h => absurd h hnotAhead
  | some snapshot =>
    simp only [Op.exec_ofExcept_bind]
    cases hrev : s.checkRevisions snapshot with
    | error e => exact .refused fun _ h => absurd h hnotAhead
    | ok u =>
      cases hcap : s.checkCapacity snapshot with
      | error e => exact .refused fun _ h => absurd h hnotAhead
      | ok u =>
        simp only [exec_elapsedLocked_bind]
        cases hnow : (s.toClockGuard.read s.clock).1 with
        | none => exact .stopped hnow
        | some now =>
          simp only [Bool.or_eq_true, Bool.not_eq_true', not_or, Bool.not_eq_false,
            Bool.not_eq_true] at hsync
          exact .advanced ⟨hnormal, hincremental, hhealthy, hsync.1, hsync.2, hfresh, hsame,
            hnext, hnormal.single_eq hincremental hhead, hrev, hcap, hnow⟩

theorem acts_apply (s : Store) (event : Event) :
    Acts s (.apply event) (s.perform (Store.apply event) .done).1
      (s.perform (Store.apply event) .done).2 := by
  simp only [Store.perform, Store.apply, Op.exec_get_bind, Op.exec_ofExcept_bind]
  cases hnormalize : normalizeEvent event s.maxFunctions with
  | error e =>
    refine .refused fun ⟨_, _, hwf⟩ => ?_
    cases hnormalize.symm.trans hwf
  | ok result =>
    obtain ⟨normalized, fingerprint⟩ := result
    have hnormal := normalizeEvent_ok hnormalize
    simp only [Op.exec_failIf_bind, hnormal.epoch, hnormal.samePosition_eq, hnormal.full]
    split_ifs with hclock hstale hsame hfull
    · exact .refused fun _ _ => .inl (by simpa using hclock)
    · refine .refused fun _ hahead => ?_
      have hlt := of_decide_eq_true hstale
      rcases hahead.2 with h | ⟨h, -⟩
      · exact absurd (UInt64.lt_trans h hlt) (UInt64.lt_irrefl _)
      · rw [h] at hlt
        exact absurd hlt (UInt64.lt_irrefl _)
    · by_cases hprint : fingerprint = s.position.fingerprint
      · simp only [hprint, bne_self_eq_false, Op.failIf, Bool.false_eq_true, if_false]
        exact .repeated hnormal (by simpa using hclock) hsame hprint
      · have hne : (fingerprint != s.position.fingerprint) = true := by simpa using hprint
        simp only [hne, Op.failIf, if_true]
        exact .refused fun _ hahead => absurd hsame hahead.not_same
    · exact acts_applyFull hnormal hfull (by simpa using hclock)
        (UInt64.not_lt.mp (of_decide_eq_false (Bool.eq_false_iff.mpr hstale)))
        (Bool.eq_false_iff.mpr hsame)
    · exact acts_applyIncremental hnormalize (Bool.eq_false_iff.mpr hfull) (by simpa using hclock)
        (UInt64.not_lt.mp (of_decide_eq_false (Bool.eq_false_iff.mpr hstale)))
        (Bool.eq_false_iff.mpr hsame)

/-- A malformed event is refused before its position is looked at. -/
theorem apply_malformed {err : GoError} (h : normalizeEvent event s.maxFunctions = .error err) :
    Op.exec (Store.apply event) s = (.error err, s) := by
  simp only [Store.apply, Op.exec_get_bind, Op.exec_ofExcept_bind, h]

section

variable (hnormalize : normalizeEvent event s.maxFunctions = .ok (normalized, fingerprint))
include hnormalize

/-- The tests are complete: a Full event that passes them is installed. -/
theorem apply_replaces (h : Replaces s event normalized fingerprint now) :
    Op.exec (Store.apply event) s = (.ok (), s.ticked.replaced normalized fingerprint now) := by
  have hstale : ¬ event.discoveryEpoch < s.position.epoch := UInt64.not_lt.mpr h.epoch
  have hregress : ¬ (event.discoveryEpoch == s.position.epoch &&
      decide (event.servingSequence < s.position.sequence)) = true := by
    simp only [Bool.and_eq_true, beq_iff_eq, decide_eq_true_eq, not_and]
    intro heq hlt
    exact UInt64.lt_irrefl _ (UInt64.lt_trans hlt (h.sequence heq))
  have hrevisions : checkAll s.checkRevisions normalized.snapshots = .ok () :=
    checkAll_ok.mpr fun snapshot hmem => h.revisions snapshot (h.normal.mem_iff.mp hmem)
  simp only [Store.apply, Op.exec_get_bind, Op.exec_ofExcept_bind, hnormalize, Op.exec_failIf_bind,
    h.healthy, h.normal.epoch, hstale, h.normal.samePosition_eq, h.fresh, h.normal.full, h.full,
    decide_false, Bool.not_true, Bool.false_eq_true, if_false, if_true]
  simp only [Store.applyFullLocked, Op.exec_get_bind, Op.exec_failIf_bind, h.normal.epoch,
    h.normal.sequence, if_neg hregress, Op.exec_ofExcept_bind, hrevisions, exec_elapsedLocked_bind,
    h.reading, Op.exec_set]

/-- An event at the current position with the current fingerprint changes nothing. -/
theorem apply_repeated (hhealthy : s.clockHealthy = true)
    (hsame : samePosition event s.position = true) (hprint : fingerprint = s.position.fingerprint) :
    Op.exec (Store.apply event) s = (.ok (), s) := by
  have hnormal := normalizeEvent_ok hnormalize
  have hepoch : event.discoveryEpoch = s.position.epoch := by
    simp only [samePosition, Bool.and_eq_true, beq_iff_eq] at hsame
    exact hsame.1
  simp [Store.apply, hnormalize, hhealthy, hnormal.epoch, hepoch, UInt64.lt_irrefl,
    hnormal.samePosition_eq, hsame, hprint, Op.failIf]

/-- The tests are complete: an incremental event that passes them is installed. -/
theorem apply_advances (h : Advances s event normalized snapshot fingerprint now) :
    Op.exec (Store.apply event) s =
      (.ok (), s.ticked.advanced normalized snapshot fingerprint now) := by
  have hlt : s.position.sequence < event.servingSequence :=
    UInt64.lt_iff_toNat_lt.mpr (by rw [h.sequence]; omega)
  have hstale : ¬ event.discoveryEpoch < s.position.epoch := by
    rw [h.epoch]
    exact UInt64.lt_irrefl _
  have hhigher : ¬ s.position.epoch < event.discoveryEpoch := by
    rw [h.epoch]
    exact UInt64.lt_irrefl _
  have hgap : ¬ (s.position.sequence = 18446744073709551615 ∨
      event.servingSequence ≠ s.position.sequence + 1) := fun hg => by
    have := (sequence_next hlt).mp hg
    rw [h.sequence] at this
    omega
  have hhead : normalized.snapshots.head? = some snapshot := by
    have hperm := h.normal.perm
    rw [h.only] at hperm
    rw [List.perm_singleton.mp hperm]
    rfl
  simp only [Store.apply, Op.exec_get_bind, Op.exec_ofExcept_bind, hnormalize, Op.exec_failIf_bind,
    h.healthy, h.normal.epoch, hstale, h.normal.samePosition_eq, h.fresh, h.normal.full,
    h.incremental, decide_false, Bool.not_true, Bool.false_eq_true, if_false]
  simp only [Store.applyIncrementalLocked, Op.exec_get_bind, Op.exec_failIf_bind, h.synced,
    h.current, h.normal.epoch, h.normal.sequence, if_neg hhigher, UInt64.not_le.mpr hlt,
    if_neg hgap, Op.exec_orFail_bind, hhead, Op.exec_ofExcept_bind, h.revisions, h.capacity,
    exec_elapsedLocked_bind, h.reading, Op.exec_set, decide_false, Bool.not_true, Bool.or_self,
    Bool.false_eq_true, if_false]

end

/-- The clock is healthy at `now`, and the view is complete. -/
structure Opens (s : Store) (now : Duration) : Prop where
  reading : (s.toClockGuard.read s.clock).1 = some now
  synced : s.fullSynced = true
  current : s.needsFullSync = false

/-- What makes an event acceptable to any store of that limit. -/
structure Event.Acceptable (event : Event) (maxFunctions : Int) : Prop where
  distinct : (event.snapshots.map (·.functionID)).Nodup
  valid : ∀ snapshot ∈ event.snapshots, snapshot.validate = .ok () ∧
    snapshot.discoveryEpoch = event.discoveryEpoch ∧
    snapshot.servingSequence = event.servingSequence
  epoch_pos : event.discoveryEpoch ≠ 0
  sequence_pos : event.servingSequence ≠ 0
  bounded : (event.snapshots.length : Int) ≤ maxFunctions

/-- A later acceptable Full event without regressions is installed. -/
theorem apply_full (haccept : event.Acceptable s.maxFunctions) (hfull : event.full = true)
    (hhealthy : s.clockHealthy = true) (hnow : (s.toClockGuard.read s.clock).1 = some now)
    (hepoch : s.position.epoch ≤ event.discoveryEpoch)
    (hsequence : event.discoveryEpoch = s.position.epoch →
      s.position.sequence < event.servingSequence)
    (hrevisions : ∀ snapshot ∈ event.snapshots, s.checkRevisions snapshot = .ok ()) :
    let normalized := { event with
      snapshots := sortFunc (compareOn Snapshot.functionID) event.snapshots }
    ∃ fingerprint, normalizeEvent event s.maxFunctions = .ok (normalized, fingerprint) ∧
      Replaces s event normalized fingerprint now ∧
      Op.exec (Store.apply event) s = (.ok (), s.ticked.replaced normalized fingerprint now) := by
  obtain ⟨fingerprint, hnormalize⟩ := normalizeEvent_exists haccept.distinct haccept.valid
    (fun h => absurd h (by simp [hfull])) haccept.epoch_pos haccept.sequence_pos
    haccept.bounded
  have hfresh : samePosition event s.position = false := by
    refine Bool.eq_false_iff.mpr fun hsame => ?_
    simp only [samePosition, Bool.and_eq_true, beq_iff_eq] at hsame
    have hlt := hsequence hsame.1
    rw [hsame.2] at hlt
    exact UInt64.lt_irrefl _ hlt
  have hr : Replaces s event _ fingerprint now := ⟨normalizeEvent_ok hnormalize, hfull, hhealthy,
    hfresh, hepoch, hsequence, hrevisions, hnow⟩
  exact ⟨fingerprint, hnormalize, hr, apply_replaces hnormalize hr⟩

/-- The next acceptable incremental event is installed if it does not regress and has room. -/
theorem apply_incremental (haccept : event.Acceptable s.maxFunctions)
    (hincremental : event.full = false) (honly : event.snapshots = [snapshot])
    (hhealthy : s.clockHealthy = true) (hopen : Opens s now)
    (hepoch : event.discoveryEpoch = s.position.epoch)
    (hsequence : event.servingSequence.toNat = s.position.sequence.toNat + 1)
    (hrevisions : s.checkRevisions snapshot = .ok ())
    (hcapacity : s.checkCapacity snapshot = .ok ()) :
    ∃ normalized fingerprint, Advances s event normalized snapshot fingerprint now ∧
      Op.exec (Store.apply event) s =
        (.ok (), s.ticked.advanced normalized snapshot fingerprint now) := by
  obtain ⟨fingerprint, hnormalize⟩ := normalizeEvent_exists haccept.distinct haccept.valid
    (fun _ => by rw [honly]; rfl) haccept.epoch_pos haccept.sequence_pos
    haccept.bounded
  have hfresh : samePosition event s.position = false := by
    refine Bool.eq_false_iff.mpr fun hsame => ?_
    simp only [samePosition, Bool.and_eq_true, beq_iff_eq] at hsame
    rw [hsame.2] at hsequence
    omega
  have ha : Advances s event _ snapshot fingerprint now := ⟨normalizeEvent_ok hnormalize,
    hincremental, hhealthy, hopen.synced, hopen.current, hfresh, hepoch, hsequence, honly,
    hrevisions, hcapacity, hopen.reading⟩
  exact ⟨_, fingerprint, ha, apply_advances hnormalize ha⟩

theorem step_apply (s : Store) (event : Event) : storeMachine.step s (.apply event) =
    (.done (Op.exec (Store.apply event) s).1, (Op.exec (Store.apply event) s).2) := rfl

theorem step_suppressEndpoint (s : Store) (functionID : GoString)
    (assignment : AssignmentIdentity) :
    storeMachine.step s (.suppressEndpoint functionID assignment) =
      (.done (Op.exec (Store.suppressEndpoint functionID assignment) s).1,
        (Op.exec (Store.suppressEndpoint functionID assignment) s).2) := rfl

theorem lookup_exec (s : Store) (functionID : GoString) :
    (∃ e, Op.exec (Store.lookup functionID) s = (.error e, s)) ∨
      (Op.exec (Store.lookup functionID) s).2 = s.ticked := by
  simp only [Store.lookup, Op.exec_failIf_bind]
  split_ifs with hid
  · exact .inl ⟨_, rfl⟩
  · right
    rw [exec_elapsedLocked_bind]
    cases hnow : (s.toClockGuard.read s.clock).1 with
    | none => rfl
    | some now =>
      simp only [Op.exec_get_bind, Op.exec_failIf_bind, Op.exec_orFail_bind]
      split_ifs
      · rfl
      · cases s.ticked.functions.get? functionID with
        | none => rfl
        | some record =>
          simp only
          split_ifs <;> rfl

theorem Opens.ticked (h : Opens s now) :
    (!s.ticked.fullSynced || s.ticked.needsFullSync) = false := by
  rw [ticked_of_some h.reading, h.synced, h.current]
  rfl

theorem opens_of_ticked (hnow : (s.toClockGuard.read s.clock).1 = some now)
    (h : ¬ (!s.ticked.fullSynced || s.ticked.needsFullSync) = true) : Opens s now := by
  rw [ticked_of_some hnow, Bool.not_eq_true, Bool.or_eq_false_iff, Bool.not_eq_false'] at h
  exact ⟨hnow, h.1, h.2⟩

@[simp] theorem ticked_usableLocked (s : Store) (record : FunctionRecord) (now : Duration) :
    s.ticked.usableLocked record now = s.usableLocked record now := by
  obtain ⟨-, -, -, hstale, -, -, hwatch⟩ := ticked_frame s
  rw [Store.usableLocked, Store.usableLocked, hstale, hwatch]

/-- When a lookup succeeds, and what it returns. -/
theorem lookup_ok {functionID : GoString} {view : View} :
    (Op.exec (Store.lookup functionID) s).1 = .ok view ↔
      identifierPattern functionID = true ∧ ∃ record now, Opens s now ∧
        s.functions.get? functionID = some record ∧ s.usableLocked record now = true ∧
        view = visibleSnapshot record := by
  rw [Store.lookup, Op.exec_failIf_bind]
  cases hid : identifierPattern functionID with
  | false => simp
  | true =>
    simp only [Bool.not_true, Bool.false_eq_true, if_false, exec_elapsedLocked_bind, true_and]
    cases hnow : (s.toClockGuard.read s.clock).1 with
    | none =>
      refine ⟨fun h => (by cases h), ?_⟩
      rintro ⟨record, now, hopen, -⟩
      cases hopen.reading.symm.trans hnow
    | some now =>
      simp only [Op.exec_get_bind, Op.exec_failIf_bind, Op.exec_orFail_bind, ticked_functions,
        ticked_usableLocked]
      constructor
      · split_ifs with hsync
        · intro h
          cases h
        · cases hrec : s.functions.get? functionID with
          | none => exact fun h => by cases h
          | some record =>
            simp only
            split_ifs with huse
            · intro h
              cases h
            · intro h
              cases h
              exact ⟨record, now, opens_of_ticked hnow hsync, rfl, by simpa using huse, rfl⟩
      · rintro ⟨record, now', hopen, hrec, huse, rfl⟩
        obtain rfl : now = now' := Option.some.inj (hnow.symm.trans hopen.reading)
        rw [if_neg (Bool.eq_false_iff.mp hopen.ticked)]
        simp [hrec, huse]

/-- When a lookup of everything succeeds, and what it returns. -/
theorem lookupAll_ok {views : List View} :
    (Op.exec Store.lookupAll s).1 = .ok views ↔ ∃ now, Opens s now ∧
      (∀ functionID record, s.functions.get? functionID = some record →
        s.usableLocked record now = true) ∧
      views = sortFunc (compareOn fun view => view.snapshot.functionID)
        (s.functions.toList.map fun entry => visibleSnapshot entry.2) := by
  have hall : ∀ now, (s.functions.toList.any fun entry => !s.usableLocked entry.2 now) = false ↔
      ∀ functionID record, s.functions.get? functionID = some record →
        s.usableLocked record now = true := by
    intro now
    simp only [List.any_eq_false, Bool.not_eq_true', Bool.not_eq_false, Prod.forall,
      GoMap.mem_toList]
  rw [Store.lookupAll, exec_elapsedLocked_bind]
  cases hnow : (s.toClockGuard.read s.clock).1 with
  | none =>
    refine ⟨fun h => (by cases h), ?_⟩
    rintro ⟨now, hopen, -⟩
    cases hopen.reading.symm.trans hnow
  | some now =>
    simp only [Op.exec_get_bind, Op.exec_failIf_bind, ticked_functions, ticked_usableLocked]
    constructor
    · split_ifs with hsync hstale
      · intro h
        cases h
      · intro h
        cases h
      · intro h
        cases h
        exact ⟨now, opens_of_ticked hnow hsync, (hall now).mp (Bool.eq_false_iff.mpr hstale), rfl⟩
    · rintro ⟨now', hopen, huse, rfl⟩
      obtain rfl : now = now' := Option.some.inj (hnow.symm.trans hopen.reading)
      rw [if_neg (Bool.eq_false_iff.mp hopen.ticked)]
      simp [(hall now).mpr huse]

theorem acts_lookup (s : Store) (functionID : GoString) :
    Acts s (.lookup functionID) (s.perform (Store.lookup functionID) .view).1
      (s.perform (Store.lookup functionID) .view).2 := by
  rw [Store.perform]
  rcases lookup_exec s functionID with ⟨e, h⟩ | h
  · rw [h]
    exact .idle ⟨e, rfl⟩
  · rw [h]
    exact .looked (.inl ⟨_, rfl⟩)

theorem lookupAll_exec (s : Store) : (Op.exec Store.lookupAll s).2 = s.ticked := by
  rw [Store.lookupAll, exec_elapsedLocked_bind]
  cases hnow : (s.toClockGuard.read s.clock).1 with
  | none => rfl
  | some now =>
    simp only [Op.exec_get_bind, Op.exec_failIf_bind]
    split_ifs <;> rfl

theorem acts_lookupAll (s : Store) :
    Acts s .lookupAll (s.perform Store.lookupAll .views).1 (s.perform Store.lookupAll .views).2 := by
  rw [Store.perform, lookupAll_exec]
  exact .looked (.inr rfl)

theorem acts_suppressEndpoint (s : Store) (functionID : GoString)
    (assignment : AssignmentIdentity) :
    Acts s (.suppressEndpoint functionID assignment)
      (s.perform (Store.suppressEndpoint functionID assignment) .done).1
      (s.perform (Store.suppressEndpoint functionID assignment) .done).2 := by
  simp only [Store.perform, Store.suppressEndpoint, Op.exec_failIf_bind, Op.exec_ofExcept_bind]
  split_ifs with hid
  · exact .idle (by simp [Idle])
  · cases hvalid : assignment.validate with
    | error e => exact .idle (by simp [Idle])
    | ok u =>
      simp only [Op.exec_get_bind, Op.exec_orFail_bind]
      cases hheld : s.functions.get? functionID with
      | none => exact .idle (by simp [Idle])
      | some record =>
        simp only
        cases hfind : record.snapshot.endpointList.find? fun e =>
            e.assignment.assignmentID = assignment.assignmentID with
        | none => exact .idle (by simp [Idle])
        | some endpoint =>
          simp only [Op.exec_failIf_bind]
          split_ifs with hfence
          · exact .idle (by simp [Idle])
          · have heq : endpoint.assignment = assignment := by simpa using hfence
            exact .suppressed hheld ⟨endpoint, List.mem_of_find?_eq_some hfind, heq⟩

theorem step_acts (s : Store) (call : Call) :
    Acts s call (storeMachine.step s call).1 (storeMachine.step s call).2 := by
  cases call with
  | apply event => exact acts_apply s event
  | setWatchConnected connected => exact .watched
  | lookup functionID => exact acts_lookup s functionID
  | lookupAll => exact acts_lookupAll s
  | suppressEndpoint functionID assignment => exact acts_suppressEndpoint s functionID assignment
  | status => exact .idle trivial

end MiniCloud.GatewayDiscovery
