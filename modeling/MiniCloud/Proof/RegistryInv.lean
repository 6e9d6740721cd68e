import MiniCloud.Lib.Words
import MiniCloud.Proof.RegistrySteps

/-!
# The registry's invariant

What a record says is read off the history of its Worker. The sessions committed for it are
numbered from one, the last is the current one, and its registration, its inventory and its
heartbeat are about that session. The clock is a fact about all Workers at once: the reading that
goes back takes every registered Worker out of service, and no later call has a reading.
-/

namespace MiniCloud.WorkerRegistry

open Lib Problem Digest Model ServingAuth Scheduler

variable {r₀ r r' : Registry} {process : MonotonicClock} {config : Config}
  {session : WorkerSession} {call : RegistryCall} {result : Except GoError Unit} {id : GoString}
  {record : WorkerRecord} {e : RegistryEvent}

/-! ## Records -/

/-- What every record satisfies. -/
structure RecordInv (healthy : Bool) (id : GoString) (record : WorkerRecord) : Prop where
  current : record.current = ⟨id, record.bootID, record.maxSessionEpoch⟩
  healthy : record.state = .ready → healthy = true
  ready : record.state = .ready → record.registered = true ∧ record.hasInventory = true ∧
    record.needsNewSession = false ∧ record.intent ≠ .removed
  drain : record.intent = .schedulable ↔ record.drain = .notDraining
  removed : record.intent = .removed → record.registered = false

structure RegistryInv (r₀ r : Registry) : Prop where
  records : ∀ id record, r.workers.get? id = some record → RecordInv r.clockHealthy id record
  room : (r.workers.len : Int) ≤ r.maxWorkers
  limit : r.maxWorkers = r₀.maxWorkers
  suspect : r.suspectAfter = r₀.suspectAfter
  unavailable : r.unavailableAfter = r₀.unavailableAfter
  clock : r.clock = r₀.clock
  tracks : r.toClockGuard.Tracks r.clock

theorem reading_none (h : r.reading = none) : r.ticked.clockHealthy = false := by
  rw [Registry.reading, ClockGuard.read] at h
  rw [Registry.ticked, ClockGuard.read]
  dsimp only at h ⊢
  split at h
  next hbad => rw [if_pos hbad]
  next => cases h

theorem reading_some {now : Duration} (h : r.reading = some now) :
    r.clockHealthy = true ∧ r.ticked.clockHealthy = r.clockHealthy := by
  constructor
  · rw [← Bool.not_eq_false]
    intro hfalse
    cases h.symm.trans (ClockGuard.read_unhealthy hfalse).1
  · rw [Registry.ticked, (ClockGuard.read_some h).2.2]

/-- The guard after a successful call is the old one, or that of a reading. -/
theorem acts_guard (hacts : Acts r call (.ok ()) r') :
    r'.toClockGuard = r.toClockGuard ∨
      (∃ now, r.reading = some now) ∧ r'.toClockGuard = r.ticked.toClockGuard := by
  cases hacts with
  | committed | rejoined => exact .inl rfl
  | joined _ hreading | reported _ _ hreading | beat _ _ hreading | evaluated hreading =>
    exact .inr ⟨⟨_, hreading⟩, rfl⟩
  | _ => exact .inl rfl

theorem acts_healthy (hacts : Acts r call (.ok ()) r') :
    r'.clockHealthy = r.clockHealthy := by
  rcases acts_guard hacts with hsame | ⟨⟨now, hreading⟩, hticked⟩
  · rw [hsame]
  · rw [hticked]
    exact (reading_some hreading).2

/-- The registry's settings stay as they are. -/
theorem acts_settings (hacts : Acts r call result r') : r'.maxWorkers = r.maxWorkers ∧
      r'.suspectAfter = r.suspectAfter ∧ r'.unavailableAfter = r.unavailableAfter ∧
      r'.clock = r.clock := by
  cases hacts <;> exact ⟨rfl, rfl, rfl, rfl⟩

theorem acts_room (hacts : Acts r call result r') (hroom : (r.workers.len : Int) ≤ r.maxWorkers) :
    (r'.workers.len : Int) ≤ r.maxWorkers := by
  have hold : ∀ {id record record'}, r.workers.get? id = some record →
      ((r.workers.set id record').len : Int) ≤ r.maxWorkers := by
    intro id record record' hfound
    rw [GoMap.len_set_old _ hfound]
    exact hroom
  cases hacts with
  | refused | rejoined | meant | confirmed => exact hroom
  | unhealthy | evaluated =>
    show ((r.workers.mapValues _).len : Int) ≤ _
    rw [GoMap.len_mapValues]
    exact hroom
  | committed h =>
    rcases h.found with hfound | ⟨hnone, -, hfree⟩
    · exact hold hfound
    · show ((r.workers.set _ _).len : Int) ≤ _
      rw [GoMap.len_set_new _ hnone]
      push_cast
      omega
  | joined h | reported h | beat h | drained h => exact hold h.found
  | removed hfound | intended hfound => exact hold hfound

theorem acts_tracks (hacts : Acts r call result r') (h : r.toClockGuard.Tracks r.clock) :
    r'.toClockGuard.Tracks r.clock := by
  cases result with
  | error e =>
    cases hacts with
    | refused => exact h
    | unhealthy => exact h.read
  | ok _ =>
    rcases acts_guard hacts with hsame | ⟨-, hticked⟩
    · rw [hsame]
      exact h
    · rw [hticked]
      exact h.read

theorem lose_record {healthy : Bool} (h : RecordInv healthy id record) :
    RecordInv false id (Registry.lose record) := by
  rw [Registry.lose]
  split_ifs with hactive
  · exact ⟨h.current, fun hstate => (by cases hstate), fun hstate => (by cases hstate), h.drain,
      h.removed⟩
  · -- a record that is passed over was not in service
    have hnot : record.state ≠ .ready := by
      intro hready
      obtain ⟨hregistered, -, -, hintent⟩ := h.ready hready
      exact hactive (by simp [hregistered, hintent])
    exact ⟨h.current, fun hstate => absurd hstate hnot, fun hstate => absurd hstate hnot, h.drain,
      h.removed⟩

theorem RecordInv.not_removed {healthy : Bool} (h : RecordInv healthy id record)
    (hregistered : record.registered = true) : record.intent ≠ .removed := by
  intro hremoved
  cases (h.removed hremoved).symm.trans hregistered

/-- What a successful call makes of a record satisfies the invariant. -/
theorem turns_record {o o' : Option WorkerRecord} (h : Turns r id call (.ok ()) o o')
    (hstored : ∀ record, r.workers.get? id = some record → RecordInv r.clockHealthy id record)
    (ho : o = r.workers.get? id) :
    ∀ record, o' = some record → RecordInv r.clockHealthy id record := by
  have hinv : ∀ record, o = some record → RecordInv r.clockHealthy id record := by
    rw [ho]
    exact hstored
  cases h with
  | elsewhere | rejoined | meant => exact hinv
  | @committed session record hid h =>
    rintro _ ⟨⟩
    have hdrain : record.intent = .schedulable ↔ record.drain = .notDraining := by
      rcases h.found with hfound | ⟨-, rfl, -⟩
      · rw [hid] at hfound
        exact (hstored record hfound).drain
      · exact iff_of_true rfl rfl
    subst hid
    exact ⟨rfl, fun hstate => (by cases hstate), fun hstate => (by cases hstate), hdrain,
      fun hremoved => absurd hremoved h.intent⟩
  | @joined session record now hid h hreading =>
    rintro _ ⟨⟩
    have hold := hinv record rfl
    refine ⟨?_, fun hstate => (by cases hstate), fun hstate => (by cases hstate), hold.drain,
      fun hremoved => absurd hremoved h.intent⟩
    show session = ⟨id, record.bootID, record.maxSessionEpoch⟩
    rw [h.boot, h.epoch, ← hid]
  | @reported inventory record now hid h hneeds hreading =>
    rintro _ ⟨⟩
    have hold := hinv record rfl
    exact ⟨hold.current, fun _ => (reading_some hreading).1,
      fun _ => ⟨h.registered, rfl, hneeds, hold.not_removed h.registered⟩, hold.drain,
      hold.removed⟩
  | @beat session record now hid h hneeds hreading =>
    rintro _ ⟨⟩
    have hold := hinv record rfl
    refine ⟨hold.current, fun _ => (reading_some hreading).1, fun hstate => ?_, hold.drain,
      hold.removed⟩
    by_cases hrevives : record.revives = true
    · have hinventory := hrevives
      simp only [WorkerRecord.revives, Bool.and_eq_true] at hinventory
      exact ⟨h.registered, hinventory.1.1, hneeds, hold.not_removed h.registered⟩
    · change (if record.revives = true then SessionState.ready else record.state) = _ at hstate
      rw [if_neg hrevives] at hstate
      exact hold.ready hstate
  | @evaluated _ now hreading =>
    intro record' heq
    obtain ⟨record, hrecord, rfl⟩ := Option.map_eq_some_iff.mp heq
    have hold := hinv record hrecord
    rw [Registry.classify]
    split_ifs with hevaluated
    · simp only [WorkerRecord.evaluated, Bool.and_eq_true, Bool.not_eq_true'] at hevaluated
      obtain ⟨⟨hregistered, hneeds⟩, hinventory⟩ := hevaluated
      exact ⟨hold.current, fun _ => (reading_some hreading).1,
        fun _ => ⟨hregistered, hinventory, hneeds, hold.not_removed hregistered⟩, hold.drain,
        hold.removed⟩
    · exact hold
  | @removed record hintent hdrain =>
    rintro _ ⟨⟩
    have hold := hinv record rfl
    refine ⟨hold.current, fun hstate => (by cases hstate), fun hstate => (by cases hstate), ?_,
      fun _ => rfl⟩
    refine iff_of_false (fun h => by cases h) fun h => ?_
    cases hdrain.symm.trans h
  | @intended intent record hremoved hnew hintent =>
    rintro _ ⟨⟩
    have hold := hinv record rfl
    rcases hintent with rfl | rfl
    · exact ⟨hold.current, fun hstate => (by cases hstate), fun hstate => (by cases hstate),
        iff_of_true rfl rfl, fun h => (by cases h)⟩
    · refine ⟨hold.current, hold.healthy, fun hstate => ?_, iff_of_false (fun h => by cases h)
        (fun h => by cases h), fun h => (by cases h)⟩
      obtain ⟨hregistered, hinventory, hneeds, -⟩ := hold.ready hstate
      exact ⟨hregistered, hinventory, hneeds, fun h => (by cases h)⟩
  | @drained observation record hid h hintent =>
    rintro _ ⟨⟩
    have hold := hinv record rfl
    refine ⟨hold.current, hold.healthy, hold.ready, ?_, hold.removed⟩
    refine iff_of_false (fun h => ?_) fun h => ?_
    · cases hintent.symm.trans h
    · change observation.next = _ at h
      rw [DrainObservation.next] at h
      split at h
      · cases h
      · cases h

theorem registryInv_step (h : RegistryInv r₀ r)
    (hstep : registryMachine.step r call = (result, r')) :
    RegistryInv r₀ r' := by
  have hacts := step_acts hstep
  obtain ⟨hlimit, hsuspect, hunavailable, hclock⟩ := acts_settings hacts
  refine ⟨?_, hlimit ▸ acts_room hacts h.room, hlimit.trans h.limit, hsuspect.trans h.suspect,
    hunavailable.trans h.unavailable, hclock.trans h.clock, hclock ▸ acts_tracks hacts h.tracks⟩
  cases result with
  | error e =>
    cases hacts with
    | refused => exact h.records
    | unhealthy hreading =>
      intro id record hrecord
      rw [show r.lost.workers.get? id = _ from GoMap.get?_mapValues _ _ _] at hrecord
      obtain ⟨old, hold, rfl⟩ := Option.map_eq_some_iff.mp hrecord
      rw [show r.lost.clockHealthy = false from reading_none hreading]
      exact lose_record (h.records id old hold)
  | ok _ =>
    intro id record hrecord
    rw [acts_healthy hacts]
    exact turns_record (acts_turns hacts id) (h.records id) rfl record hrecord

theorem registryInv_new (h : new process config = .ok r) : RegistryInv r r := by
  obtain ⟨⟨⟩, hchecks, hr⟩ := bind_ok.mp h
  cases hr
  have hpassed := checks_ok.mp hchecks
  simp only [List.forall_mem_cons, Bool.or_eq_false_iff, decide_eq_false_iff_not, not_lt] at hpassed
  refine ⟨fun id record hrecord => (by cases hrecord), ?_, rfl, rfl, rfl, rfl,
    ClockGuard.tracks_start _⟩
  exact le_trans (by decide : (0 : Int) ≤ 1) hpassed.2.1.1

theorem registryInv_reachable (hnew : new process config = .ok r₀)
    (h : registryMachine.Reachable r₀ r) : RegistryInv r₀ r :=
  Machine.invariant (registryInv_new hnew) (fun _ _ _ hs => registryInv_step hs rfl) h

/-! ## The history of a Worker -/

/-- The session that a call commits for the Worker. -/
def committedFor (id : GoString) (e : RegistryEvent) : Option WorkerSession :=
  match e.input, e.output with
  | .commitSession session, .ok _ => if session.workerID = id then some session else none
  | _, _ => none

/-- The sessions committed for a Worker, oldest first. -/
def commits (id : GoString) (history : List RegistryEvent) : List WorkerSession :=
  history.filterMap (committedFor id)

/-- The epochs of a list of sessions are 1, 2, 3 and so on. -/
def Numbered (sessions : List WorkerSession) : Prop :=
  ∀ i session, sessions[i]? = some session → session.sessionEpoch.toNat = i + 1

/--
An accepted heartbeat, inventory or registration of the Worker. A repeated registration is accepted
and changes nothing, so it is not one.
-/
def Refreshes (id : GoString) (e : RegistryEvent) : Prop :=
  e.output = .ok () ∧ e.input.worker = some id ∧
    ((∃ session, e.input = .heartbeat session) ∨ (∃ inventory, e.input = .reportInventory inventory) ∨
      (∃ session, e.input = .register session) ∧
        ∀ record, e.pre.workers.get? id = some record → record.registered = false)

/-- What the history says about a record. -/
structure Traced (history : List RegistryEvent) (id : GoString) (record : WorkerRecord) : Prop where
  last : (commits id history).getLast? = some record.current
  count : record.maxSessionEpoch.toNat = (commits id history).length
  registered : record.registered = true →
    ∃ e ∈ history, e.input = .register record.current ∧ e.output = .ok ()
  inventory : record.hasInventory = true → ∃ e ∈ history, ∃ inventory,
    e.input = .reportInventory inventory ∧ inventory.session = record.current ∧ e.output = .ok ()
  heartbeat : record.registered = true →
    Since (fun e => Refreshes id e ∧ e.pre.reading = some record.lastHeartbeat)
      (fun e => ¬ Refreshes id e) history

theorem commits_snoc (id : GoString) (history : List RegistryEvent) (e : RegistryEvent) :
    commits id (history ++ [e]) = commits id history ++ (committedFor id e).toList := by
  rw [commits, commits, List.filterMap_append]
  cases h : committedFor id e <;> simp [h]

/-- The calls that can be a sign of life. -/
def RegistryCall.lively : RegistryCall → Bool
  | .heartbeat _ | .reportInventory _ | .register _ => true
  | _ => false

theorem not_refreshes (h : e.input.lively = false) :
    ¬ Refreshes id e := by
  rintro ⟨-, -, ⟨_, hinput⟩ | ⟨_, hinput⟩ | ⟨⟨_, hinput⟩, -⟩⟩
  all_goals cases hinput ▸ h

/-- Another Worker's call, or no commit at all. -/
theorem committedFor_none
    (h : ∀ session, e.input = .commitSession session → e.output = .ok () → session.workerID ≠ id) :
    committedFor id e = none := by
  rw [committedFor]
  split
  next session _ hinput houtput => rw [if_neg (h session hinput houtput)]
  next => rfl

/-- The parts of a record that a call leaves alone when it is no sign of life of the Worker. -/
structure Same (record record' : WorkerRecord) : Prop where
  current : record'.current = record.current
  epoch : record'.maxSessionEpoch = record.maxSessionEpoch
  registered : record'.registered = true → record.registered = true
  inventory : record'.hasInventory = record.hasInventory
  heartbeat : record'.lastHeartbeat = record.lastHeartbeat

theorem Same.refl (record : WorkerRecord) : Same record record := ⟨rfl, rfl, fun h => h, rfl, rfl⟩

theorem same_lose (record : WorkerRecord) : Same record (Registry.lose record) := by
  rw [Registry.lose]
  split <;> exact ⟨rfl, rfl, fun h => h, rfl, rfl⟩

theorem same_classify (r : Registry) (now : Duration) (record : WorkerRecord) :
    Same record (r.classify now record) := by
  rw [Registry.classify]
  split <;> exact ⟨rfl, rfl, fun h => h, rfl, rfl⟩

theorem same_intended (record : WorkerRecord) (intent : SchedulingIntent) :
    Same record (Registry.intended record intent) := by
  rw [Registry.intended]
  split <;> exact ⟨rfl, rfl, fun h => h, rfl, rfl⟩

section Traced

/-- A call without a commit for the Worker. -/
theorem commits_kept (hcommit : committedFor id e = none) (history : List RegistryEvent) :
    commits id (history ++ [e]) = commits id history := by
  rw [commits_snoc, hcommit]
  exact List.append_nil _

variable {history : List RegistryEvent} {record' : WorkerRecord}

theorem Traced.kept (h : Traced history id record) (hcommit : committedFor id e = none)
    (hrefresh : ¬ Refreshes id e) (hsame : Same record record') :
    Traced (history ++ [e]) id record' := by
  have hcommits := commits_kept hcommit history
  refine ⟨by rw [hcommits, hsame.current]; exact h.last,
    by rw [hcommits, hsame.epoch]; exact h.count, ?_, ?_, ?_⟩
  · intro hreg
    obtain ⟨e', he', hrest⟩ := h.registered (hsame.registered hreg)
    rw [hsame.current]
    exact ⟨e', List.mem_append_left _ he', hrest⟩
  · intro hinv
    obtain ⟨e', he', hrest⟩ := h.inventory (hsame.inventory ▸ hinv)
    rw [hsame.current]
    exact ⟨e', List.mem_append_left _ he', hrest⟩
  · intro hreg
    rw [hsame.heartbeat]
    exact since_snoc.mpr (.inr ⟨h.heartbeat (hsame.registered hreg), hrefresh⟩)

/-- A sign of life keeps the session. -/
theorem Traced.refreshed (h : Traced history id record) (hcommit : committedFor id e = none)
    (hrefresh : Refreshes id e) (hreading : e.pre.reading = some record'.lastHeartbeat)
    (hcurrent : record'.current = record.current)
    (hepoch : record'.maxSessionEpoch = record.maxSessionEpoch)
    (hregistered : record'.registered = true → record.registered = true ∨
      e.input = .register record.current ∧ e.output = .ok ())
    (hinventory : record'.hasInventory = true → record.hasInventory = true ∨ ∃ inventory,
      e.input = .reportInventory inventory ∧ inventory.session = record.current ∧
        e.output = .ok ()) : Traced (history ++ [e]) id record' := by
  have hcommits := commits_kept hcommit history
  refine ⟨by rw [hcommits, hcurrent]; exact h.last, by rw [hcommits, hepoch]; exact h.count, ?_, ?_,
    fun _ => since_snoc.mpr (.inl ⟨hrefresh, hreading⟩)⟩
  · intro hreg
    rw [hcurrent]
    rcases hregistered hreg with hreg | hnew
    · obtain ⟨e', he', hrest⟩ := h.registered hreg
      exact ⟨e', List.mem_append_left _ he', hrest⟩
    · exact ⟨e, by simp, hnew⟩
  · intro hinv
    rw [hcurrent]
    rcases hinventory hinv with hinv | hnew
    · obtain ⟨e', he', hrest⟩ := h.inventory hinv
      exact ⟨e', List.mem_append_left _ he', hrest⟩
    · exact ⟨e, by simp, hnew⟩

end Traced

/-- The history accounts for the Worker's record, or there is neither record nor commit. -/
structure Accounted (history : List RegistryEvent) (id : GoString) (o : Option WorkerRecord) :
    Prop where
  numbered : Numbered (commits id history)
  record : ∀ record, o = some record → Traced history id record
  unknown : o = none → commits id history = []

theorem numbered_snoc {sessions : List WorkerSession} (h : Numbered sessions)
    (hepoch : session.sessionEpoch.toNat = sessions.length + 1) :
    Numbered (sessions ++ [session]) := by
  intro i found hfound
  rcases Nat.lt_or_ge i sessions.length with hi | hi
  · rw [List.getElem?_append_left hi] at hfound
    exact h i found hfound
  · rw [List.getElem?_append_right hi, List.getElem?_singleton] at hfound
    split at hfound
    next hzero =>
      cases hfound
      omega
    next => cases hfound

section Accounted

variable {history : List RegistryEvent} {o o' : Option WorkerRecord}

section

variable (h : Accounted history id o) (hcommit : committedFor id e = none)
include h hcommit

theorem Accounted.kept (hnone : o' = none → o = none)
    (hrecord : ∀ record', o' = some record' → ∃ record, o = some record ∧
      (Traced history id record → Traced (history ++ [e]) id record')) :
    Accounted (history ++ [e]) id o' := by
  have hcommits := commits_kept hcommit history
  refine ⟨hcommits ▸ h.numbered, fun record' heq => ?_, fun heq => ?_⟩
  · obtain ⟨record, hold, hkept⟩ := hrecord record' heq
    exact hkept (h.record record hold)
  · rw [hcommits]
    exact h.unknown (hnone heq)

/-- A call that says nothing new about the Worker. -/
theorem Accounted.map {f : WorkerRecord → WorkerRecord} (hrefresh : ¬ Refreshes id e)
    (hsame : ∀ record, Same record (f record)) :
    Accounted (history ++ [e]) id (o.map f) := by
  refine h.kept hcommit Option.map_eq_none_iff.mp fun record' heq => ?_
  obtain ⟨record, hrecord, rfl⟩ := Option.map_eq_some_iff.mp heq
  exact ⟨record, hrecord, fun ht => ht.kept hcommit hrefresh (hsame record)⟩

theorem Accounted.idle (hrefresh : ¬ Refreshes id e) :
    Accounted (history ++ [e]) id o := by
  have hmap := h.map hcommit hrefresh Same.refl
  rwa [show o.map (fun record => record) = o from Option.map_id'] at hmap

end

theorem Accounted.one {record' : WorkerRecord} (h : Accounted history id (some record))
    (hcommit : committedFor id e = none)
    (hrecord : Traced history id record → Traced (history ++ [e]) id record') :
    Accounted (history ++ [e]) id (some record') := by
  refine h.kept hcommit (fun heq => by cases heq) fun record'' heq => ?_
  cases heq
  exact ⟨record, rfl, hrecord⟩

theorem Accounted.same {record' : WorkerRecord} (h : Accounted history id (some record))
    (hcommit : committedFor id e = none) (hrefresh : ¬ Refreshes id e)
    (hsame : Same record record') : Accounted (history ++ [e]) id (some record') :=
  h.one hcommit fun ht => ht.kept hcommit hrefresh hsame

theorem accounted_commit
    (h : Accounted history session.workerID (r.workers.get? session.workerID))
    (hc : Committable r session record) :
    Accounted (history ++ [⟨r, .commitSession session, .ok (), r'⟩]) session.workerID
      (some (record.committed session)) := by
  have hcommits : commits session.workerID (history ++ [⟨r, .commitSession session, .ok (), r'⟩]) =
      commits session.workerID history ++ [session] := by
    rw [commits_snoc, committedFor]
    simp
  have hnonzero : session.sessionEpoch ≠ 0 := by
    have hchecks := checks_ok.mp hc.valid
    simp only [List.forall_mem_cons, mustNot_fails, beq_eq_false_iff_ne] at hchecks
    exact hchecks.2.2.1
  have hlength : record.maxSessionEpoch.toNat = (commits session.workerID history).length := by
    rcases hc.found with hfound | ⟨hnone, rfl, -⟩
    · exact (h.record record hfound).count
    · rw [h.unknown hnone]
      rfl
  have hepoch : session.sessionEpoch.toNat = (commits session.workerID history).length + 1 := by
    rw [← hlength, hc.epoch]
    exact toNat_succ (hc.epoch ▸ hnonzero)
  refine ⟨hcommits ▸ numbered_snoc h.numbered hepoch, ?_, fun heq => (by cases heq)⟩
  rintro _ ⟨⟩
  refine ⟨?_, ?_, fun heq => (by cases heq), fun heq => (by cases heq), fun heq => (by cases heq)⟩
  · rw [hcommits, List.getLast?_append, List.getLast?_singleton]
    rfl
  · rw [hcommits, List.length_append]
    exact hepoch

theorem accounted_turns (hturns : Turns r id call result o o')
    (hinv : ∀ record, o = some record → RecordInv r.clockHealthy id record)
    (h : Accounted history id o) : Accounted (history ++ [⟨r, call, result, r'⟩]) id o' := by
  cases hturns with
  | refused =>
    exact h.idle (committedFor_none fun _ _ houtput => by cases houtput) fun hr => by cases hr.1
  | lost =>
    exact h.map (committedFor_none fun _ _ houtput => by cases houtput) (fun hr => by cases hr.1)
      same_lose
  | elsewhere hworker hother =>
    refine h.idle (committedFor_none fun session hinput _ heq => hother ?_)
      fun hr => hother (Option.some.inj (hr.2.1.symm.trans hworker))
    obtain rfl : call = .commitSession session := hinput
    exact heq.symm.trans (Option.some.inj hworker)
  | committed hid hc =>
    subst hid
    exact accounted_commit h hc
  | @rejoined session record hid hc =>
    refine h.idle rfl ?_
    -- the record it finds is registered already
    rintro ⟨-, -, ⟨_, hinput⟩ | ⟨_, hinput⟩ | ⟨-, hfresh⟩⟩
    · cases hinput
    · cases hinput
    · cases (hfresh record (hid ▸ hc.found)).symm.trans hc.registered
  | @joined session record now hid hj hreading =>
    have hcurrent : session = record.current := by
      rw [(hinv record rfl).current, hj.boot, hj.epoch, ← hid]
    refine h.one rfl fun ht => ht.refreshed rfl
      ⟨rfl, congrArg some hid, .inr (.inr ⟨⟨session, rfl⟩, fun found hfound => ?_⟩)⟩ hreading
      hcurrent rfl (fun _ => .inr ⟨congrArg RegistryCall.register hcurrent, rfl⟩)
      fun hinventory => (by cases hinventory)
    cases (hid ▸ hj.found).symm.trans hfound
    exact hj.registered
  | @reported inventory record now hid hc hneeds hreading =>
    exact h.one rfl fun ht => ht.refreshed rfl
      ⟨rfl, congrArg some hid, .inr (.inl ⟨inventory, rfl⟩)⟩ hreading rfl rfl .inl
      fun _ => .inr ⟨inventory, rfl, hc.current.symm, rfl⟩
  | @beat session record now hid hc hneeds hreading =>
    exact h.one rfl fun ht => ht.refreshed rfl ⟨rfl, congrArg some hid, .inl ⟨session, rfl⟩⟩
      hreading rfl rfl .inl .inl
  | evaluated hreading =>
    exact h.map rfl (not_refreshes rfl) (same_classify r _)
  | removed =>
    exact h.same rfl (not_refreshes rfl)
      ⟨rfl, rfl, fun hregistered => (by cases hregistered), rfl, rfl⟩
  | meant => exact h.idle rfl (not_refreshes rfl)
  | intended => exact h.same rfl (not_refreshes rfl) (same_intended _ _)
  | drained => exact h.same rfl (not_refreshes rfl) ⟨rfl, rfl, fun h => h, rfl, rfl⟩

end Accounted

theorem accounted_run (hnew : new process config = .ok r₀) (calls : List RegistryCall)
    (id : GoString) :
    Accounted (registryMachine.events r₀ calls) id
      ((registryMachine.run r₀ calls).workers.get? id) := by
  refine Machine.trace (P := fun history r => Accounted history id (r.workers.get? id)) ?_ ?_ calls
  · obtain ⟨⟨⟩, -, hr⟩ := bind_ok.mp hnew
    cases hr
    exact ⟨fun i session hfound => (by cases hfound), fun record heq => (by cases heq), fun _ => rfl⟩
  · intro history r call hreach h
    exact accounted_turns (acts_turns (step_acts rfl) id)
      ((registryInv_reachable hnew hreach).records id) h

/-! ## Runs -/

theorem acts_reads (hacts : Acts r call result r') : r.reads ≤ r'.reads := by
  have hticked : r.reads ≤ r.ticked.reads := by
    rw [Registry.ticked, ClockGuard.read_reads]
    omega
  cases result with
  | error e =>
    cases hacts with
    | refused => exact Nat.le_refl _
    | unhealthy => exact hticked
  | ok _ =>
    rcases acts_guard hacts with hsame | ⟨-, hsame⟩
    · rw [hsame]
    · rw [hsame]
      exact hticked

/-- A removed Worker stays removed. -/
theorem turns_removed {o o' : Option WorkerRecord} (h : Turns r id call result o o')
    (ho : o = r.workers.get? id) (hrecord : o = some record) (hremoved : record.intent = .removed)
    (hinv : RecordInv r.clockHealthy id record) :
    ∃ record', o' = some record' ∧ record'.intent = .removed := by
  have hregistered := hinv.removed hremoved
  cases h with
  | refused | elsewhere => exact ⟨record, hrecord, hremoved⟩
  | lost =>
    refine ⟨Registry.lose record, by rw [hrecord]; rfl, ?_⟩
    rw [Registry.lose, if_neg (by simp [hregistered])]
    exact hremoved
  | committed hid hc =>
    rcases hc.found with hfound | ⟨hnone, -, -⟩
    · rw [hid, hrecord] at hfound
      cases hfound
      exact absurd hremoved hc.intent
    · rw [hid, hrecord] at hnone
      cases hnone
  | rejoined | meant => exact ⟨_, rfl, by cases hrecord; exact hremoved⟩
  | joined hid hj => cases hrecord; exact absurd hremoved hj.intent
  | reported _ hc | beat _ hc | drained _ hc =>
    cases hrecord; cases hregistered.symm.trans hc.registered
  | @evaluated _ now =>
    refine ⟨r.classify now record, by rw [hrecord]; rfl, ?_⟩
    rw [Registry.classify, if_neg (by simp [WorkerRecord.evaluated, hregistered])]
    exact hremoved
  | removed => exact ⟨_, rfl, rfl⟩
  | intended hnot => cases hrecord; exact absurd hremoved hnot

/-- The state that the time since the last sign of life calls for. -/
structure Classified (r₀ : Registry) (elapsed : Duration) (state : SessionState) : Prop where
  unavailable : r₀.unavailableAfter ≤ elapsed → state = .unavailable
  suspect : r₀.suspectAfter ≤ elapsed → elapsed < r₀.unavailableAfter → state = .suspect
  ready : elapsed < r₀.suspectAfter → state = .ready

theorem new_ordered (h : new process config = .ok r) :
    r.suspectAfter < r.unavailableAfter := by
  obtain ⟨⟨⟩, hchecks, hr⟩ := bind_ok.mp h
  cases hr
  have hpassed := checks_ok.mp hchecks
  simp only [List.forall_mem_cons, Config.timingInvalid, Bool.or_eq_false_iff,
    decide_eq_false_iff_not, not_le] at hpassed
  exact hpassed.1.1.2

theorem liveness_classified (h : RegistryInv r₀ r)
    (hordered : r₀.suspectAfter < r₀.unavailableAfter) (elapsed : Duration) :
    Classified r₀ elapsed (r.liveness elapsed) := by
  rw [Registry.liveness, h.suspect, h.unavailable]
  refine ⟨fun hle => ?_, fun hle hlt => ?_, fun hlt => ?_⟩
  · rw [if_pos hle]
  · rw [if_neg (not_le.mpr hlt), if_pos hle]
  · rw [if_neg (not_le.mpr (hlt.trans hordered)), if_neg (not_le.mpr hlt)]

/-- What holds after any calls. -/
structure Sound (r₀ : Registry) (history : List RegistryEvent) (r : Registry) : Prop where
  /-- Ready is in the committed session, with an inventory of it, and under a steady clock. -/
  ready : ∀ id record, r.workers.get? id = some record → record.state = .ready →
    record.registered = true ∧ record.hasInventory = true ∧ record.needsNewSession = false ∧
    record.intent ≠ .removed ∧ ClockGuard.Steady r₀.clock r.reads ∧
    (∃ e ∈ history, e.input = .register record.current ∧ e.output = .ok ()) ∧
    ∃ e ∈ history, ∃ inventory, e.input = .reportInventory inventory ∧
      inventory.session = record.current ∧ e.output = .ok ()
  committed : ∀ id record, r.workers.get? id = some record →
    (commits id history).getLast? = some record.current
  epochs : ∀ id, Numbered (commits id history)
  boots : ∀ id session session', session ∈ commits id history → session' ∈ commits id history →
    session.sessionEpoch = session'.sessionEpoch → session = session'
  drain : ∀ id record, r.workers.get? id = some record →
    (record.intent = .schedulable ↔ record.drain = .notDraining)
  unregistered : ∀ id record, r.workers.get? id = some record → record.intent = .removed →
    record.registered = false
  absorbing : ∀ e ∈ history, ∀ id record, e.pre.workers.get? id = some record →
    record.intent = .removed →
    ∃ record', e.post.workers.get? id = some record' ∧ record'.intent = .removed
  room : (r.workers.len : Int) ≤ r₀.maxWorkers
  /-- Right after an evaluation the state follows from the time since the last sign of life. -/
  evaluated : ∀ before e after, history = before ++ e :: after → e.input = .evaluate →
    e.output = .ok () → ∀ id record, e.post.workers.get? id = some record →
    record.registered = true → record.hasInventory = true → record.needsNewSession = false →
    ∃ now last, e.pre.reading = some now ∧
      Since (fun e => Refreshes id e ∧ e.pre.reading = some last) (fun e => ¬ Refreshes id e) before ∧
      Classified r₀ (now - last) record.state

theorem numbered_injective {sessions : List WorkerSession} (h : Numbered sessions)
    {session' : WorkerSession} (hs : session ∈ sessions) (hs' : session' ∈ sessions)
    (hepoch : session.sessionEpoch = session'.sessionEpoch) : session = session' := by
  obtain ⟨i, hi⟩ := List.mem_iff_getElem?.mp hs
  obtain ⟨j, hj⟩ := List.mem_iff_getElem?.mp hs'
  have hi' := h i session hi
  have hj' := h j session' hj
  rw [hepoch, hj'] at hi'
  obtain rfl : i = j := by omega
  exact Option.some.inj (hi.symm.trans hj)

theorem evaluated_state (hnew : new process config = .ok r₀) {calls : List RegistryCall}
    {before after : List RegistryEvent}
    (hsplit : registryMachine.events r₀ calls = before ++ e :: after)
    (hinput : e.input = .evaluate) (houtput : e.output = .ok ())
    (hrecord : e.post.workers.get? id = some record) (hregistered : record.registered = true)
    (hinventory : record.hasInventory = true) (hneeds : record.needsNewSession = false) :
    ∃ now last, e.pre.reading = some now ∧
      Since (fun e => Refreshes id e ∧ e.pre.reading = some last) (fun e => ¬ Refreshes id e) before ∧
      Classified r₀ (now - last) record.state := by
  obtain ⟨calls₁, call, calls₂, -, hbefore, he, -⟩ := Machine.events_split hsplit
  have hinv := registryInv_reachable hnew (Machine.Reachable.init.run calls₁)
  have hold := accounted_run hnew calls₁ id
  rw [← hbefore] at hold
  subst he
  obtain rfl : call = .evaluate := hinput
  rcases hstep : registryMachine.step (registryMachine.run r₀ calls₁) .evaluate with ⟨result, r'⟩
  obtain rfl : result = .ok () := (congrArg Prod.fst hstep).symm.trans houtput
  rw [show (registryMachine.event (registryMachine.run r₀ calls₁) .evaluate).post = r' from
    congrArg Prod.snd hstep] at hrecord
  have hturns := step_turns hstep id
  generalize hpre : (registryMachine.run r₀ calls₁).workers.get? id = o at hturns hold
  rw [hrecord] at hturns
  generalize hpost : some record = o' at hturns
  cases hturns with
  | elsewhere hworker => cases hworker
  | @evaluated _ now hreading =>
    obtain ⟨old, hfound, rfl⟩ := Option.map_eq_some_iff.mp hpost.symm
    have hevaluated : old.evaluated = true := by
      rw [← Bool.not_eq_false]
      intro hnot
      rw [Registry.classify, if_neg (by simp [hnot])] at hregistered hinventory hneeds
      simp [WorkerRecord.evaluated, hregistered, hinventory, hneeds] at hnot
    have hlast := (hold.record old hfound).heartbeat (by
      simp only [WorkerRecord.evaluated, Bool.and_eq_true] at hevaluated
      exact hevaluated.1.1)
    refine ⟨now, old.lastHeartbeat, hreading, hlast, ?_⟩
    rw [Registry.classify, if_pos hevaluated]
    exact liveness_classified hinv (new_ordered hnew) _

/--
**The registry over any calls.** Every conjunct of `Sound` holds after them, and once a reading has
gone back no Worker is ready in any later state.
-/
theorem registry_sound {process : MonotonicClock} {config : Config} {r₀ : Registry}
    (hnew : new process config = .ok r₀) (calls later : List RegistryCall) :
    Sound r₀ (registryMachine.events r₀ calls) (registryMachine.run r₀ calls) ∧
    (¬ ClockGuard.Steady r₀.clock (registryMachine.run r₀ calls).reads → ∀ id record,
      (registryMachine.run r₀ (calls ++ later)).workers.get? id = some record →
      record.state ≠ .ready) := by
  have hinv := registryInv_reachable hnew (Machine.Reachable.init.run calls)
  constructor
  · refine ⟨?_, ?_, fun id => (accounted_run hnew calls id).numbered, ?_, ?_, ?_, ?_,
      hinv.limit ▸ hinv.room, ?_⟩
    · intro id record hrecord hready
      have hrec := hinv.records id record hrecord
      have htraced := (accounted_run hnew calls id).record record hrecord
      obtain ⟨hregistered, hinventory, hneeds, hintent⟩ := hrec.ready hready
      exact ⟨hregistered, hinventory, hneeds, hintent,
        hinv.clock ▸ hinv.tracks.healthy.mp (hrec.healthy hready), htraced.registered hregistered,
        htraced.inventory hinventory⟩
    · intro id record hrecord
      exact ((accounted_run hnew calls id).record record hrecord).last
    · intro id session session' hs hs'
      exact numbered_injective (accounted_run hnew calls id).numbered hs hs'
    · intro id record hrecord
      exact (hinv.records id record hrecord).drain
    · intro id record hrecord
      exact (hinv.records id record hrecord).removed
    · intro e he id record hrecord hremoved
      obtain ⟨hreach, heq⟩ := Machine.event_reachable .init he
      have hrec := (registryInv_reachable hnew hreach).records id record hrecord
      rw [heq]
      exact turns_removed (step_turns rfl id) rfl hrecord hremoved hrec
    · intro before e after hsplit hinput houtput id record hrecord hregistered hinventory hneeds
      exact evaluated_state hnew hsplit hinput houtput hrecord hregistered hinventory hneeds
  · intro hback id record hrecord hready
    have hlater := registryInv_reachable hnew (Machine.Reachable.init.run (calls ++ later))
    have hsteady := hlater.tracks.healthy.mp ((hlater.records id record hrecord).healthy hready)
    have hreads : (registryMachine.run r₀ calls).reads ≤
        (registryMachine.run r₀ (calls ++ later)).reads := by
      rw [Machine.run_append]
      exact Machine.run_rel (R := fun r r' : Registry => r.reads ≤ r'.reads)
        (fun _ => Nat.le_refl _) (fun _ _ _ => Nat.le_trans)
        (fun r call _ => acts_reads (step_acts rfl)) (Machine.Reachable.init.run calls) later
    rw [hlater.clock] at hsteady
    exact hback (hsteady.mono hreads)

/-! ## A sample run -/

def sampleSession : WorkerSession := ⟨"worker-1", "boot-1", 1⟩

def sampleInventory : Inventory where
  revision := 1
  session := sampleSession
  runtime := ⟨WasmProfile.runtimeName, WasmProfile.runtimeVersion, WasmProfile.engineCompiler,
    "linux", "amd64", abiWASICommandV1, hostAPIProfileNone, WasmProfile.featureProfile, 64⟩
  capacity := ⟨1024, 0, 8, 0⟩
  labels := ∅
  cache := ⟨∅, ∅⟩

def sampleConfig : Config := ⟨none, 0, 0, 0, 0⟩

def sampleRegistry : Registry where
  toClockGuard := .start fun _ => 0
  clock := fun _ => 0
  heartbeatInterval := defaultHeartbeatInterval
  suspectAfter := defaultSuspectAfter
  unavailableAfter := defaultUnavailableAfter
  maxWorkers := defaultMaxWorkers
  workers := ∅
  revision := 0

theorem sampleRegistry_new : new (fun _ => 0) sampleConfig = .ok sampleRegistry := rfl

def sampleCalls : List RegistryCall :=
  [.commitSession sampleSession, .register sampleSession, .reportInventory sampleInventory, .evaluate]

/-- The Worker of the sample is ready, so the theorem says where that comes from. -/
theorem registry_sound_sample :
    ((registryMachine.run sampleRegistry sampleCalls).workers.get? "worker-1").map
      WorkerRecord.state = some .ready ∧
    Sound sampleRegistry (registryMachine.events sampleRegistry sampleCalls)
      (registryMachine.run sampleRegistry sampleCalls) :=
  ⟨rfl, (registry_sound sampleRegistry_new sampleCalls []).1⟩

end MiniCloud.WorkerRegistry
