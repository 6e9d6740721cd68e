import MiniCloud.WorkerRegistry.Registry

/-!
# What a call of the registry can do

`step_acts` lists every effect of a call with the tests it passed. A write replaces one record, may
advance the clock guard and counts as a revision unless it only notes the time of a heartbeat. The
one call with an effect although it fails is the one that finds the clock going back.
-/

namespace MiniCloud.WorkerRegistry

open Lib Problem Digest Model ServingAuth Scheduler

namespace Registry

/-- The registry after one reading of the clock. -/
def ticked (r : Registry) : Registry :=
  { r with toClockGuard := (r.toClockGuard.read r.clock).2 }

/-- The registry after a reading that was refused. -/
def lost (r : Registry) : Registry := { r.ticked with workers := r.workers.mapValues lose }

/-- A write of one record at revision `n`. -/
def wrote (r : Registry) (workerID : GoString) (record : WorkerRecord) (n : UInt64) : Registry :=
  { r.put workerID record with revision := n }

def reading (r : Registry) : Option Duration := (r.toClockGuard.read r.clock).1

end Registry

/-- A record that is registered under the session. -/
structure Current (r : Registry) (session : WorkerSession) (record : WorkerRecord) : Prop where
  found : r.workers.get? session.workerID = some record
  registered : record.registered = true
  current : record.current = session

/-- A record that a session may be committed to: the stored one, or a new one with room for it. -/
structure Committable (r : Registry) (session : WorkerSession) (record : WorkerRecord) : Prop where
  found : r.workers.get? session.workerID = some record ∨
    (r.workers.get? session.workerID = none ∧ record = newRecord session.workerID ∧
      (r.workers.len : Int) < r.maxWorkers)
  valid : session.validate = .ok ()
  intent : record.intent ≠ .removed
  epoch : session.sessionEpoch = record.maxSessionEpoch + 1

/-- A record that the committed session is not registered for yet. -/
structure Joinable (r : Registry) (session : WorkerSession) (record : WorkerRecord) : Prop where
  found : r.workers.get? session.workerID = some record
  intent : record.intent ≠ .removed
  epoch : record.maxSessionEpoch = session.sessionEpoch
  boot : record.bootID = session.bootID
  needs : record.needsNewSession = false
  registered : record.registered = false

inductive Acts (r : Registry) : RegistryCall → Except GoError Unit → Registry → Prop
  | refused {call : RegistryCall} {e : GoError} : Acts r call (.error e) r
  | unhealthy {call : RegistryCall} {e : GoError} (hreading : r.reading = none) :
      Acts r call (.error e) r.lost
  | committed {session : WorkerSession} {record : WorkerRecord}
      (h : Committable r session record) :
      Acts r (.commitSession session) (.ok ())
        (r.wrote session.workerID (record.committed session) (r.revision + 1))
  | rejoined {session : WorkerSession} {record : WorkerRecord} (h : Current r session record) :
      Acts r (.register session) (.ok ()) r
  | joined {session : WorkerSession} {record : WorkerRecord} {now : Duration}
      (h : Joinable r session record) (hreading : r.reading = some now) :
      Acts r (.register session) (.ok ())
        (r.ticked.wrote session.workerID (record.joined session now) (r.revision + 1))
  | reported {inventory : Inventory} {record : WorkerRecord} {now : Duration}
      (h : Current r inventory.session record) (hneeds : record.needsNewSession = false)
      (hreading : r.reading = some now) :
      Acts r (.reportInventory inventory) (.ok ())
        (r.ticked.wrote inventory.session.workerID (record.reported inventory now)
          (r.revision + 1))
  | beat {session : WorkerSession} {record : WorkerRecord} {now : Duration}
      (h : Current r session record) (hneeds : record.needsNewSession = false)
      (hreading : r.reading = some now) :
      Acts r (.heartbeat session) (.ok ())
        (r.ticked.wrote session.workerID { record with
          lastHeartbeat := now
          state := if record.revives then .ready else record.state }
          (if record.revives then r.revision + 1 else r.revision))
  | evaluated {now : Duration} (hreading : r.reading = some now) :
      Acts r .evaluate (.ok ())
        { r.ticked with
          workers := r.workers.mapValues (r.classify now)
          revision := r.revision + UInt64.ofNat (r.changes now) }
  | removed {workerID : GoString} {record : WorkerRecord}
      (hfound : r.workers.get? workerID = some record) (hintent : record.intent = .draining)
      (hdrain : record.drain = .drained) :
      Acts r (.setIntent workerID .removed) (.ok ()) (r.wrote workerID
        { record with intent := .removed, registered := false, state := .unavailable }
        (r.revision + 1))
  | meant {workerID : GoString} {intent : SchedulingIntent} {record : WorkerRecord}
      (hfound : r.workers.get? workerID = some record) (hintent : record.intent = intent)
      (hremoved : intent ≠ .removed) :
      Acts r (.setIntent workerID intent) (.ok ()) r
  | intended {workerID : GoString} {intent : SchedulingIntent} {record : WorkerRecord}
      (hfound : r.workers.get? workerID = some record) (hremoved : record.intent ≠ .removed)
      (hnew : record.intent ≠ intent) (hintent : intent = .schedulable ∨ intent = .draining) :
      Acts r (.setIntent workerID intent) (.ok ())
        (r.wrote workerID (Registry.intended record intent) (r.revision + 1))
  | confirmed {observation : DrainObservation} {record : WorkerRecord}
      (h : Current r observation.session record) (hintent : record.intent = .draining)
      (hdrain : record.drain = observation.next) :
      Acts r (.updateDrain observation) (.ok ()) r
  | drained {observation : DrainObservation} {record : WorkerRecord}
      (h : Current r observation.session record) (hintent : record.intent = .draining) :
      Acts r (.updateDrain observation) (.ok ())
        (r.wrote observation.session.workerID { record with drain := observation.next }
          (r.revision + 1))

/-! ## Each method -/

section Methods

variable {r : Registry}

/-- A reading, or the loss of every registered Worker. -/
theorem elapsedLocked_ends {α : Type} {f : Duration → Op GoError Registry α}
    {Q : Except GoError α → Registry → Prop} (hlost : ∀ e, r.reading = none → Q (.error e) r.lost)
    (h : ∀ now, r.reading = some now → Op.Ends (f now) r.ticked Q) :
    Op.Ends (Registry.elapsedLocked >>= f) r Q := by
  refine Op.Ends.bind (P := fun result t => (∃ e, result = .error e ∧ r.reading = none ∧ t = r.lost) ∨
    ∃ now, result = .ok now ∧ r.reading = some now ∧ t = r.ticked) ?_ ?_ ?_
  · rw [Registry.elapsedLocked]
    refine .get_bind ?_
    cases hreading : (r.toClockGuard.read r.clock).1 with
    | none =>
      rw [Op.Ends]
      simp only [hreading]
      exact .inl ⟨_, rfl, hreading, rfl⟩
    | some now =>
      rw [Op.Ends]
      simp only [hreading]
      exact .inr ⟨_, rfl, hreading, rfl⟩
  · rintro e t (⟨e', he, hreading, rfl⟩ | ⟨now, hnow, -⟩)
    · exact hlost e hreading
    · cases hnow
  · rintro now t (⟨e, he, -⟩ | ⟨now', hnow, hreading, rfl⟩)
    · cases he
    · cases hnow
      exact h now hreading

theorem currentLocked_ends {α : Type} {session : WorkerSession}
    {f : WorkerRecord → Op GoError Registry α} {Q : Except GoError α → Registry → Prop}
    (herror : ∀ e, Q (.error e) r) (h : ∀ record, Current r session record → Op.Ends (f record) r Q) :
    Op.Ends (Registry.currentLocked session >>= f) r Q := by
  refine Op.Ends.bind (P := fun result t => t = r ∧ ∀ record, result = .ok record →
    Current r session record) ?_ ?_ ?_
  · rw [Registry.currentLocked]
    refine .get_bind (.orFail_bind (fun _ => ⟨rfl, fun _ h => by cases h⟩) fun record hfound => ?_)
    refine .failIf_bind (fun _ => ⟨rfl, fun _ h => by cases h⟩) fun hok => .ret ⟨rfl, ?_⟩
    intro record' heq
    cases heq
    simp only [Bool.or_eq_false_iff, Bool.not_eq_false', bne_eq_false_iff_eq] at hok
    exact ⟨hfound, hok.1, hok.2⟩
  · rintro e t ⟨rfl, -⟩
    exact herror e
  · rintro record t ⟨rfl, hcurrent⟩
    exact h record (hcurrent record rfl)

theorem recordFor_ends {session : WorkerSession} :
    Op.Ends (Registry.recordFor session) r fun result t =>
      (∃ e, result = .error e ∧ t = r) ∨ ∃ record, result = .ok record ∧
        ((t = r ∧ r.workers.get? session.workerID = some record) ∨
          (t = r.put session.workerID record ∧ r.workers.get? session.workerID = none ∧
            record = newRecord session.workerID ∧ (r.workers.len : Int) < r.maxWorkers ∧
            session.sessionEpoch = 1)) := by
  rw [Registry.recordFor]
  refine .get_bind ?_
  cases hfound : r.workers.get? session.workerID with
  | some record => exact .inr ⟨record, rfl, .inl ⟨rfl, rfl⟩⟩
  | none =>
    refine .failIf_bind (fun _ => .inl ⟨_, rfl, rfl⟩) fun hroom => ?_
    refine .failIf_bind (fun _ => .inl ⟨_, rfl, rfl⟩) fun hfirst => ?_
    refine .set_bind (.ret (.inr ⟨_, rfl, .inr ⟨rfl, rfl, rfl, ?_, ?_⟩⟩))
    · simpa using hroom
    · simpa using hfirst

theorem commitSession_acts (session : WorkerSession) :
    Op.Ends (Registry.commitSession session) r (Acts r (.commitSession session)) := by
  refine .ofExcept_bind (fun _ _ => .refused) fun _ hvalid => ?_
  refine recordFor_ends.bind ?_ ?_
  · rintro e t (⟨_, -, rfl⟩ | ⟨_, h, -⟩)
    · exact .refused
    · cases h
  · rintro record t (⟨_, h, -⟩ | ⟨_, h, hfound⟩)
    · cases h
    cases h
    -- a refusal after the insertion of a new record is impossible, so both tests pass for it
    rcases hfound with ⟨rfl, hfound⟩ | ⟨rfl, hnone, rfl, hroom, hfirst⟩
    · refine .failIf_bind (fun _ => .refused) fun hintent => ?_
      refine .failIf_bind (fun _ => .refused) fun hepoch => .get_bind (.put ?_)
      exact .committed ⟨.inl hfound, hvalid, by simpa using hintent, by simpa using hepoch⟩
    · have hepoch :
          session.sessionEpoch = (newRecord session.workerID).maxSessionEpoch + 1 := hfirst
      refine .failIf_bind (fun h => by cases h) fun _ => ?_
      refine .failIf_bind (fun h => absurd hepoch (by simpa using h)) fun _ => .get_bind (.put ?_)
      rw [show (Registry.put _ _ _).bump = r.wrote session.workerID
        ((newRecord session.workerID).committed session) (r.revision + 1) by
          simp only [Registry.put, Registry.bump, Registry.wrote, GoMap.set_set]]
      exact .committed ⟨.inr ⟨hnone, rfl, hroom⟩, hvalid, by simp [newRecord], hepoch⟩

theorem register_acts (session : WorkerSession) :
    Op.Ends (Registry.register session) r (Acts r (.register session)) := by
  refine .ofExcept_bind (fun _ _ => .refused) fun _ _ => .get_bind ?_
  refine .orFail_bind (fun _ => .refused) fun record hfound => ?_
  refine .failIf_bind (fun _ => .refused) fun hintent => ?_
  refine .failIf_bind (fun _ => .refused) fun hsession => ?_
  refine .failIf_bind (fun _ => .refused) fun hneeds => ?_
  simp only [Bool.or_eq_false_iff, bne_eq_false_iff_eq] at hsession
  by_cases hrepeat : (record.registered && record.current == session) = true
  · rw [if_pos hrepeat]
    simp only [Bool.and_eq_true, beq_iff_eq] at hrepeat
    exact .ret (.rejoined ⟨hfound, hrepeat.1, hrepeat.2⟩)
  · rw [if_neg hrepeat, Registry.join]
    refine .failIf_bind (fun _ => .refused) fun hregistered => ?_
    refine elapsedLocked_ends (fun _ h => .unhealthy h) fun now hnow => .get_bind (.put ?_)
    exact .joined ⟨hfound, by simpa using hintent, hsession.1, hsession.2, hneeds, hregistered⟩ hnow

theorem reportInventory_acts (inventory : Inventory) :
    Op.Ends (Registry.reportInventory inventory) r (Acts r (.reportInventory inventory)) := by
  refine .ofExcept_bind (fun _ _ => .refused) fun _ _ => ?_
  refine currentLocked_ends (fun _ => .refused) fun record hcurrent => ?_
  refine .failIf_bind (fun _ => .refused) fun hneeds => ?_
  refine .failIf_bind (fun _ => .refused) fun _ => ?_
  refine .ofExcept_bind (fun _ _ => .refused) fun _ _ => ?_
  refine elapsedLocked_ends (fun _ h => .unhealthy h) fun now hnow => .get_bind (.put ?_)
  exact .reported hcurrent hneeds hnow

theorem heartbeat_acts (session : WorkerSession) :
    Op.Ends (Registry.heartbeat session) r (Acts r (.heartbeat session)) := by
  refine .ofExcept_bind (fun _ _ => .refused) fun _ _ => ?_
  refine currentLocked_ends (fun _ => .refused) fun record hcurrent => ?_
  refine .failIf_bind (fun _ => .refused) fun hneeds => ?_
  refine elapsedLocked_ends (fun _ h => .unhealthy h) fun now hnow => .get_bind ?_
  have hacts := Acts.beat hcurrent hneeds hnow
  split_ifs at hacts ⊢ <;> exact .put hacts

theorem evaluate_acts : Op.Ends Registry.evaluate r (Acts r .evaluate) := by
  refine elapsedLocked_ends (fun _ h => .unhealthy h) fun now hnow => .get_bind (.put ?_)
  exact .evaluated hnow

theorem setIntent_acts (workerID : GoString) (intent : SchedulingIntent) :
    Op.Ends (Registry.setIntent workerID intent) r (Acts r (.setIntent workerID intent)) := by
  refine .failIf_bind (fun _ => .refused) fun hvalid => .get_bind ?_
  refine .orFail_bind (fun _ => .refused) fun record hfound => ?_
  refine .failIf_bind (fun _ => .refused) fun hremoved => ?_
  by_cases hremove : intent = .removed
  · subst hremove
    rw [if_pos rfl]
    refine .failIf_bind (fun _ => .refused) fun hdrained => .put ?_
    simp only [Bool.or_eq_false_iff, bne_eq_false_iff_eq] at hdrained
    exact .removed hfound hdrained.1 hdrained.2
  · rw [if_neg hremove]
    split_ifs with hsame
    · exact .ret (.meant hfound hsame hremove)
    · refine .put (.intended hfound (by simpa using hremoved) hsame ?_)
      simp only [Bool.or_eq_false_iff, Bool.not_eq_false'] at hvalid
      cases intent with
      | schedulable => exact .inl rfl
      | draining => exact .inr rfl
      | removed => exact absurd rfl hremove
      | other text => cases hvalid.2

theorem updateDrain_acts (observation : DrainObservation) :
    Op.Ends (Registry.updateDrain observation) r (Acts r (.updateDrain observation)) := by
  refine .ofExcept_bind (fun _ _ => .refused) fun _ _ => ?_
  refine currentLocked_ends (fun _ => .refused) fun record hcurrent => ?_
  refine .failIf_bind (fun _ => .refused) fun hintent => .get_bind ?_
  rw [bne_eq_false_iff_eq] at hintent
  by_cases hdrain : record.drain = observation.next
  · rw [if_neg (not_not.mpr hdrain)]
    exact .ret (.confirmed hcurrent hintent hdrain)
  · rw [if_pos hdrain]
    exact .put (.drained hcurrent hintent)

end Methods

variable {r r' : Registry} {call : RegistryCall} {result : Except GoError Unit}

theorem step_acts (hstep : registryMachine.step r call = (result, r')) : Acts r call result r' := by
  have hends : Op.Ends call.method r (Acts r call) := by
    cases call with
    | commitSession session => exact commitSession_acts session
    | register session => exact register_acts session
    | reportInventory inventory => exact reportInventory_acts inventory
    | heartbeat session => exact heartbeat_acts session
    | evaluate => exact evaluate_acts
    | setIntent workerID intent => exact setIntent_acts workerID intent
    | updateDrain observation => exact updateDrain_acts observation
  exact hends.of_exec hstep

/-! ## One Worker's view -/

/-- The Worker a call names. -/
def RegistryCall.worker : RegistryCall → Option GoString
  | .commitSession session => some session.workerID
  | .register session => some session.workerID
  | .reportInventory inventory => some inventory.session.workerID
  | .heartbeat session => some session.workerID
  | .evaluate => none
  | .setIntent workerID _ => some workerID
  | .updateDrain observation => some observation.session.workerID

/-- What a call does to the record of one Worker. -/
inductive Turns (r : Registry) (id : GoString) :
    RegistryCall → Except GoError Unit → Option WorkerRecord → Option WorkerRecord → Prop
  | refused {call : RegistryCall} {e : GoError} {o : Option WorkerRecord} :
      Turns r id call (.error e) o o
  | lost {call : RegistryCall} {e : GoError} {o : Option WorkerRecord}
      (hreading : r.reading = none) : Turns r id call (.error e) o (o.map Registry.lose)
  | elsewhere {call : RegistryCall} {o : Option WorkerRecord} {other : GoString}
      (hworker : call.worker = some other) (hother : id ≠ other) : Turns r id call (.ok ()) o o
  | committed {session : WorkerSession} {record : WorkerRecord} (hid : session.workerID = id)
      (h : Committable r session record) :
      Turns r id (.commitSession session) (.ok ()) (r.workers.get? id)
        (some (record.committed session))
  | rejoined {session : WorkerSession} {record : WorkerRecord} (hid : session.workerID = id)
      (h : Current r session record) :
      Turns r id (.register session) (.ok ()) (some record) (some record)
  | joined {session : WorkerSession} {record : WorkerRecord} {now : Duration}
      (hid : session.workerID = id) (h : Joinable r session record)
      (hreading : r.reading = some now) :
      Turns r id (.register session) (.ok ()) (some record) (some (record.joined session now))
  | reported {inventory : Inventory} {record : WorkerRecord} {now : Duration}
      (hid : inventory.session.workerID = id) (h : Current r inventory.session record)
      (hneeds : record.needsNewSession = false) (hreading : r.reading = some now) :
      Turns r id (.reportInventory inventory) (.ok ()) (some record)
        (some (record.reported inventory now))
  | beat {session : WorkerSession} {record : WorkerRecord} {now : Duration}
      (hid : session.workerID = id) (h : Current r session record)
      (hneeds : record.needsNewSession = false) (hreading : r.reading = some now) :
      Turns r id (.heartbeat session) (.ok ()) (some record) (some { record with
        lastHeartbeat := now
        state := if record.revives then .ready else record.state })
  | evaluated {o : Option WorkerRecord} {now : Duration} (hreading : r.reading = some now) :
      Turns r id .evaluate (.ok ()) o (o.map (r.classify now))
  | removed {record : WorkerRecord} (hintent : record.intent = .draining)
      (hdrain : record.drain = .drained) :
      Turns r id (.setIntent id .removed) (.ok ()) (some record) (some
        { record with intent := .removed, registered := false, state := .unavailable })
  | meant {intent : SchedulingIntent} {record : WorkerRecord} (hintent : record.intent = intent)
      (hremoved : intent ≠ .removed) :
      Turns r id (.setIntent id intent) (.ok ()) (some record) (some record)
  | intended {intent : SchedulingIntent} {record : WorkerRecord}
      (hremoved : record.intent ≠ .removed) (hnew : record.intent ≠ intent)
      (hintent : intent = .schedulable ∨ intent = .draining) :
      Turns r id (.setIntent id intent) (.ok ()) (some record)
        (some (Registry.intended record intent))
  | drained {observation : DrainObservation} {record : WorkerRecord}
      (hid : observation.session.workerID = id) (h : Current r observation.session record)
      (hintent : record.intent = .draining) :
      Turns r id (.updateDrain observation) (.ok ()) (some record)
        (some { record with drain := observation.next })

/-- A call that writes one record is about the Worker, or it is elsewhere. -/
theorem turns_wrote {workerID id : GoString} {record : WorkerRecord}
    (hworker : call.worker = some workerID)
    (hself : id = workerID → Turns r id call (.ok ()) (r.workers.get? workerID) (some record)) :
    Turns r id call (.ok ()) (r.workers.get? id) ((r.workers.set workerID record).get? id) := by
  rw [GoMap.get?_set]
  split_ifs with hid
  · exact hid ▸ hself hid
  · exact .elsewhere hworker hid

theorem acts_turns (hacts : Acts r call result r') (id : GoString) :
    Turns r id call result (r.workers.get? id) (r'.workers.get? id) := by
  cases hacts with
  | refused => exact .refused
  | unhealthy hreading =>
    rw [show r.lost.workers.get? id = _ from GoMap.get?_mapValues _ _ _]
    exact .lost hreading
  | committed h =>
    refine turns_wrote rfl fun hid => ?_
    rw [← hid]
    exact .committed hid.symm h
  | @rejoined session record h =>
    by_cases hid : id = session.workerID
    · rw [hid, h.found]
      exact .rejoined rfl h
    · exact .elsewhere rfl hid
  | joined h hreading =>
    exact turns_wrote rfl fun hid => h.found ▸ .joined hid.symm h hreading
  | reported h hneeds hreading =>
    exact turns_wrote rfl fun hid => h.found ▸ .reported hid.symm h hneeds hreading
  | beat h hneeds hreading =>
    exact turns_wrote rfl fun hid => h.found ▸ .beat hid.symm h hneeds hreading
  | evaluated hreading =>
    rw [show GoMap.get? (GoMap.mapValues _ _) id = _ from GoMap.get?_mapValues _ _ _]
    exact .evaluated hreading
  | removed hfound hintent hdrain =>
    refine turns_wrote rfl ?_
    rintro rfl
    exact hfound ▸ .removed hintent hdrain
  | @meant workerID intent record hfound hintent hremoved =>
    by_cases hid : id = workerID
    · subst hid
      rw [hfound]
      exact .meant hintent hremoved
    · exact .elsewhere rfl hid
  | intended hfound hremoved hnew hintent =>
    refine turns_wrote rfl ?_
    rintro rfl
    exact hfound ▸ .intended hremoved hnew hintent
  | @confirmed observation record h hintent hdrain =>
    by_cases hid : id = observation.session.workerID
    · have hturns := @Turns.drained r id observation record hid.symm h hintent
      rw [← hdrain] at hturns
      rw [hid, h.found]
      rw [hid] at hturns
      exact hturns
    · exact .elsewhere rfl hid
  | drained h hintent =>
    exact turns_wrote rfl fun hid => h.found ▸ .drained hid.symm h hintent

theorem step_turns (hstep : registryMachine.step r call = (result, r')) (id : GoString) :
    Turns r id call result (r.workers.get? id) (r'.workers.get? id) :=
  acts_turns (step_acts hstep) id

end MiniCloud.WorkerRegistry
