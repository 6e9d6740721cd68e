import MiniCloud.Proof.RegistryInv

/-!
# Removal and the drain proof

A Worker is removed when its drain flag says so, and the flag is the verdict of the last accepted
drain observation. The observation names a session; the flag does not. `CommitSession` clears
everything the old session reported except the flag, so a removal may rest on a proof of a session
that is no longer the committed one. It rests on one of the current session exactly when no session
was committed since.
-/

namespace MiniCloud.WorkerRegistry

open Lib Problem Digest Model ServingAuth Scheduler

/-- The call reports a drain observation of the Worker, and is accepted. -/
structure Drains (id : GoString) (observation : DrainObservation) (e : RegistryEvent) : Prop where
  input : e.input = .updateDrain observation
  worker : observation.session.workerID = id
  accepted : e.output = .ok ()

/-- The call changes the intent for the Worker. -/
def Redirects (id : GoString) (e : RegistryEvent) : Prop :=
  ∃ record record', e.pre.workers.get? id = some record ∧ e.post.workers.get? id = some record' ∧
    record'.intent ≠ record.intent

/-- The last accepted observation in the current draining is a proof. -/
def LastProves (id : GoString) (history : List RegistryEvent) : Prop :=
  Since (fun e => ∃ observation, Drains id observation e ∧ observation.proves = true)
    (fun e => (∀ observation, ¬ Drains id observation e) ∧ ¬ Redirects id e) history

theorem redirects_none {id : GoString} {e : RegistryEvent} {record : WorkerRecord}
    (hpre : e.pre.workers.get? id = some record)
    (h : ∀ record', e.post.workers.get? id = some record' → record'.intent = record.intent) :
    ¬ Redirects id e := by
  rintro ⟨old, new, hold, hnew, hne⟩
  cases hpre.symm.trans hold
  exact hne (h new hnew)

section Turns

variable {history : List RegistryEvent} {r r' : Registry} {id : GoString} {call : RegistryCall}
  {result : Except GoError Unit}

/-- A call that is no observation of the Worker and keeps its two fields keeps what they say. -/
theorem lastProves_kept {record record' : WorkerRecord}
    (h : record.intent = .draining → record.drain = .drained → LastProves id history)
    (hpre : r.workers.get? id = some record) (hpost : r'.workers.get? id = some record')
    (hintent : record'.intent = record.intent) (hdrain : record'.drain = record.drain)
    (hdrains : ∀ observation, ¬ Drains id observation ⟨r, call, result, r'⟩) :
    record'.intent = .draining → record'.drain = .drained →
      LastProves id (history ++ [⟨r, call, result, r'⟩]) := by
  intro hdraining hdrained
  refine since_snoc.mpr (.inr ⟨h (hintent ▸ hdraining) (hdrain ▸ hdrained), hdrains,
    redirects_none hpre fun found hfound => ?_⟩)
  cases hpost.symm.trans hfound
  exact hintent

theorem lose_intent (record : WorkerRecord) : (Registry.lose record).intent = record.intent ∧
    (Registry.lose record).drain = record.drain := by
  rw [Registry.lose]
  split <;> exact ⟨rfl, rfl⟩

theorem classify_intent (r : Registry) (now : Duration) (record : WorkerRecord) :
    (r.classify now record).intent = record.intent ∧
      (r.classify now record).drain = record.drain := by
  rw [Registry.classify]
  split <;> exact ⟨rfl, rfl⟩

theorem lastProves_turns {o o' : Option WorkerRecord} (hturns : Turns r id call result o o')
    (hpre : r.workers.get? id = o) (hpost : r'.workers.get? id = o')
    (h : ∀ record, o = some record → record.intent = .draining → record.drain = .drained →
      LastProves id history) :
    ∀ record, o' = some record → record.intent = .draining → record.drain = .drained →
      LastProves id (history ++ [⟨r, call, result, r'⟩]) := by
  intro record' heq
  cases hturns with
  | refused =>
    exact lastProves_kept (h record' heq) (hpre.trans heq) (hpost.trans heq) rfl rfl
      fun _ hd => (by cases hd.accepted)
  | lost =>
    obtain ⟨record, hrecord, rfl⟩ := Option.map_eq_some_iff.mp heq
    exact lastProves_kept (h record hrecord) (hpre.trans hrecord) (hpost.trans heq)
      (lose_intent record).1 (lose_intent record).2 fun _ hd => (by cases hd.accepted)
  | elsewhere hworker hother =>
    refine lastProves_kept (h record' heq) (hpre.trans heq) (hpost.trans heq) rfl rfl
      fun observation hd => hother ?_
    obtain rfl : call = .updateDrain observation := hd.input
    exact hd.worker.symm.trans (Option.some.inj hworker)
  | @committed session record hid hc =>
    cases heq
    rcases hc.found with hfound | ⟨-, rfl, -⟩
    · rw [hid] at hfound
      exact lastProves_kept (h record hfound) hfound hpost rfl rfl fun _ hd => (by cases hd.input)
    · intro hintent
      cases hintent
  | rejoined | meant =>
    exact lastProves_kept (h record' heq) (hpre.trans heq) (hpost.trans heq) rfl rfl
      fun _ hd => (by cases hd.input)
  | joined | reported | beat =>
    cases heq
    exact lastProves_kept (h _ rfl) hpre hpost rfl rfl fun _ hd => (by cases hd.input)
  | @evaluated _ now =>
    obtain ⟨record, hrecord, rfl⟩ := Option.map_eq_some_iff.mp heq
    exact lastProves_kept (h record hrecord) (hpre.trans hrecord) (hpost.trans heq)
      (classify_intent r now record).1 (classify_intent r now record).2
      fun _ hd => (by cases hd.input)
  | removed =>
    cases heq
    intro hintent
    cases hintent
  | @intended intent record hremoved hnew hintent =>
    cases heq
    intro hdraining hdrained
    -- draining starts over with the flag down
    rcases hintent with rfl | rfl
    · cases hdraining
    · cases hdrained
  | @drained observation record hid hc hintent =>
    cases heq
    intro _ hdrained
    change observation.next = .drained at hdrained
    refine since_snoc.mpr (.inl ⟨observation, ⟨rfl, hid, rfl⟩, ?_⟩)
    rw [DrainObservation.next] at hdrained
    split at hdrained
    next hproves => exact hproves
    next => cases hdrained

end Turns

theorem lastProves_run {process : MonotonicClock} {config : Config} {r₀ : Registry}
    (hnew : new process config = .ok r₀) (calls : List RegistryCall) (id : GoString) :
    ∀ record, (registryMachine.run r₀ calls).workers.get? id = some record →
      record.intent = .draining → record.drain = .drained →
      LastProves id (registryMachine.events r₀ calls) := by
  refine Machine.trace (P := fun history r => ∀ record, r.workers.get? id = some record →
    record.intent = .draining → record.drain = .drained → LastProves id history) ?_ ?_ calls
  · intro record hrecord
    obtain ⟨⟨⟩, -, hr⟩ := bind_ok.mp hnew
    cases hr
    cases hrecord
  · intro history r call hreach h
    exact lastProves_turns (step_turns rfl id) rfl rfl h

/-! ## Which session the proof is of -/

/-- The observation is the last one accepted in the current draining, and reports it finished. -/
structure RestsOn (id : GoString) (history : List RegistryEvent) (e : RegistryEvent)
    (observation : DrainObservation) : Prop where
  last : ∃ earlier between, history = earlier ++ e :: between ∧
    ∀ x ∈ between, (∀ observation', ¬ Drains id observation' x) ∧ ¬ Redirects id x
  accepted : Drains id observation e
  active : observation.activeInvocations = 0
  assignments : observation.assignmentsDrained = true
  fence : observation.gatewayFencesAcked = true ∨ observation.authorizationExpired = true

/-- The removal rests on a proof, of the session committed and registered when it was given. -/
def Proved (id : GoString) (history : List RegistryEvent) : Prop :=
  ∃ e observation record, RestsOn id history e observation ∧
    Current e.pre observation.session record

/-- The removal rests on an observation of the session that is committed then. -/
def ProvedNow (id : GoString) (history : List RegistryEvent) (r : Registry) : Prop :=
  ∃ e observation, RestsOn id history e observation ∧
    ∃ record, r.workers.get? id = some record ∧ observation.session = record.current

/-- No session of the Worker was committed since its last accepted observation. -/
def UncommittedSince (id : GoString) (history : List RegistryEvent) : Prop :=
  Since (fun e => ∃ observation, Drains id observation e) (fun e => committedFor id e = none) history

theorem proves_iff {o : DrainObservation} : o.proves = true ↔ o.activeInvocations = 0 ∧
    o.assignmentsDrained = true ∧ (o.gatewayFencesAcked = true ∨ o.authorizationExpired = true) := by
  simp only [DrainObservation.proves, Bool.and_eq_true, beq_iff_eq, Bool.or_eq_true, and_assoc]

/-- An accepted observation is of the session committed last. -/
theorem drains_current {r : Registry} {call : RegistryCall} {id : GoString}
    {observation : DrainObservation} (h : Drains id observation (registryMachine.event r call)) :
    ∃ record, Current r observation.session record := by
  obtain ⟨hinput, -, haccepted⟩ := h
  obtain rfl : call = .updateDrain observation := hinput
  rcases hstep : registryMachine.step r (.updateDrain observation) with ⟨result, r'⟩
  obtain rfl : result = .ok () := (congrArg Prod.fst hstep).symm.trans haccepted
  cases step_acts hstep with
  | confirmed hc | drained hc => exact ⟨_, hc⟩

theorem commits_none {id : GoString} {history : List RegistryEvent}
    (h : ∀ e ∈ history, committedFor id e = none) : commits id history = [] :=
  List.filterMap_eq_nil_iff.mpr h

section Sessions

variable {process : MonotonicClock} {config : Config} {r₀ : Registry} {calls : List RegistryCall}
  {id : GoString} {earlier between : List RegistryEvent} {e : RegistryEvent}
  {observation : DrainObservation} {record : WorkerRecord}

/-- The observed session is still the current one exactly when nothing was committed after it. -/
theorem observed_current (hnew : new process config = .ok r₀)
    (hsplit : registryMachine.events r₀ calls = earlier ++ e :: between)
    (hdrains : Drains id observation e)
    (hrecord : (registryMachine.run r₀ calls).workers.get? id = some record) :
    observation.session = record.current ↔ ∀ x ∈ between, committedFor id x = none := by
  obtain ⟨calls₁, call, calls₂, -, hearlier, he, -⟩ := Machine.events_split hsplit
  have hlast := ((accounted_run hnew calls id).record record hrecord).last
  have hnumbered := (accounted_run hnew calls id).numbered
  rw [he] at hdrains
  obtain ⟨old, hcurrent⟩ := drains_current hdrains
  have hthen := ((accounted_run hnew calls₁ id).record old (hdrains.worker ▸ hcurrent.found)).last
  rw [← hearlier, hcurrent.current] at hthen
  have hobserved : committedFor id e = none := by
    rw [he]
    exact committedFor_none fun session hinput => by cases hdrains.input.symm.trans hinput
  have hcommits : commits id (registryMachine.events r₀ calls) =
      commits id earlier ++ commits id between := by
    rw [hsplit, commits, List.filterMap_append, List.filterMap_cons_none hobserved]
    rfl
  rw [hcommits] at hlast hnumbered
  constructor
  · intro hsame
    by_contra hcommitted
    -- a later commit has a higher epoch than the observed session
    have hne : commits id between ≠ [] := by
      rw [commits, Ne, List.filterMap_eq_nil_iff]
      exact hcommitted
    rw [List.getLast?_append_of_ne_nil _ hne] at hlast
    obtain ⟨i, hi⟩ := List.mem_iff_getElem?.mp (List.mem_of_getLast? hthen)
    obtain ⟨j, hj⟩ := List.mem_iff_getElem?.mp (List.mem_of_getLast? hlast)
    have hlt : i < (commits id earlier).length := (List.getElem?_eq_some_iff.mp hi).1
    have hi' := hnumbered i _ ((List.getElem?_append_left hlt).trans hi)
    have hj' := hnumbered ((commits id earlier).length + j) _
      ((List.getElem?_append_right (by omega)).trans (by rw [Nat.add_sub_cancel_left]; exact hj))
    rw [hsame] at hi'
    omega
  · intro hnone
    rw [commits_none hnone, List.append_nil, hthen] at hlast
    exact Option.some.inj hlast

end Sessions

/-- A successful removal finds the record drained. -/
theorem removal_drained {r : Registry} {call : RegistryCall} {id : GoString}
    (hinput : call = .setIntent id .removed)
    (houtput : (registryMachine.step r call).1 = .ok ()) : ∃ record,
      r.workers.get? id = some record ∧ record.intent = .draining ∧ record.drain = .drained := by
  subst hinput
  rcases hstep : registryMachine.step r (.setIntent id .removed) with ⟨result, r'⟩
  rw [hstep] at houtput
  obtain rfl : result = .ok () := houtput
  cases step_acts hstep with
  | removed hfound hintent hdrain => exact ⟨_, hfound, hintent, hdrain⟩
  | meant hfound hintent hremoved => exact absurd rfl hremoved
  | intended hfound hremoved hnew hintent => rcases hintent with h | h <;> cases h

/--
**A removal and its drain proof.** In every run, a successful removal rests on the last observation
accepted in the draining, which reported it finished, of the session committed and registered at
that observation. It is a proof of the session committed at the removal exactly when no session was
committed since.
-/
theorem removal_proved {process : MonotonicClock} {config : Config} {r₀ : Registry}
    (hnew : new process config = .ok r₀) {calls : List RegistryCall}
    {before after : List RegistryEvent} {e : RegistryEvent} {id : GoString}
    (hsplit : registryMachine.events r₀ calls = before ++ e :: after)
    (hinput : e.input = .setIntent id .removed) (houtput : e.output = .ok ()) :
    Proved id before ∧ (ProvedNow id before e.pre ↔ UncommittedSince id before) := by
  obtain ⟨calls₁, call, calls₂, -, hbefore, he, -⟩ := Machine.events_split hsplit
  subst he
  obtain ⟨record, hrecord, hintent, hdrain⟩ := removal_drained hinput houtput
  change (registryMachine.run r₀ calls₁).workers.get? id = some record at hrecord
  show Proved id before ∧ (ProvedNow id before (registryMachine.run r₀ calls₁) ↔ _)
  obtain ⟨earlier, d, between, hhistory, ⟨observation, hdrains, hproves⟩, hbetween⟩ :=
    lastProves_run hnew calls₁ id record hrecord hintent hdrain
  obtain ⟨hactive, hassignments, hfence⟩ := proves_iff.mp hproves
  have hrests : RestsOn id before d observation :=
    ⟨⟨earlier, between, hbefore.trans hhistory, hbetween⟩, hdrains, hactive, hassignments, hfence⟩
  refine ⟨?_, ?_, ?_⟩
  · obtain ⟨calls₂, call, -, -, -, rfl, -⟩ := Machine.events_split hhistory
    obtain ⟨old, hcurrent⟩ := drains_current hdrains
    exact ⟨_, observation, old, hrests, hcurrent⟩
  · rintro ⟨d', observation', ⟨⟨earlier', between', hhistory', -⟩, hdrains', -, -, -⟩, found,
      hfound, hsame⟩
    exact ⟨earlier', d', between', hhistory', ⟨observation', hdrains'⟩,
      (observed_current hnew (hbefore.symm.trans hhistory') hdrains' hfound).mp hsame⟩
  · intro huncommitted
    refine ⟨d, observation, hrests, record, hrecord,
      (observed_current hnew hhistory hdrains hrecord).mpr ?_⟩
    -- no later observation was accepted, so nothing was committed after this one either
    rw [hbefore, hhistory, List.append_cons] at huncommitted
    exact huncommitted.of_append fun x hx ⟨observation', hdrains'⟩ =>
      (hbetween x hx).1 observation' hdrains'

/-! ## A sample run -/

def sampleNextSession : WorkerSession := ⟨"worker-1", "boot-2", 2⟩

/-- A proof of the first session. -/
def sampleProof : DrainObservation := ⟨sampleSession, 0, true, true, false⟩

def sampleDrain : List RegistryCall :=
  [.commitSession sampleSession, .register sampleSession, .setIntent "worker-1" .draining,
    .updateDrain sampleProof]

/-- A removal right after the proof, and one after the Worker has come back. -/
def sampleRemoval : List RegistryCall := sampleDrain ++ [.setIntent "worker-1" .removed]

def sampleLateRemoval : List RegistryCall :=
  sampleDrain ++ [.commitSession sampleNextSession] ++ [.setIntent "worker-1" .removed]

theorem removal_proved_sample :
    Proved "worker-1" (registryMachine.events sampleRegistry sampleDrain) ∧
      (ProvedNow "worker-1" (registryMachine.events sampleRegistry sampleDrain)
          (registryMachine.run sampleRegistry sampleDrain) ↔
        UncommittedSince "worker-1" (registryMachine.events sampleRegistry sampleDrain)) :=
  @removal_proved _ _ _ sampleRegistry_new sampleRemoval _ [] _ _
    (Machine.events_append _ _ _ _) rfl rfl

/-- The removal of a Worker whose new session has proved nothing. -/
theorem removal_of_unproved_session : ∃ e : RegistryEvent,
    registryMachine.events sampleRegistry sampleLateRemoval =
      registryMachine.events sampleRegistry (sampleDrain ++ [.commitSession sampleNextSession]) ++
        e :: [] ∧
    e.input = .setIntent "worker-1" .removed ∧ e.output = .ok () ∧
    ¬ ProvedNow "worker-1"
      (registryMachine.events sampleRegistry (sampleDrain ++ [.commitSession sampleNextSession]))
      e.pre := by
  refine ⟨_, Machine.events_append _ _ _ _, rfl, rfl, ?_⟩
  rintro ⟨d, observation, ⟨⟨earlier, between, hhistory, -⟩, hdrains, -, -, -⟩, record, hrecord,
    hsession⟩
  -- the only observation of the run names the first session, and the second one is current
  have hcurrent : record.current = sampleNextSession := by
    cases hrecord
    rfl
  have hmem : d ∈ registryMachine.events sampleRegistry
      (sampleDrain ++ [.commitSession sampleNextSession]) := by
    rw [hhistory]
    simp
  obtain ⟨is₁, is₂, hcalls, -, -⟩ := Machine.mem_events hmem
  have hcall : .updateDrain observation ∈ sampleDrain ++ [.commitSession sampleNextSession] := by
    rw [hcalls, hdrains.input]
    simp
  simp only [sampleDrain, List.cons_append, List.nil_append, List.mem_cons, List.not_mem_nil,
    reduceCtorEq, RegistryCall.updateDrain.injEq, false_or, or_false] at hcall
  rw [hcall, hcurrent] at hsession
  cases hsession

end MiniCloud.WorkerRegistry
