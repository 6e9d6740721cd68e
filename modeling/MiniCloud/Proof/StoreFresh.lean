import MiniCloud.Proof.StoreView

/-!
# Freshness of the last known good view

A record remembers the reading at which its snapshot was installed, so its age at a later reading
is a difference of two readings of one clock. The invariant ties each record to the event of the
history that installed it: nothing installed since touches that Function, and nothing else moves the
reading. The guard turns a successful reading into the statement that no reading has gone back.
-/

namespace MiniCloud.GatewayDiscovery

open Lib Problem Digest ServingAuth Discovery

variable {s s' : Store} {call : Call} {answer : Answer}

/-- The call installed a snapshot for the Function. -/
def InstallsFor (functionID : GoString) (e : StoreEvent) : Prop :=
  ∃ event, installed e = some event ∧ (contents event.snapshots functionID).isSome = true

/-- The call that installed the Function last read `clock` at `reading`. -/
def LastInstall (clock : MonotonicClock) (functionID : GoString) (reading : Duration)
    (h : List StoreEvent) : Prop :=
  Since (fun e => InstallsFor functionID e ∧ clock e.pre.reads = reading)
    (fun e => ¬ InstallsFor functionID e) h

structure FreshInv (h : List StoreEvent) (s : Store) : Prop where
  tracks : ClockGuard.Tracks s.clock s.toClockGuard
  installed : ∀ functionID record, s.functions.get? functionID = some record →
    LastInstall s.clock functionID record.receivedAt h

/-! ## One call -/

/-- What no call touches. -/
structure SameConfig (s s' : Store) : Prop where
  clock : s'.clock = s.clock
  maxStale : s'.maxStale = s.maxStale
  maxFunctions : s'.maxFunctions = s.maxFunctions

theorem sameConfig_ticked (s : Store) : SameConfig s s.ticked := by
  obtain ⟨-, -, hclock, hstale, hlimit, -⟩ := ticked_frame s
  exact ⟨hclock, hstale, hlimit⟩

theorem step_sameConfig (hacts : Acts s call answer s') : SameConfig s s' := by
  have hticked := sameConfig_ticked s
  cases hacts with
  | stopped | looked => exact hticked
  | replaced | advanced => exact ⟨hticked.clock, hticked.maxStale, hticked.maxFunctions⟩
  | _ => exact ⟨rfl, rfl, rfl⟩

theorem run_sameConfig (s : Store) (calls : List Call) :
    SameConfig s (storeMachine.run s calls) := by
  have hr : storeMachine.Reachable s s := .init
  exact Machine.run_rel (fun _ => ⟨rfl, rfl, rfl⟩)
    (fun _ _ _ hab hbc => ⟨hbc.clock.trans hab.clock, hbc.maxStale.trans hab.maxStale,
      hbc.maxFunctions.trans hab.maxFunctions⟩)
    (fun s call _ => step_sameConfig (step_acts s call)) hr calls

theorem tracks_ticked {s : Store} (h : ClockGuard.Tracks s.clock s.toClockGuard) :
    ClockGuard.Tracks s.clock s.ticked.toClockGuard := by
  rw [ticked_guard]
  exact h.read

theorem tracks_step (hacts : Acts s call answer s')
    (h : ClockGuard.Tracks s.clock s.toClockGuard) :
    ClockGuard.Tracks s.clock s'.toClockGuard := by
  cases hacts with
  | stopped | replaced | advanced | looked => exact tracks_ticked h
  | _ => exact h

/-- The reading at which the held snapshot of a Function was installed. -/
def Store.receivedAt (s : Store) (functionID : GoString) : Option Duration :=
  (s.functions.get? functionID).map (·.receivedAt)

/-- A call that installs nothing moves no install time. -/
theorem receivedAt_step (hacts : Acts s call answer s')
    (hnone : installed ⟨s, call, answer, s'⟩ = none) : s'.receivedAt = s.receivedAt := by
  have hticked : s.ticked.receivedAt = s.receivedAt := by
    funext functionID
    rw [Store.receivedAt, ticked_functions, Store.receivedAt]
  cases hacts with
  | stopped | looked => exact hticked
  | replaced hr =>
    rw [installed_apply hr.fresh] at hnone
    cases hnone
  | advanced ha =>
    rw [installed_apply ha.fresh] at hnone
    cases hnone
  | @suppressed functionID assignment record hheld hmem =>
    funext id
    simp only [Store.receivedAt, GoMap.get?_set]
    split_ifs with hid
    · rw [hid, hheld]
      rfl
    · rfl
  | _ => rfl

/-- A refused event leaves the records and the position as they were. -/
theorem apply_error_unchanged {s : Store} {event : Event} {err : GoError}
    (herr : (Op.exec (Store.apply event) s).1 = .error err) :
    (Op.exec (Store.apply event) s).2.functions = s.functions ∧
      (Op.exec (Store.apply event) s).2.position = s.position := by
  have hacts := acts_apply s event
  simp only [Store.perform, herr] at hacts
  generalize (Op.exec (Store.apply event) s).2 = s' at hacts ⊢
  cases hacts with
  | stopped | looked => exact ⟨ticked_functions s, ticked_position s⟩
  | _ => exact ⟨rfl, rfl⟩

/-! ## The invariant -/

theorem not_installsFor {functionID : GoString} {e : StoreEvent} (h : installed e = none) :
    ¬ InstallsFor functionID e := by
  rintro ⟨event, hin, -⟩
  cases h.symm.trans hin

/-- A record that a call leaves alone keeps its last install. -/
theorem LastInstall.later {clock : MonotonicClock} {functionID : GoString} {reading : Duration}
    {h : List StoreEvent} {e : StoreEvent} (hlast : LastInstall clock functionID reading h)
    (hnot : ¬ InstallsFor functionID e) : LastInstall clock functionID reading (h ++ [e]) :=
  since_snoc.mpr (.inr ⟨hlast, hnot⟩)

theorem freshInv_step {h : List StoreEvent} {s : Store} (hinv : FreshInv h s) (call : Call) :
    FreshInv (h ++ [storeMachine.event s call]) (storeMachine.step s call).2 := by
  have hclock := (step_sameConfig (step_acts s call)).clock
  have hnow : ∀ {now}, (s.toClockGuard.read s.clock).1 = some now → now = s.clock s.reads :=
    fun hread => ((ClockGuard.read_eq_some hinv.tracks).mp hread).1
  refine ⟨by rw [hclock]; exact tracks_step (step_acts s call) hinv.tracks, ?_⟩
  intro functionID record hrecord
  rw [hclock]
  cases step_effect s call with
  | nothing hin _ =>
    -- the record may have a new suppression, but not a new reading
    have hsame := congrFun (receivedAt_step (step_acts s call) hin) functionID
    rw [Store.receivedAt, hrecord] at hsame
    obtain ⟨earlier, hearlier, heq⟩ := Option.map_eq_some_iff.mp hsame.symm
    rw [show record.receivedAt = earlier.receivedAt from heq.symm]
    exact (hinv.installed functionID earlier hearlier).later (not_installsFor hin)
  | @full event normalized fingerprint now hin hr hpost _ _ _ =>
    rw [show (storeMachine.step s call).2 = _ from hpost, get?_replaced hr] at hrecord
    obtain ⟨snapshot, hfound, rfl⟩ := Option.map_eq_some_iff.mp hrecord
    exact since_snoc.mpr (.inl ⟨⟨event, hin, by rw [hfound]; rfl⟩, (hnow hr.reading).symm⟩)
  | @incremental event normalized snapshot fingerprint now hin ha hpost _ _ _ =>
    rw [show (storeMachine.step s call).2 = _ from hpost, get?_advanced] at hrecord
    have hfound := ha.contents_eq functionID
    split_ifs at hrecord hfound
    · cases hrecord
      exact since_snoc.mpr (.inl ⟨⟨event, hin, by rw [hfound]; rfl⟩, (hnow ha.reading).symm⟩)
    · refine (hinv.installed functionID record hrecord).later ?_
      rintro ⟨other, hother, hsome⟩
      cases hin.symm.trans hother
      rw [hfound] at hsome
      cases hsome

/-! ## Whole runs -/

theorem freshInv_run {processClock : MonotonicClock} {config : Config} {s₀ : Store}
    (hnew : new processClock config = .ok s₀) (calls : List Call) :
    FreshInv (storeMachine.events s₀ calls) (storeMachine.run s₀ calls) := by
  obtain ⟨hguard, hempty, -⟩ := new_ok hnew
  refine Machine.trace (P := FreshInv) ?_ (fun h s call _ hinv => freshInv_step hinv call) calls
  refine ⟨?_, by simp [hempty]⟩
  rw [hguard]
  exact ClockGuard.tracks_start _

/-- A usable record of a store with a positive bound is younger than the bound. -/
theorem age_of_usable {s : Store} {record : FunctionRecord} {now : Duration}
    (hpositive : 0 < s.maxStale) (husable : s.usableLocked record now = true) :
    now - record.receivedAt < s.maxStale := by
  rw [Store.usableLocked, if_neg (Int.ne_of_gt hpositive)] at husable
  simpa using (Bool.and_eq_true_iff.mp husable).2

/--
**Last-known-good freshness.** After any run from `New` with a positive bound, whatever the clock
returns: a lookup succeeds only if its reading is less than the bound after the reading of the call
that last installed the Function, and a lookup of everything only if that holds of every held
Function. Once a reading has gone back, nothing is served or installed again. A call that installs
nothing moves no install time, and a refused event changes neither records nor position.
-/
theorem last_known_good {processClock : MonotonicClock} {config : Config} {s₀ : Store}
    (hnew : new processClock config = .ok s₀) (hpositive : 0 < s₀.maxStale) (calls : List Call) :
    let h := storeMachine.events s₀ calls
    let s := storeMachine.run s₀ calls
    (∀ functionID view, (Op.exec (Store.lookup functionID) s).1 = .ok view →
      ∃ reading, LastInstall s₀.clock functionID reading h ∧
        s₀.clock s.reads - reading < s₀.maxStale) ∧
    (∀ views, (Op.exec Store.lookupAll s).1 = .ok views → ∀ functionID,
      (s.held functionID).isSome = true → ∃ reading, LastInstall s₀.clock functionID reading h ∧
        s₀.clock s.reads - reading < s₀.maxStale) ∧
    (∀ e ∈ h, installed e = none → e.post.receivedAt = e.pre.receivedAt) ∧
    (¬ ClockGuard.Steady s₀.clock s.reads →
      (∀ functionID view, (Op.exec (Store.lookup functionID) s).1 ≠ .ok view) ∧
      (∀ views, (Op.exec Store.lookupAll s).1 ≠ .ok views) ∧
      ∀ event, installed (storeMachine.event s (.apply event)) = none) ∧
    ∀ event err, (Op.exec (Store.apply event) s).1 = .error err →
      (Op.exec (Store.apply event) s).2.functions = s.functions ∧
        (Op.exec (Store.apply event) s).2.position = s.position := by
  intro h s
  have hinv : FreshInv h s := freshInv_run hnew calls
  have hconfig : SameConfig s₀ s := run_sameConfig s₀ calls
  rw [← hconfig.clock, ← hconfig.maxStale]
  rw [← hconfig.maxStale] at hpositive
  -- an installed record is fresh at a reading that finds it usable
  have hfresh : ∀ functionID record now, (s.toClockGuard.read s.clock).1 = some now →
      s.functions.get? functionID = some record → s.usableLocked record now = true →
      ∃ reading, LastInstall s.clock functionID reading h ∧
        s.clock s.reads - reading < s.maxStale := by
    intro functionID record now hread hrecord husable
    obtain ⟨rfl, -⟩ := (ClockGuard.read_eq_some hinv.tracks).mp hread
    exact ⟨_, hinv.installed functionID record hrecord, age_of_usable hpositive husable⟩
  refine ⟨fun functionID view hok => ?_, fun views hok functionID hheld => ?_, ?_, ?_,
    fun event err => apply_error_unchanged⟩
  · obtain ⟨-, record, now, hopen, hrecord, husable, -⟩ := lookup_ok.mp hok
    exact hfresh functionID record now hopen.reading hrecord husable
  · obtain ⟨now, hopen, husable, -⟩ := lookupAll_ok.mp hok
    obtain ⟨snapshot, hsnapshot⟩ := Option.isSome_iff_exists.mp hheld
    obtain ⟨record, hrecord, -⟩ := Option.map_eq_some_iff.mp hsnapshot
    exact hfresh functionID record now hopen.reading hrecord (husable functionID record hrecord)
  · intro e he hnone
    obtain ⟨-, -, -, -, heq⟩ := Machine.mem_events he
    rw [heq] at hnone ⊢
    exact receivedAt_step (step_acts _ _) hnone
  · intro hback
    have hunhealthy : s.clockHealthy = false :=
      Bool.eq_false_iff.mpr fun hh => hback (hinv.tracks.healthy.mp hh)
    obtain ⟨hlookup, hall⟩ := closed_not_served (.inl hunhealthy)
    refine ⟨hlookup, hall, fun event => ?_⟩
    cases step_effect s (.apply event) with
    | nothing hin _ => exact hin
    | full _ hr _ _ _ _ => exact absurd hr.healthy (by simp [storeMachine, Machine.event, hunhealthy])
    | incremental _ ha _ _ _ _ =>
      exact absurd ha.healthy (by simp [storeMachine, Machine.event, hunhealthy])

/-- The theorem at the sample: it was installed at the reading at which it is served. -/
theorem last_known_good_sample : ∃ reading,
    LastInstall sampleStore.clock "function-1" reading
      (storeMachine.events sampleStore [.apply (sampleFull 5)]) ∧
    sampleStore.clock (storeMachine.run sampleStore [.apply (sampleFull 5)]).reads - reading <
      sampleStore.maxStale := by
  obtain ⟨fingerprint, -, hexec⟩ := sampleFull_installed (by decide : (5 : UInt64) ≠ 0)
  have hview : (Op.exec (Store.lookup "function-1")
      (storeMachine.run sampleStore [.apply (sampleFull 5)])).1 =
        .ok (visibleSnapshot (sampleStore.ticked.received (sampleSnapshot 5) 0)) := by
    rw [Machine.run_cons, Machine.run_nil, step_apply, hexec]
    rfl
  have hpositive : 0 < sampleStore.maxStale := by decide
  exact (last_known_good sampleStore_new hpositive [.apply (sampleFull 5)]).1 "function-1" _ hview

end MiniCloud.GatewayDiscovery
