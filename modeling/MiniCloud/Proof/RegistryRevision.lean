import MiniCloud.Proof.RegistryInv

/-!
# What a registry revision stands for

A call that changes what `Snapshot` shows advances the revision, with one exception: a reading of
the clock that went back takes the registered Workers away at the revision there was. It leaves the
clock unhealthy for good, so the revision identifies the view among the Snapshots that say that
the clock is healthy. `Evaluate` advances by one for every Worker it reclassifies, which is why the
room left for the counter is measured in Workers.
-/

namespace MiniCloud.WorkerRegistry

open Lib Problem Digest Model ServingAuth Scheduler

variable {r r' : Registry} {record : WorkerRecord}

/-- The view of a Worker but for the time of its last heartbeat. -/
def WorkerView.still (view : WorkerView) : WorkerView := { view with lastHeartbeat := 0 }

def SameView (r r' : Registry) : Prop :=
  ∀ id, (r'.workers.get? id).map (·.view.still) = (r.workers.get? id).map (·.view.still)

/-- The revision advances by some number, and by none only if nobody looks different. -/
def Marks (r r' : Registry) : Prop :=
  (r'.clockHealthy = true → r.clockHealthy = true) ∧ ∃ n ≤ r.workers.len + 1,
    r'.revision = r.revision + UInt64.ofNat n ∧
      (n = 0 → r'.clockHealthy = true → SameView r r')

theorem Marks.refl : Marks r r :=
  ⟨id, 0, Nat.zero_le _, (UInt64.add_zero _).symm, fun _ _ _ => rfl⟩

theorem Marks.bumped (hclock : r'.clockHealthy = true → r.clockHealthy = true)
    (hrevision : r'.revision = r.revision + 1) : Marks r r' :=
  ⟨hclock, 1, Nat.le_add_left .., hrevision, by simp⟩

theorem ticked_healthy (h : r.ticked.clockHealthy = true) : r.clockHealthy = true := by
  rw [Registry.ticked, ClockGuard.read] at h
  split_ifs at h
  exact h

theorem Marks.lost (h : r.reading = none) : Marks r r.lost := by
  have hunhealthy : r.lost.clockHealthy = false := reading_none h
  refine ⟨ticked_healthy, 0, Nat.zero_le _, (UInt64.add_zero _).symm, fun _ hhealthy => ?_⟩
  cases hunhealthy.symm.trans hhealthy

/-- A heartbeat that revives nobody only moves a time. -/
theorem Marks.beat {now : Duration} {session : WorkerSession}
    (hfound : r.workers.get? session.workerID = some record) :
    Marks r (r.ticked.wrote session.workerID { record with lastHeartbeat := now } r.revision) := by
  refine ⟨ticked_healthy, 0, Nat.zero_le _, (UInt64.add_zero _).symm, fun _ _ id => ?_⟩
  show (GoMap.get? (r.workers.set _ _) id).map _ = _
  rw [GoMap.get?_set]
  split_ifs with hid
  · rw [hid, hfound]
    rfl
  · rfl

/-- A turn of the loop that keeps the state keeps the view. -/
theorem classify_view {now : Duration} (h : (r.classify now record).state = record.state) :
    (r.classify now record).view = record.view := by
  rw [Registry.classify] at h ⊢
  split_ifs at h ⊢
  · rw [show r.liveness _ = record.state from h]
  · rfl

theorem Marks.evaluated {now : Duration} :
    Marks r { r.ticked with
      workers := r.workers.mapValues (r.classify now)
      revision := r.revision + UInt64.ofNat (r.changes now) } := by
  refine ⟨ticked_healthy, r.changes now, ?_, rfl, fun hnone _ id => ?_⟩
  · exact (List.countP_le_length).trans (Nat.le_succ _)
  show (GoMap.get? (r.workers.mapValues (r.classify now)) id).map _ = _
  rw [GoMap.get?_mapValues, Option.map_map]
  cases hfound : r.workers.get? id with
  | none => rfl
  | some record =>
    have hkept : (r.classify now record).state = record.state := by
      by_contra hchanged
      have hpos := GoMap.count_pos (p := fun _ record =>
        (r.classify now record).state != record.state) hfound (by simpa using hchanged)
      exact absurd hnone (Nat.ne_of_gt hpos)
    simp only [Option.map_some, Function.comp_apply, classify_view hkept]

theorem step_marks (r : Registry) (call : RegistryCall) :
    Marks r (registryMachine.step r call).2 := by
  rcases hstep : registryMachine.step r call with ⟨result, r'⟩
  cases step_acts hstep with
  | unhealthy hreading => exact .lost hreading
  | committed | removed | intended | drained => exact .bumped id rfl
  | joined | reported => exact .bumped ticked_healthy rfl
  | @beat session record now h =>
    by_cases hrevives : record.revives = true
    · rw [if_pos hrevives, if_pos hrevives]
      exact .bumped ticked_healthy rfl
    · rw [if_neg hrevives, if_neg hrevives]
      exact .beat h.found
  | evaluated => exact .evaluated
  | _ => exact .refl

/-! ## Runs -/

/-- The counter has room for a change of every Worker. -/
def Room (e : RegistryEvent) : Prop := e.pre.revision.toNat + e.pre.workers.len + 1 < 2 ^ 64

theorem Marks.revision (h : Marks r r')
    (hroom : r.revision.toNat + r.workers.len + 1 < 2 ^ 64) :
    r.revision ≤ r'.revision ∧
      (r.revision = r'.revision → r'.clockHealthy = true → SameView r r') := by
  obtain ⟨-, n, hn, hrevision, hsame⟩ := h
  have hadd : r'.revision.toNat = r.revision.toNat + n := by
    rw [hrevision, UInt64.toNat_add, UInt64.toNat_ofNat']
    omega
  refine ⟨UInt64.le_iff_toNat_le.mpr (by omega), fun heq => hsame ?_⟩
  rw [heq] at hadd
  omega

theorem run_marks (calls : List RegistryCall)
    (hroom : ∀ e ∈ registryMachine.events r calls, Room e) :
    r.revision ≤ (registryMachine.run r calls).revision ∧
      ((registryMachine.run r calls).clockHealthy = true → r.clockHealthy = true ∧
        (r.revision = (registryMachine.run r calls).revision →
          SameView r (registryMachine.run r calls))) := by
  induction calls generalizing r with
  | nil => exact ⟨UInt64.le_refl _, fun h => ⟨h, fun _ _ => rfl⟩⟩
  | cons call calls ih =>
    have hmarks := step_marks r call
    have hhere : Room (registryMachine.event r call) := hroom _ List.mem_cons_self
    obtain ⟨hle, hsame⟩ := hmarks.revision hhere
    obtain ⟨hrest, hlater⟩ := ih fun e he => hroom e (List.mem_cons_of_mem _ he)
    refine ⟨UInt64.le_trans hle hrest, fun hhealthy => ?_⟩
    obtain ⟨hthere, hview⟩ := hlater hhealthy
    refine ⟨hmarks.1 hthere, fun heq id => ?_⟩
    have hmid : r.revision = (registryMachine.step r call).2.revision :=
      UInt64.le_antisymm hle (heq ▸ hrest)
    exact (hview (hmid ▸ heq) id).trans (hsame hmid hthere id)

/-- Maps that hold the same up to `f` list the same up to `f`. -/
theorem perm_of_map {K V W : Type} [DecidableEq K] (f : V → W) {m n : GoMap K V}
    (h : ∀ k, (m.get? k).map f = (n.get? k).map f) :
    (m.toList.map fun e => f e.2).Perm (n.toList.map fun e => f e.2) := by
  have hmem : ∀ (m : GoMap K V) e,
      e ∈ m.toList.map (Prod.map id f) ↔ (m.get? e.1).map f = some e.2 := by
    intro m e
    simp only [List.mem_map, Prod.exists, GoMap.mem_toList, Option.map_eq_some_iff]
    constructor
    · rintro ⟨k, v, hv, rfl⟩
      exact ⟨v, hv, rfl⟩
    · rintro ⟨v, hv, heq⟩
      exact ⟨e.1, v, hv, Prod.ext rfl heq⟩
  have hnodup : ∀ m : GoMap K V, (m.toList.map (Prod.map id f)).Nodup := by
    intro m
    refine List.Nodup.of_map Prod.fst ?_
    rw [List.map_map]
    exact m.toList_keys_nodup
  have hperm : (m.toList.map (Prod.map id f)).Perm (n.toList.map (Prod.map id f)) := by
    rw [List.perm_ext_iff_of_nodup (hnodup m) (hnodup n)]
    intro e
    rw [hmem, hmem, h]
  have hsnd := hperm.map Prod.snd
  rwa [List.map_map, List.map_map] at hsnd

theorem SameView.perm (h : SameView r r') :
    (r'.snapshot.workers.map WorkerView.still).Perm (r.snapshot.workers.map WorkerView.still) := by
  have hlisted := fun s : Registry => (sortFunc_perm (compareOn fun view : WorkerView =>
    view.snapshot.session.workerID) (s.workers.toList.map fun e => e.2.view)).map WorkerView.still
  refine (hlisted r').trans (.trans ?_ (hlisted r).symm)
  rw [List.map_map, List.map_map]
  exact perm_of_map (fun record : WorkerRecord => record.view.still) h

/--
**The revision identifies the view**, as long as the clock is healthy. Between two Snapshots of a
run the revision never decreases; if it has not advanced and the later one says that the clock is
healthy, they show the same Workers with the same fields, heartbeat times apart.
-/
theorem revision_identifies_view (r : Registry) (calls : List RegistryCall)
    (hroom : ∀ e ∈ registryMachine.events r calls, Room e) :
    let earlier := r.snapshot
    let later := (registryMachine.run r calls).snapshot
    earlier.revision ≤ later.revision ∧
      (later.clockHealthy = true → earlier.revision = later.revision →
        (later.workers.map WorkerView.still).Perm (earlier.workers.map WorkerView.still)) := by
  obtain ⟨hle, hsame⟩ := run_marks calls hroom
  exact ⟨hle, fun hhealthy heq => ((hsame hhealthy).2 heq).perm⟩

/-- A heartbeat of the Worker of the sample does not show. -/
theorem revision_identifies_view_sample :
    let earlier := (registryMachine.run sampleRegistry sampleCalls).snapshot
    let later := (registryMachine.run sampleRegistry
      (sampleCalls ++ [.heartbeat sampleSession])).snapshot
    (later.workers.map WorkerView.still).Perm (earlier.workers.map WorkerView.still) := by
  rw [Machine.run_append]
  refine (revision_identifies_view _ [.heartbeat sampleSession] fun e he => ?_).2 rfl rfl
  cases List.mem_singleton.mp he
  show 3 + 1 + 1 < 2 ^ 64
  decide

def fallingClock : MonotonicClock := fun n => if n = 1 then 1 else 0

def fallingRegistry : Registry := { sampleRegistry with
  toClockGuard := .start fallingClock, clock := fallingClock }

/-- The clock goes back under a heartbeat: the Worker is gone at the revision it joined with. -/
theorem revision_hides_loss :
    new fallingClock sampleConfig = .ok fallingRegistry ∧
    let r := registryMachine.run fallingRegistry
      [.commitSession sampleSession, .register sampleSession]
    let r' := registryMachine.run r [.heartbeat sampleSession]
    r'.snapshot.revision = r.snapshot.revision ∧
      r.snapshot.workers.map (·.snapshot.state) = [.joining] ∧
      r'.snapshot.workers.map (·.snapshot.state) = [.unavailable] :=
  ⟨rfl, rfl, rfl, rfl⟩

end MiniCloud.WorkerRegistry
