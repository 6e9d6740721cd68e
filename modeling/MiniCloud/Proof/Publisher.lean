import MiniCloud.Discovery.Publisher
import MiniCloud.Proof.Builder
import MiniCloud.Proof.StoreRevisions

/-!
# The publisher and the gateway's store agree

What a publisher emits is a chain: every successful call carries the next sequence of the epoch,
and its snapshots are valid, distinct and at that position. The store asks for just that, plus
three things no publisher can promise: a clock that does not go back, revisions that follow the
ones it holds, and room.

`Holds` says what a store keeps after some deliveries; `Synced` adds that it stands at the last
position of the chain. A Full event leads from the first to the second, the next incremental one
keeps it.
-/

namespace MiniCloud.Discovery

open Lib Problem

variable {p : Publisher} {next : UInt64}

/-- The loop of `BuildFull` succeeds on distinct inputs that the builder admits. -/
theorem buildEach_ok {inputs : List Input} {seen : List GoString} {results : List Result} :
    p.buildEach next seen inputs = .ok results ↔
      (∀ input ∈ inputs, (p.place next input).Admitted p.builder) ∧
      (inputs.map (·.function.id)).Nodup ∧ (∀ input ∈ inputs, input.function.id ∉ seen) ∧
      results = inputs.map fun input => (p.place next input).result := by
  induction inputs generalizing seen results with
  | nil =>
    simp only [Publisher.buildEach, Except.ok.injEq, List.map_nil, List.nodup_nil,
      List.not_mem_nil, false_imp_iff, implies_true, true_and]
    exact eq_comm
  | cons input rest ih =>
    have hseen : checks [⟨seen.contains input.function.id,
        GoError.text "discovery full sync contains a duplicate function id"⟩] = .ok () ↔
        input.function.id ∉ seen := by
      simp [checks_ok]
    rw [Publisher.buildEach, after_ok, hseen, bind_ok]
    simp only [build_ok, bind_ok, ih, Except.ok.injEq, List.forall_mem_cons, List.map_cons,
      List.nodup_cons]
    simp only [List.mem_map, not_exists, not_and, List.mem_cons, not_or]
    constructor
    · rintro ⟨hfresh, _, ⟨hadmitted, rfl⟩, _, ⟨hrest, hnodup, hlater, rfl⟩, rfl⟩
      exact ⟨⟨hadmitted, hrest⟩, ⟨fun other hother => (hlater other hother).1, hnodup⟩,
        ⟨hfresh, fun other hother => (hlater other hother).2⟩, rfl⟩
    · rintro ⟨⟨hadmitted, hrest⟩, ⟨hother, hnodup⟩, ⟨hfresh, hlater⟩, rfl⟩
      exact ⟨hfresh, _, ⟨hadmitted, rfl⟩, _, ⟨hrest, hnodup,
        fun other h => ⟨hother other h, hlater other h⟩, rfl⟩, rfl⟩

theorem newPublisher_ok {epoch : UInt64} {builder : Option Builder}
    (h : newPublisher epoch builder = .ok p) : epoch = p.epoch ∧ p.sequence = 0 := by
  unfold newPublisher at h
  split_ifs at h
  cases builder with
  | none => cases h
  | some builder =>
    cases h
    exact ⟨rfl, rfl⟩

/-- The publisher one sequence later. -/
def Publisher.advanced (p : Publisher) : Publisher := { p with sequence := p.sequence + 1 }

/-- The body that `Build` and `BuildFull` share: run `f`, then consume the next sequence. -/
def Publisher.allocate {α β : Type} (p : Publisher) (f : Except GoError α) (g : α → β) :
    Op GoError Publisher β := do
  Op.failIf (p.sequence == 18446744073709551615) exhausted
  let result ← Op.ofExcept f
  set p.advanced
  return g result

theorem build_allocates (p : Publisher) (input : Input) : Op.exec (Publisher.build input) p =
    Op.exec (p.allocate (p.builder.build (p.place (p.sequence + 1) input)) id) p := by
  rw [Publisher.build, Op.exec_get_bind]
  rfl

theorem buildFull_allocates (p : Publisher) (inputs : List Input) :
    Op.exec (Publisher.buildFull inputs) p =
      Op.exec (p.allocate (p.buildEach (p.sequence + 1) [] inputs)
        fun results => (results, p.sequence + 1)) p := by
  rw [Publisher.buildFull, Op.exec_get_bind]
  rfl

section Allocate

variable {α β : Type} {f : Except GoError α} {g : α → β}

theorem allocate_ok (hlast : p.sequence ≠ 18446744073709551615) {result : α}
    (hf : f = .ok result) : Op.exec (p.allocate f g) p = (.ok (g result), p.advanced) := by
  have hguard : ¬ (p.sequence == 18446744073709551615) = true := by simpa using hlast
  rw [Publisher.allocate, Op.exec_failIf_bind, if_neg hguard, hf]
  rfl

/-- A call fails without a trace, or consumes one sequence. -/
theorem allocate_cases (p : Publisher) (f : Except GoError α) (g : α → β) :
    (∃ e, Op.exec (p.allocate f g) p = (.error e, p)) ∨
    ∃ result, p.sequence ≠ 18446744073709551615 ∧ f = .ok result ∧
      Op.exec (p.allocate f g) p = (.ok (g result), p.advanced) := by
  by_cases hlast : p.sequence = 18446744073709551615
  · rw [Publisher.allocate, Op.exec_failIf_bind, if_pos (beq_iff_eq.mpr hlast)]
    exact .inl ⟨_, rfl⟩
  · cases hf : f with
    | error e =>
      rw [Publisher.allocate, Op.exec_failIf_bind, if_neg (by simpa using hlast)]
      exact .inl ⟨e, rfl⟩
    | ok result => exact .inr ⟨result, hlast, rfl, allocate_ok hlast rfl⟩

end Allocate

end MiniCloud.Discovery

namespace MiniCloud.GatewayDiscovery

open Lib Problem Digest Discovery

/-! ## What a publisher emits -/

/-- The event that carries what a successful call published. -/
def published (e : PublisherEvent) : Option Event :=
  match e.output with
  | .built (.ok result) =>
    some ⟨false, result.snapshot.discoveryEpoch, result.snapshot.servingSequence, [result.snapshot]⟩
  | .full (.ok (results, sequence)) =>
    some ⟨true, e.pre.epoch, sequence, results.map Result.snapshot⟩
  | _ => none

/-- A complete event at one position. -/
structure Publication (epoch : UInt64) (n : Nat) (event : Event) : Prop where
  epoch : event.discoveryEpoch = epoch
  sequence : event.servingSequence.toNat = n
  distinct : (event.snapshots.map (·.functionID)).Nodup
  valid : ∀ snapshot ∈ event.snapshots, snapshot.validate = .ok () ∧
    snapshot.discoveryEpoch = event.discoveryEpoch ∧
    snapshot.servingSequence = event.servingSequence
  single : event.full = false → ∃ snapshot, event.snapshots = [snapshot]

/-- Publications at the positions after `n`. -/
def Chained (epoch : UInt64) : Nat → List Event → Prop
  | _, [] => True
  | n, event :: rest => Publication epoch (n + 1) event ∧ Chained epoch (n + 1) rest

theorem Chained.append {epoch : UInt64} {n : Nat} {l l' : List Event}
    (h : Chained epoch n (l ++ l')) : Chained epoch (n + l.length) l' := by
  induction l generalizing n with
  | nil => exact h
  | cons event l ih =>
    have hrest := ih h.2
    rwa [Nat.add_assoc, Nat.add_comm 1] at hrest

theorem Chained.get {epoch : UInt64} {n i : Nat} {l : List Event} {event : Event}
    (h : Chained epoch n l) (hget : l[i]? = some event) :
    Publication epoch (n + i + 1) event := by
  induction l generalizing n i with
  | nil => cases hget
  | cons first rest ih =>
    cases i with
    | zero =>
      cases hget
      exact h.1
    | succ i =>
      have hrest := ih h.2 hget
      rwa [Nat.add_right_comm n 1 i] at hrest

section Publish

variable {p : Publisher}

theorem sequence_succ (h : p.sequence ≠ 18446744073709551615) :
    (p.sequence + 1).toNat = p.sequence.toNat + 1 := by
  have hlt : p.sequence.toNat < 2 ^ 64 := p.sequence.toNat_lt
  have hne : p.sequence.toNat ≠ 18446744073709551615 := fun heq =>
    h (UInt64.toNat_inj.mp heq)
  rw [UInt64.toNat_add]
  exact Nat.mod_eq_of_lt (by simp; omega)

/-- What the builder returns for a placed input is valid and stands at the position. -/
theorem placed_valid {next : UInt64} {input : Input}
    (h : (p.place next input).Admitted p.builder) :
    (p.place next input).result.snapshot.validate = .ok () ∧
      (p.place next input).result.snapshot.discoveryEpoch = p.epoch ∧
      (p.place next input).result.snapshot.servingSequence = next :=
  ⟨h.wellFormed.stamped, rfl, rfl⟩

/-- A call publishes nothing and changes nothing, or publishes at the next position. -/
theorem publish_step (p : Publisher) (call : PublisherCall) :
    (published (publisherMachine.event p call) = none ∧ (publisherMachine.step p call).2 = p) ∨
    ∃ event, published (publisherMachine.event p call) = some event ∧
      Publication p.epoch (p.sequence.toNat + 1) event ∧
      (publisherMachine.step p call).2.epoch = p.epoch ∧
      (publisherMachine.step p call).2.sequence.toNat = p.sequence.toNat + 1 := by
  cases call with
  | position => exact .inl ⟨rfl, rfl⟩
  | build input =>
    have hstep : publisherMachine.step p (.build input) =
      (.built (Op.exec (Publisher.build input) p).1, (Op.exec (Publisher.build input) p).2) := rfl
    rw [build_allocates] at hstep
    rcases allocate_cases p (p.builder.build (p.place (p.sequence + 1) input)) id with
      ⟨e, hexec⟩ | ⟨result, hlast, hbuild, hexec⟩
    · rw [hexec] at hstep
      exact .inl ⟨by simp [published, Machine.event, hstep], by rw [hstep]⟩
    · rw [hexec] at hstep
      obtain ⟨hadmitted, rfl⟩ := build_ok.mp hbuild
      have hvalid := placed_valid hadmitted
      refine .inr ⟨_, by simp only [published, Machine.event, hstep]; rfl, ?_,
        by rw [hstep]; rfl, by rw [hstep]; exact sequence_succ hlast⟩
      exact ⟨hvalid.2.1, (congrArg UInt64.toNat hvalid.2.2).trans (sequence_succ hlast),
        List.nodup_singleton _, by simpa using hvalid.1, fun _ => ⟨_, rfl⟩⟩
  | buildFull inputs =>
    have hstep : publisherMachine.step p (.buildFull inputs) =
      (.full (Op.exec (Publisher.buildFull inputs) p).1,
        (Op.exec (Publisher.buildFull inputs) p).2) := rfl
    rw [buildFull_allocates] at hstep
    rcases allocate_cases p (p.buildEach (p.sequence + 1) [] inputs)
      (fun results => (results, p.sequence + 1)) with ⟨e, hexec⟩ | ⟨results, hlast, hbuild, hexec⟩
    · rw [hexec] at hstep
      exact .inl ⟨by simp [published, Machine.event, hstep], by rw [hstep]⟩
    · rw [hexec] at hstep
      obtain ⟨hadmitted, hdistinct, -, rfl⟩ := buildEach_ok.mp hbuild
      refine .inr ⟨_, by simp only [published, Machine.event, hstep]; rfl, ?_,
        by rw [hstep]; rfl, by rw [hstep]; exact sequence_succ hlast⟩
      refine ⟨rfl, sequence_succ hlast, ?_, ?_, fun h => by cases h⟩
      · rw [List.map_map, List.map_map]
        exact hdistinct
      · intro snapshot hmem
        rw [List.map_map, List.mem_map] at hmem
        obtain ⟨input, hinput, rfl⟩ := hmem
        exact placed_valid (hadmitted input hinput)

/-- What a run publishes is chained from the publisher's position on. -/
theorem publish_run (p : Publisher) (calls : List PublisherCall) :
    Chained p.epoch p.sequence.toNat ((publisherMachine.events p calls).filterMap published) := by
  induction calls generalizing p with
  | nil => exact trivial
  | cons call calls ih =>
    have hrest := ih (publisherMachine.step p call).2
    rw [Machine.events]
    rcases publish_step p call with ⟨hnone, hsame⟩ | ⟨event, hsome, hevent, hepoch, hsequence⟩
    · rw [List.filterMap_cons_none hnone, hsame]
      rwa [hsame] at hrest
    · rw [List.filterMap_cons_some hsome]
      rw [hepoch, hsequence] at hrest
      exact ⟨hevent, hrest⟩

end Publish

/-! ## Revisions -/

/-- A Route cannot disappear without its revision going back to zero. -/
theorem Revised.follows {current next : Snapshot} (h : Revised current next)
    (hcurrent : current.route.validate current.functionID = .ok ())
    (hnext : next.route.validate next.functionID = .ok ()) : Follows current next := by
  refine ⟨h, fun hpresent => ?_⟩
  by_contra habsent
  have hzero := h.routeResource
  rw [route_absent hnext (Bool.eq_false_iff.mpr habsent)] at hzero
  refine ((route_published hpresent).mp hcurrent).resource (UInt64.toNat_inj.mp ?_)
  exact Nat.le_zero.mp (UInt64.le_iff_toNat_le.mp hzero)

/-- Every Function that both events carry is revised from the first to the second. -/
def Event.RevisedBy (event later : Event) : Prop :=
  ∀ current ∈ event.snapshots, ∀ next ∈ later.snapshots, current.functionID = next.functionID →
    Revised current next

/-! ## A store on a steady clock -/

/-- A store with the settings of another whose clock has not gone back. -/
structure Running (s₀ s : Store) : Prop where
  clock : s.clock = s₀.clock
  limit : s.maxFunctions = s₀.maxFunctions
  stale : s.maxStale = s₀.maxStale
  healthy : s.clockHealthy = true
  tracks : ClockGuard.Tracks s.clock s.toClockGuard

namespace Running

variable {s₀ s : Store}

section

variable (h : Running s₀ s) (hsteady : Monotone s₀.clock)
include h hsteady

theorem reading :
    (s.toClockGuard.read s.clock).1 = some (s₀.clock s.reads) := by
  refine (ClockGuard.read_eq_some h.tracks).mpr ⟨by rw [h.clock], ?_⟩
  rw [h.clock]
  exact fun i j hij _ => hsteady hij

theorem ticked : Running s₀ s.ticked := by
  obtain ⟨-, -, hclock, hstale, hlimit, -, -⟩ := ticked_frame s
  refine ⟨hclock.trans h.clock, hlimit.trans h.limit, hstale.trans h.stale, ?_, ?_⟩
  · rw [ticked_guard, (ClockGuard.read_some (h.reading hsteady)).2.2]
    exact h.healthy
  · rw [ticked_guard, hclock]
    exact h.tracks.read

theorem replaced (event : Event) (fingerprint : SHA256) (now : Duration) :
    Running s₀ (s.ticked.replaced event fingerprint now) :=
  have ht := h.ticked hsteady
  ⟨ht.clock, ht.limit, ht.stale, ht.healthy, ht.tracks⟩

theorem advanced (event : Event) (snapshot : Snapshot) (fingerprint : SHA256) (now : Duration) :
    Running s₀ (s.ticked.advanced event snapshot fingerprint now) :=
  have ht := h.ticked hsteady
  ⟨ht.clock, ht.limit, ht.stale, ht.healthy, ht.tracks⟩

end

end Running

theorem running_new {processClock : MonotonicClock} {config : Config} {s : Store}
    (hnew : new processClock config = .ok s) : Running s s := by
  obtain ⟨hguard, -⟩ := new_ok hnew
  refine ⟨rfl, rfl, rfl, ?_, ?_⟩
  · rw [hguard]
    rfl
  · rw [hguard]
    exact ClockGuard.tracks_start _

/-! ## Deliveries -/

/-- The Functions a store serves after an event, from those it served before. -/
def served (functions : List GoString) (event : Event) : List GoString :=
  if event.full then event.snapshots.map (·.functionID)
  else event.snapshots.map (·.functionID) ∪ functions

/-- What a store keeps of the events `done`: snapshots of theirs, of just these Functions. -/
structure Holds (s₀ : Store) (done : List Event) (functions : List GoString) (s : Store) :
    Prop where
  running : Running s₀ s
  valid : HoldsValid s
  delivered : ∀ functionID snapshot, s.held functionID = some snapshot →
    ∃ event ∈ done, snapshot ∈ event.snapshots
  names : ∀ functionID, (s.held functionID).isSome = true ↔ functionID ∈ functions

/-- The store also stands at position `n` of the epoch, with a complete view. -/
structure Synced (s₀ : Store) (epoch : UInt64) (n : Nat) (done : List Event)
    (functions : List GoString) (s : Store) : Prop extends Holds s₀ done functions s where
  synced : s.fullSynced = true
  current : s.needsFullSync = false
  epoch : s.position.epoch = epoch
  sequence : s.position.sequence.toNat = n

section Deliver

variable {s₀ s : Store} {epoch : UInt64} {n : Nat} {done rest : List Event}
  {functions : List GoString} {event : Event}

theorem Holds.revisions (h : Holds s₀ done functions s) (hevent : Publication epoch n event)
    (hrevised : ∀ e ∈ done, e.RevisedBy event) :
    ∀ snapshot ∈ event.snapshots, s.checkRevisions snapshot = .ok () := by
  intro snapshot hmem
  rw [Store.checkRevisions]
  cases hrecord : s.functions.get? snapshot.functionID with
  | none => rfl
  | some record =>
    have hheld : s.held snapshot.functionID = some record.snapshot := by
      rw [Store.held, hrecord]
      rfl
    obtain ⟨hvalid, hid⟩ := h.valid _ _ hheld
    obtain ⟨e, he, hfrom⟩ := h.delivered _ _ hheld
    have hcurrent := (validate_ok.mp hvalid).1.route
    have hnext := (validate_ok.mp (hevent.valid snapshot hmem).1).1.route
    exact (revisions_ok hcurrent hnext hid.symm).mpr
      ((hrevised e he _ hfrom _ hmem hid).follows hcurrent hnext)

theorem Publication.acceptable (h : Publication epoch (n + 1) event) (hepoch : epoch ≠ 0)
    {limit : Int} (hlimit : (event.snapshots.length : Int) ≤ limit) : event.Acceptable limit where
  distinct := h.distinct
  valid := h.valid
  epoch_pos := h.epoch ▸ hepoch
  sequence_pos := by
    intro hzero
    have hnat := h.sequence
    rw [hzero] at hnat
    exact absurd hnat (by simp)
  bounded := hlimit

theorem holds_new {processClock : MonotonicClock} {config : Config}
    (hnew : new processClock config = .ok s) : Holds s [] [] s := by
  have hempty : ∀ functionID, s.held functionID = none := by
    intro functionID
    rw [Store.held, (new_ok hnew).2.1]
    rfl
  refine ⟨running_new hnew, holdsValid hnew .init, ?_, ?_⟩
  · intro functionID snapshot hheld
    rw [hempty] at hheld
    cases hheld
  · intro functionID
    rw [hempty]
    simp

/-- A Full event with room brings the store to its position. -/
theorem Holds.full (h : Holds s₀ done functions s) (hsteady : Monotone s₀.clock)
    (hepoch : epoch ≠ 0) (hevent : Publication epoch (n + 1) event) (hfull : event.full = true)
    (hlater : s.position.epoch = 0 ∨ s.position.epoch = epoch ∧ s.position.sequence.toNat = n)
    (hrevised : ∀ e ∈ done, e.RevisedBy event)
    (hroom : ((served functions event).length : Int) ≤ s₀.maxFunctions) :
    ∃ s', storeMachine.step s (.apply event) = (.done (.ok ()), s') ∧
      Synced s₀ epoch (n + 1) (done ++ [event]) (served functions event) s' := by
  have hserved : served functions event = event.snapshots.map (·.functionID) := by
    rw [served, hfull, if_pos rfl]
  have haccept : event.Acceptable s.maxFunctions := by
    refine hevent.acceptable hepoch ?_
    rwa [hserved, List.length_map, ← h.running.limit] at hroom
  have hle : s.position.epoch ≤ event.discoveryEpoch := by
    rw [hevent.epoch]
    rcases hlater with hzero | ⟨heq, -⟩
    · rw [hzero]
      exact UInt64.le_iff_toNat_le.mpr (Nat.zero_le _)
    · rw [heq]
      exact UInt64.le_refl _
  have hlt : event.discoveryEpoch = s.position.epoch →
      s.position.sequence < event.servingSequence := by
    intro hsame
    rw [hevent.epoch] at hsame
    rcases hlater with hzero | ⟨-, hn⟩
    · exact absurd (hsame.trans hzero) hepoch
    · rw [UInt64.lt_iff_toNat_lt, hn, hevent.sequence]
      exact Nat.lt_succ_self n
  obtain ⟨fingerprint, -, hr, hexec⟩ := apply_full haccept hfull h.running.healthy
    (h.running.reading hsteady) hle hlt (h.revisions hevent hrevised)
  have hstep := step_apply s event
  rw [hexec] at hstep
  have hvalid := holdsValid_step h.valid (.apply event)
  rw [hstep] at hvalid
  refine ⟨_, hstep, ⟨h.running.replaced hsteady _ _ _, hvalid, ?_, ?_⟩, rfl, rfl,
    hr.normal.epoch.trans hevent.epoch,
    (congrArg UInt64.toNat hr.normal.sequence).trans hevent.sequence⟩
  · intro functionID snapshot hheld
    rw [held_replaced hr] at hheld
    exact ⟨event, by simp, (contents_functionID hheld).1⟩
  · intro functionID
    rw [held_replaced hr, hserved]
    exact contents_isSome

section

variable (h : Synced s₀ epoch n done functions s) (hsteady : Monotone s₀.clock)
  (hepoch : epoch ≠ 0)
include h hsteady hepoch

/-- The next incremental event with room keeps the store at the publisher's position. -/
theorem Synced.incremental (hevent : Publication epoch (n + 1) event) (hfull : event.full = false)
    (hrevised : ∀ e ∈ done, e.RevisedBy event)
    (hroom : ((served functions event).length : Int) ≤ s₀.maxFunctions) :
    ∃ s', storeMachine.step s (.apply event) = (.done (.ok ()), s') ∧
      Synced s₀ epoch (n + 1) (done ++ [event]) (served functions event) s' := by
  obtain ⟨snapshot, honly⟩ := hevent.single hfull
  have hserved : served functions event = [snapshot.functionID] ∪ functions := by
    rw [served, hfull, if_neg Bool.false_ne_true, honly]
    rfl
  rw [hserved] at hroom
  have hlimit := h.running.limit
  have haccept : event.Acceptable s.maxFunctions := by
    refine hevent.acceptable hepoch ?_
    have hpos : 0 < ([snapshot.functionID] ∪ functions).length :=
      List.length_pos_of_mem (List.mem_union_iff.mpr (.inl (List.mem_singleton_self _)))
    rw [honly, List.length_singleton]
    omega
  have hcapacity : s.checkCapacity snapshot = .ok () := by
    rw [Store.checkCapacity, checks_ok, List.forall_mem_singleton]
    cases hrecord : s.functions.get? snapshot.functionID with
    | some record => rfl
    | none =>
      -- a new Function: the list of those served grows by it
      have hnew : snapshot.functionID ∉ functions := by
        rw [← h.names, Store.held, hrecord]
        exact Bool.false_ne_true
      have hlen : s.functions.len ≤ functions.length := by
        refine GoMap.len_le_of_mem fun functionID record hget => (h.names functionID).mp ?_
        rw [Store.held, hget]
        rfl
      have hgrown : ([snapshot.functionID] ∪ functions).length = functions.length + 1 := by
        rw [List.cons_union, List.nil_union, List.length_insert_of_not_mem hnew]
      rw [hgrown] at hroom
      simp only [Option.isNone_none, Bool.true_and, decide_eq_false_iff_not]
      omega
  have hopen : Opens s (s₀.clock s.reads) :=
    ⟨h.running.reading hsteady, h.synced, h.current⟩
  have hseq : event.servingSequence.toNat = s.position.sequence.toNat + 1 := by
    rw [hevent.sequence, h.sequence]
  have hrevisions := h.revisions hevent hrevised snapshot (by simp [honly])
  obtain ⟨normalized, fingerprint, ha, hexec⟩ := apply_incremental haccept hfull honly
    h.running.healthy hopen (hevent.epoch.trans h.epoch.symm) hseq hrevisions hcapacity
  have hstep : storeMachine.step s (.apply event) = (.done (.ok ()),
      s.ticked.advanced normalized snapshot fingerprint (s₀.clock s.reads)) := by
    rw [step_apply, hexec]
  have hvalid := holdsValid_step h.valid (.apply event)
  rw [hstep] at hvalid
  have hcurrent : s.ticked.needsFullSync = false := by
    rw [ticked_of_some hopen.reading]
    exact h.current
  refine ⟨_, hstep, ⟨h.running.advanced hsteady _ _ _ _, hvalid, ?_, ?_⟩,
    (ticked_fullSynced s).trans h.synced, hcurrent, ha.normal.epoch.trans hevent.epoch,
    (congrArg UInt64.toNat ha.normal.sequence).trans hevent.sequence⟩
  · intro functionID other hheld
    rw [held_advanced ha] at hheld
    rcases Option.or_eq_some_iff.mp hheld with hfound | ⟨-, hfound⟩
    · exact ⟨event, by simp, (contents_functionID hfound).1⟩
    · obtain ⟨e, he, hfrom⟩ := h.delivered _ _ hfound
      exact ⟨e, List.mem_append_left _ he, hfrom⟩
  · intro functionID
    rw [held_advanced ha, Option.isSome_or, Bool.or_eq_true, contents_isSome, h.names, hserved,
      honly, List.mem_union_iff]
    rfl

/-- Chained events are accepted one after the other. -/
theorem Synced.deliver (hchain : Chained epoch n rest)
    (hdone : ∀ e ∈ done, ∀ e' ∈ rest, e.RevisedBy e') (hrevised : rest.Pairwise Event.RevisedBy)
    (hroom : ∀ earlier, earlier <+: rest →
      ((earlier.foldl served functions).length : Int) ≤ s₀.maxFunctions) :
    ∀ e ∈ storeMachine.events s (rest.map .apply), e.output = .done (.ok ()) ∧
      e.post.fullSynced = true ∧ e.post.needsFullSync = false := by
  induction rest generalizing s n done functions with
  | nil => exact List.forall_mem_nil _
  | cons event rest ih =>
    rw [List.pairwise_cons] at hrevised
    have hfrom : ∀ e ∈ done, e.RevisedBy event := fun e he => hdone e he _ List.mem_cons_self
    have hfits := hroom [event] ⟨rest, rfl⟩
    obtain ⟨s', hstep, h'⟩ : ∃ s', storeMachine.step s (.apply event) = (.done (.ok ()), s') ∧
        Synced s₀ epoch (n + 1) (done ++ [event]) (served functions event) s' := by
      cases hfull : event.full with
      | true =>
        exact h.toHolds.full hsteady hepoch hchain.1 hfull (.inr ⟨h.epoch, h.sequence⟩) hfrom hfits
      | false => exact h.incremental hsteady hepoch hchain.1 hfull hfrom hfits
    have hrest := ih h' hchain.2 (fun e he e' he' => by
        rcases List.mem_append.mp he with he | he
        · exact hdone e he e' (List.mem_cons_of_mem _ he')
        · rw [List.mem_singleton.mp he]
          exact hrevised.1 e' he')
      hrevised.2 (fun earlier hprefix => hroom (event :: earlier)
        (List.cons_prefix_cons.mpr ⟨rfl, hprefix⟩))
    intro e he
    rw [List.map_cons, Machine.events, hstep] at he
    rcases List.mem_cons.mp he with rfl | he
    · rw [Machine.event, hstep]
      exact ⟨rfl, h'.synced, h'.current⟩
    · exact hrest e he

end

end Deliver

/--
**Publisher and store agree.** In every run of a publisher the successful calls carry the sequences
1, 2, 3, … of its epoch and a failing one changes nothing. Delivered in order from any Full
publication on to a fresh store whose clock does not go back, every publication is accepted and
leaves the store synchronised, as long as revisions do not regress, content changes only with its
revision, and the Functions served stay within the limit.
-/
theorem publisher_agrees {epoch : UInt64} {builder : Option Builder} {p : Publisher}
    (hpublisher : newPublisher epoch builder = .ok p) (calls : List PublisherCall) :
    let h := publisherMachine.events p calls
    let publications := h.filterMap published
    (∀ i event, publications[i]? = some event → event.discoveryEpoch = epoch ∧
      event.servingSequence.toNat = i + 1 ∧
      ∀ snapshot ∈ event.snapshots, snapshot.discoveryEpoch = event.discoveryEpoch ∧
        snapshot.servingSequence = event.servingSequence) ∧
    (∀ e ∈ h, published e = none → e.post = e.pre) ∧
    ∀ processClock config s earlier full rest, new processClock config = .ok s →
      Monotone s.clock → publications = earlier ++ full :: rest → full.full = true →
      (full :: rest).Pairwise Event.RevisedBy →
      (∀ delivered, delivered <+: full :: rest →
        ((delivered.foldl served []).length : Int) ≤ s.maxFunctions) →
      ∀ e ∈ storeMachine.events s ((full :: rest).map .apply), e.output = .done (.ok ()) ∧
        e.post.fullSynced = true ∧ e.post.needsFullSync = false := by
  intro h publications
  obtain ⟨rfl, hzero⟩ := newPublisher_ok hpublisher
  have hchain : Chained p.epoch 0 publications := by
    have hrun := publish_run p calls
    rwa [hzero] at hrun
  refine ⟨fun i event hget => ?_, fun e he hnone => ?_, ?_⟩
  · have hevent := hchain.get hget
    rw [Nat.zero_add] at hevent
    exact ⟨hevent.epoch, hevent.sequence, fun snapshot hmem => (hevent.valid snapshot hmem).2⟩
  · obtain ⟨-, -, -, -, heq⟩ := Machine.mem_events he
    rw [heq] at hnone ⊢
    rcases publish_step e.pre e.input with ⟨-, hsame⟩ | ⟨event, hsome, -⟩
    · exact hsame
    · cases hsome.symm.trans hnone
  · intro processClock config s earlier full rest hnew hsteady hsplit hfull hrevised hroom
    rw [hsplit] at hchain
    have hdelivered := hchain.append
    rw [List.pairwise_cons] at hrevised
    have hfresh := holds_new hnew
    -- the Full event opens the fresh store, the others follow it
    obtain ⟨s', hstep, hsynced⟩ := hfresh.full hsteady p.positive hdelivered.1 hfull
      (.inl (by rw [(new_ok hnew).2.2.1])) (List.forall_mem_nil _) (hroom [full] ⟨rest, rfl⟩)
    have hrest := hsynced.deliver hsteady p.positive hdelivered.2
      (by simpa using hrevised.1) hrevised.2 (fun delivered hprefix =>
        hroom (full :: delivered) (List.cons_prefix_cons.mpr ⟨rfl, hprefix⟩))
    intro e he
    rw [List.map_cons, Machine.events, hstep] at he
    rcases List.mem_cons.mp he with rfl | he
    · rw [Machine.event, hstep]
      exact ⟨rfl, hsynced.synced, hsynced.current⟩
    · exact hrest e he

/-! ## A Full and an incremental publication -/

def samplePublisher (sequence : UInt64) : Publisher := ⟨sampleBuilder, 1, sequence, by decide⟩

theorem samplePublisher_full : publisherMachine.step (samplePublisher 0) (.buildFull [sampleInput]) =
    (.full (.ok ([(sampleAt 1).result], 1)), samplePublisher 1) := by
  have hbuild : (samplePublisher 0).buildEach 1 [] [sampleInput] =
      .ok [(sampleAt 1).result] :=
    buildEach_ok.mpr ⟨List.forall_mem_singleton.mpr (sampleAt_admitted (by decide)),
      List.nodup_singleton _, List.forall_mem_singleton.mpr List.not_mem_nil, rfl⟩
  have hexec := (buildFull_allocates (samplePublisher 0) [sampleInput]).trans
    (allocate_ok (by decide : (0 : UInt64) ≠ 18446744073709551615) hbuild)
  show (PublisherAnswer.full (Op.exec (Publisher.buildFull [sampleInput]) _).1, _) = _
  rw [hexec]
  rfl

theorem samplePublisher_next : publisherMachine.step (samplePublisher 1) (.build sampleInput) =
    (.built (.ok (sampleAt 2).result), samplePublisher 2) := by
  have hbuild : (samplePublisher 1).builder.build ((samplePublisher 1).place 2 sampleInput) =
      .ok (sampleAt 2).result := build_ok.mpr ⟨sampleAt_admitted (by decide), rfl⟩
  have hexec := (build_allocates (samplePublisher 1) sampleInput).trans
    (allocate_ok (by decide : (1 : UInt64) ≠ 18446744073709551615) hbuild)
  show (PublisherAnswer.built (Op.exec (Publisher.build sampleInput) _).1, _) = _
  rw [hexec]
  rfl

def sampleCalls : List PublisherCall := [.buildFull [sampleInput], .build sampleInput]

def samplePublications : List Event :=
  [⟨true, 1, 1, [(sampleAt 1).result.snapshot]⟩, ⟨false, 1, 2, [(sampleAt 2).result.snapshot]⟩]

theorem sampleCalls_published :
    (publisherMachine.events (samplePublisher 0) sampleCalls).filterMap published =
      samplePublications := by
  simp only [sampleCalls, Machine.events, Machine.event, samplePublisher_full,
    samplePublisher_next, List.filterMap_cons, published]
  rfl

theorem sample_revised (a b : UInt64) :
    Revised (sampleAt a).result.snapshot (sampleAt b).result.snapshot :=
  ⟨UInt64.le_refl _, UInt64.le_refl _, UInt64.le_refl _, UInt64.le_refl _, fun _ => rfl,
    fun _ => rfl, fun _ _ => rfl⟩

theorem publisher_agrees_sample :
    (publisherMachine.events (samplePublisher 0) sampleCalls).filterMap published =
      samplePublications ∧
    ∀ e ∈ storeMachine.events sampleStore (samplePublications.map .apply),
      e.output = .done (.ok ()) ∧ e.post.fullSynced = true ∧ e.post.needsFullSync = false := by
  refine ⟨sampleCalls_published, ?_⟩
  obtain ⟨-, -, hdeliver⟩ := publisher_agrees
    (rfl : newPublisher 1 (some sampleBuilder) = .ok (samplePublisher 0)) sampleCalls
  refine hdeliver (fun _ => 0) sampleConfig sampleStore [] _ _ sampleStore_new
    (fun _ _ _ => Int.le_refl _) sampleCalls_published rfl ?_ ?_
  · refine List.pairwise_pair.mpr fun current hcurrent next hnext _ => ?_
    rw [List.mem_singleton.mp hcurrent, List.mem_singleton.mp hnext]
    exact sample_revised 1 2
  · intro delivered hprefix
    rcases List.prefix_cons_iff.mp hprefix with rfl | ⟨later, rfl, hlater⟩
    · decide
    rcases List.prefix_cons_iff.mp hlater with rfl | ⟨last, rfl, hlast⟩
    · decide
    rw [List.prefix_nil.mp hlast]
    decide

end MiniCloud.GatewayDiscovery
