import MiniCloud.Proof.Builder
import MiniCloud.Proof.Planner

/-!
# What a placement promises

The chosen Worker is the least of the eligible ones, in the order the planner documents, and the
order of the observations has no part in it. Required labels are compared by what a map read
returns. A missing key reads as the empty string, so only a nonempty value has to be carried; and
an observation that does not validate is reported as such, without a look at its labels.
-/

namespace MiniCloud.Scheduler

open Lib Problem Digest Model ServingAuth

/-! ## The documented order -/

/-- The profile a Worker must advertise for a request. -/
def PlacementRequest.runtime (r : PlacementRequest) : RuntimeProfile where
  name := r.runtimeName
  version := r.runtimeVersion
  engine := r.runtimeEngine
  goos := r.goos
  goarch := r.goarch
  abi := r.abi
  hostAPI := r.hostAPI
  featureProfile := r.featureProfile
  memoryMiB := r.memoryMiB

variable {r : PlacementRequest} {a b w : WorkerSnapshot} {workers : List WorkerSnapshot}
  {p : Planner}

theorem compatible_iff {profile : RuntimeProfile} :
    profile.compatible r = true ↔ profile = r.runtime := by
  simp only [RuntimeProfile.compatible, Bool.and_eq_true, beq_iff_eq]
  constructor
  · rintro ⟨⟨⟨⟨⟨⟨⟨⟨h1, h2⟩, h3⟩, h4⟩, h5⟩, h6⟩, h7⟩, h8⟩, h9⟩
    cases profile
    simp_all only [PlacementRequest.runtime]
  · intro h
    subst h
    simp only [PlacementRequest.runtime, and_self]

/-- The deployment already has a Replica on the Worker. -/
def Used (r : PlacementRequest) (w : WorkerSnapshot) : Prop :=
  ((orEmpty r.existingWorkerIDs).get? w.session.workerID).isSome = true

def slotLoad (w : WorkerSnapshot) : ℚ := ratio w.capacity.allocatedSlots w.capacity.slots

def memoryLoad (w : WorkerSnapshot) : ℚ := ratio w.capacity.allocatedMemoryMiB w.capacity.memoryMiB

/-- Cache score, spread, slot load, memory load and Worker id, in this order of importance. -/
def Precedes (r : PlacementRequest) (a b : WorkerSnapshot) : Prop :=
  cacheScore r b < cacheScore r a ∨ cacheScore r a = cacheScore r b ∧
  (¬ Used r a ∧ Used r b ∨ (Used r a ↔ Used r b) ∧
  (slotLoad a < slotLoad b ∨ slotLoad a = slotLoad b ∧
  (memoryLoad a < memoryLoad b ∨ memoryLoad a = memoryLoad b ∧
  compare a.session.workerID b.session.workerID = .lt)))

theorem spreadScore_lt (ha : ¬ Used r a) (hb : Used r b) : spreadScore r b < spreadScore r a := by
  have hone : spreadScore r a = 1 := if_neg ha
  have hzero : spreadScore r b = 0 := if_pos hb
  rw [hone, hzero]
  decide

theorem spreadScore_eq (h : Used r a ↔ Used r b) :
    spreadScore r b = spreadScore r a := by
  rw [spreadScore, spreadScore]
  exact if_congr h.symm rfl rfl

theorem compareRank_of_precedes (h : Precedes r a b) :
    compareRank (ranked r a) (ranked r b) = .lt := by
  have hrefl : ∀ score : UInt8, compare score score = .eq :=
    fun score => @Std.ReflCmp.compare_self _ compare _ score
  simp only [compareRank, compareLex, Ordering.then_eq_lt]
  -- each level is decided, or equal and handed to the next one
  rcases h with h | ⟨hcache, h⟩
  · exact .inl (Std.compare_eq_lt.mpr h)
  refine .inr ⟨by
    rw [show (ranked r a).cacheScore = (ranked r b).cacheScore from hcache]
    exact hrefl _, ?_⟩
  rcases h with ⟨ha, hb⟩ | ⟨hused, h⟩
  · exact .inl (Std.compare_eq_lt.mpr (spreadScore_lt ha hb))
  refine .inr ⟨by
    rw [show (ranked r b).spreadScore = (ranked r a).spreadScore from spreadScore_eq hused]
    exact hrefl _, ?_⟩
  rcases h with h | ⟨hslots, h⟩
  · exact .inl (compare_lt_iff_lt.mpr h)
  refine .inr ⟨compare_eq_iff_eq.mpr hslots, ?_⟩
  rcases h with h | ⟨hmemory, h⟩
  · exact .inl (compare_lt_iff_lt.mpr h)
  refine .inr ⟨compare_eq_iff_eq.mpr hmemory, ?_⟩
  simp only [compareSessions, compareLex, compareOn, Ordering.then_eq_lt]
  exact .inl h

/-! ## The choice -/

theorem validateWorkerSet_ok : validateWorkerSet workers = .ok () ↔
    workers.length ≤ maxWorkers ∧ (workerIDs workers).Nodup := by
  rw [validateWorkerSet, seq_ok, checks_ok, checkEach_ok]
  simp only [List.mem_singleton, forall_eq, mustNot_fails, decide_eq_false_iff_not, not_lt,
    List.not_mem_nil, not_false_eq_true, implies_true, true_and, workerIDs]

/-- The only Worker of the list with the session. -/
structure Names (workers : List WorkerSnapshot) (s : WorkerSession) (w : WorkerSnapshot) :
    Prop where
  mem : w ∈ workers
  session : w.session = s
  only : ∀ w' ∈ workers, w'.session = s → w' = w

theorem names_of_nodup (hnodup : (workerIDs workers).Nodup) (hw : w ∈ workers) :
    Names workers w.session w where
  mem := hw
  session := rfl
  only := fun _ hw' heq => worker_unique hnodup hw' hw (congrArg WorkerSession.workerID heq)

/-- What the head of the sorted list is. -/
theorem chosen_least {chosen : EligibleCandidate} (hr : r.validate = .ok ())
    (hnodup : (workerIDs workers).Nodup)
    (hchosen : (sortFunc compareEligible (evaluateCandidates r workers).2).head? = some chosen) :
    ∃ w ∈ workers, chosen = ranked r w ∧ Eligible r w ∧
      ∀ w' ∈ workers, Eligible r w' → ¬ Precedes r w' w := by
  rw [evaluateCandidates_eq r hnodup, sort_eligible hr] at hchosen
  obtain ⟨hmem, hleast⟩ := sortFunc_head compareRank hchosen
  obtain ⟨w, hw, heligible, rfl⟩ := mem_eligible.mp hmem
  refine ⟨w, hw, rfl, heligible, fun w' hw' heligible' hprecedes => ?_⟩
  exact hleast _ (mem_eligible.mpr ⟨w', hw', heligible', rfl⟩) (compareRank_of_precedes hprecedes)

theorem none_eligible (hnodup : (workerIDs workers).Nodup)
    (hnone : (evaluateCandidates r workers).2 = []) :
    ∀ w ∈ workers, ¬ Eligible r w := by
  intro w hw heligible
  rw [evaluateCandidates_eq r hnodup] at hnone
  have hmem := mem_eligible.mpr ⟨w, hw, heligible, rfl⟩
  rw [show workers.filterMap (fun w => (evaluateOne r false w).2) = [] from hnone] at hmem
  exact absurd hmem List.not_mem_nil

theorem evaluateCandidates_perm {workers' : List WorkerSnapshot} (hr : r.validate = .ok ())
    (hnodup : (workerIDs workers).Nodup) (hperm : workers.Perm workers') :
    (evaluateCandidates r workers').1 = (evaluateCandidates r workers).1 ∧
      sortFunc compareEligible (evaluateCandidates r workers').2 =
        sortFunc compareEligible (evaluateCandidates r workers).2 := by
  have hnodup' : (workerIDs workers').Nodup := (hperm.map _).nodup_iff.mp hnodup
  rw [evaluateCandidates_eq r hnodup, evaluateCandidates_eq r hnodup']
  exact ⟨(candidates_perm hnodup hperm).symm, (eligible_perm hr hnodup hperm).symm⟩

/-- `Plan` sees of the Workers the two sorted lists only. -/
theorem plan_perm {workers' : List WorkerSnapshot} (hr : r.validate = .ok ())
    (hnodup : (workerIDs workers).Nodup) (hlimit : workers.length ≤ maxWorkers)
    (hperm : workers.Perm workers') :
    Op.exec (Planner.plan r workers') p = Op.exec (Planner.plan r workers) p := by
  have hset : validateWorkerSet workers = .ok () := validateWorkerSet_ok.mpr ⟨hlimit, hnodup⟩
  have hset' : validateWorkerSet workers' = .ok () := validateWorkerSet_ok.mpr
    ⟨hperm.length_eq ▸ hlimit, (hperm.map _).nodup_iff.mp hnodup⟩
  obtain ⟨hcandidates, hsorted⟩ := @evaluateCandidates_perm r workers workers' hr hnodup hperm
  have hplace : ∀ fingerprint, Planner.place r fingerprint workers' =
      Planner.place r fingerprint workers := by
    intro fingerprint
    simp only [Planner.place, hset, hset', hcandidates, hsorted]
  simp only [Planner.plan, hplace]

/-- A new decision names the least eligible Worker. -/
theorem applied_chosen {p' : Planner} {decision : Decision}
    (hexec : Op.exec (Planner.plan r workers) p = (.ok decision, p'))
    (happlied : decision.status = .applied) :
    ∃ w, Names workers decision.assignment.worker w ∧ Eligible r w ∧
      ∀ w' ∈ workers, Eligible r w' → ¬ Precedes r w' w := by
  cases hr : r.validate with
  | error err => cases (plan_invalid hr).symm.trans hexec
  | ok _ =>
    obtain ⟨fingerprint, -, hplans⟩ := plan_exec hexec hr
    cases hplans with
    | duplicate | alreadySatisfied => cases happlied
    | placed hopen hworkers hchosen =>
      have hnodup := (validateWorkerSet_ok.mp hworkers).2
      obtain ⟨w, hw, rfl, heligible, hleast⟩ := chosen_least hr hnodup hchosen
      exact ⟨w, names_of_nodup hnodup hw, heligible, hleast⟩

theorem validateWorkerSet_error {err : GoError} (hnodup : (workerIDs workers).Nodup)
    (hlimit : workers.length ≤ maxWorkers) (herr : validateWorkerSet workers = .error err) :
    False := by
  rw [validateWorkerSet_ok.mpr ⟨hlimit, hnodup⟩] at herr
  cases herr

/--
Placement does not depend on the order of the observations, and it is optimal: no eligible Worker
precedes the chosen one, and none is eligible when the planner says so.
-/
theorem placement_optimal {p : Planner} {r : PlacementRequest} {workers : List WorkerSnapshot}
    (hr : r.validate = .ok ()) (hnodup : (workerIDs workers).Nodup)
    (hlimit : workers.length ≤ maxWorkers) :
    (∀ workers', workers.Perm workers' →
      Op.exec (Planner.plan r workers') p = Op.exec (Planner.plan r workers) p) ∧
    (∀ decision p', Op.exec (Planner.plan r workers) p = (.ok decision, p') →
      decision.status = .applied → ∃ w, Names workers decision.assignment.worker w ∧
        Eligible r w ∧ w.runtime = r.runtime ∧
        ∀ w' ∈ workers, Eligible r w' → ¬ Precedes r w' w) ∧
    (∀ a b c d : UInt64, b ≠ 0 → d ≠ 0 →
      compareRatio a b c d = compare (ratio a b) (ratio c d)) ∧
    (∀ w, Eligible r w → w.capacity.slots ≠ 0 ∧ w.capacity.memoryMiB ≠ 0) ∧
    (∀ failure p', Op.exec (Planner.plan r workers) p = (.error failure, p') →
      failure.err = noneEligible → ∀ w ∈ workers, ¬ Eligible r w) := by
  refine ⟨fun workers' hperm => plan_perm hr hnodup hlimit hperm, ?_,
    fun a b c d hb hd => compareRatio_eq hb hd, fun w h => h.denominators hr, ?_⟩
  · intro decision p' hexec happlied
    obtain ⟨w, hnames, heligible, hleast⟩ := applied_chosen hexec happlied
    exact ⟨w, hnames, heligible, compatible_iff.mp heligible.runtime, hleast⟩
  · intro failure p' hexec herr
    obtain ⟨fingerprint, -, hplans⟩ := plan_exec hexec hr
    -- every other failure carries another code
    cases hplans with
    | commandReused | assignmentReused | stale | full => cases herr
    | badWorkers hopen hworkers => exact (validateWorkerSet_error hnodup hlimit hworkers).elim
    | unplaced hopen hworkers hnone => exact none_eligible hnodup hnone

/-! ## Sample calls -/

def samplePlanner : Planner := ⟨defaultMaxDecisions, ⟨1, 1, true⟩, ∅, ∅⟩

def sampleRequest (labels : GoMap GoString GoString) : PlacementRequest where
  commandID := "command-1"
  assignmentID := "assignment-1"
  versionID := "version-1"
  artifactDigest := Discovery.samplePolicy
  artifactSize := 1
  abi := abiWASICommandV1
  hostAPI := hostAPIProfileNone
  featureProfile := WasmProfile.featureProfile
  runtimeName := WasmProfile.runtimeName
  runtimeVersion := WasmProfile.runtimeVersion
  runtimeEngine := WasmProfile.engineCompiler
  goos := "linux"
  goarch := "amd64"
  memoryMiB := 64
  requiredSlots := 1
  admissionEpoch := 1
  deploymentGeneration := 1
  policyDigest := Discovery.samplePolicy
  compiledCacheKey := ⟨[], 0, [], [], [], [], [], [], 0, [], []⟩
  requiredLabels := some labels
  existingWorkerIDs := none

/-- A label with the empty value, and one with another value. -/
def sampleEmptyLabel : GoMap GoString GoString := (∅ : GoMap GoString GoString).set "zone" []

def sampleLabel : GoMap GoString GoString := (∅ : GoMap GoString GoString).set "zone" "a"

theorem sampleRequest_valid : (sampleRequest ∅).validate = .ok () ∧
    (sampleRequest sampleEmptyLabel).validate = .ok () ∧
    (sampleRequest sampleLabel).validate = .ok () := by
  refine ⟨?_, ?_, ?_⟩
  · rfl
  · rfl
  · rfl

def sampleSecondWorker : WorkerSnapshot :=
  { Discovery.sampleWorker with session := ⟨"worker-2", "boot-2", 1⟩ }

theorem placement_optimal_sample :
    Op.exec (Planner.plan (sampleRequest ∅) [sampleSecondWorker, Discovery.sampleWorker])
      samplePlanner =
    Op.exec (Planner.plan (sampleRequest ∅) [Discovery.sampleWorker, sampleSecondWorker])
      samplePlanner :=
  (placement_optimal sampleRequest_valid.1 (by decide) (by decide)).1 _ (.swap _ _ [])

/-! ## Required labels -/

theorem labelsMatch_iff {labels required : GoMap GoString GoString} :
    labelsMatch labels required = true ↔
      ∀ key value, required.get? key = some value → (labels.get? key).getD [] = value := by
  rw [labelsMatch, List.all_eq_true]
  constructor
  · intro h key value hrequired
    exact beq_iff_eq.mp (h (key, value) (GoMap.mem_toList.mpr hrequired))
  · intro h entry hentry
    exact beq_iff_eq.mpr (h entry.1 entry.2 (GoMap.mem_toList.mp hentry))

/-- What the Worker has under the key is the value, and it has something unless that is empty. -/
structure Carries (w : WorkerSnapshot) (key value : GoString) : Prop where
  equal : ∀ found, w.labels.get? key = some found → found = value
  present : value ≠ [] → w.labels.get? key = some value

/-- A read returns what it found, and the empty text where it found nothing. -/
theorem carries_of_match {required : GoMap GoString GoString}
    (h : labelsMatch w.labels required = true) {key value : GoString}
    (hrequired : required.get? key = some value) : Carries w key value := by
  have hread := labelsMatch_iff.mp h key value hrequired
  cases hlabel : w.labels.get? key with
  | none =>
    rw [hlabel] at hread
    exact ⟨fun _ hfound => absurd (hlabel.symm.trans hfound) (by simp),
      fun hvalue => absurd hread.symm hvalue⟩
  | some found =>
    rw [hlabel] at hread
    obtain rfl : found = value := hread
    exact ⟨fun _ hfound => Option.some.inj (hfound.symm.trans hlabel), fun _ => hlabel⟩

/-- The candidates that a call evaluated, and not a retained decision it returned. -/
def reported : Except PlanFailure Decision → List Candidate
  | .ok decision => if decision.status = .applied then decision.candidates else []
  | .error failure => failure.decision.candidates

theorem mem_candidates (hnodup : (workerIDs workers).Nodup) {c : Candidate} :
    c ∈ (evaluateCandidates r workers).1 ↔ ∃ w ∈ workers, (evaluateOne r false w).1 = c := by
  rw [evaluateCandidates_eq r hnodup, mem_sortFunc, List.mem_map]

theorem mem_reasonIf {failed : Bool} {reason reason' : FilterReason} :
    reason' ∈ reasonIf failed reason ↔ failed = true ∧ reason' = reason := by
  cases failed <;> simp [reasonIf]

/-- The labels of a valid observation are compared, and a difference is reported. -/
theorem evaluateOne_labels (hlabels : .labels ∉ (evaluateOne r false w).1.reasons)
    (hvalid : .invalidObservation ∉ (evaluateOne r false w).1.reasons) :
    labelsMatch w.labels (orEmpty r.requiredLabels) = true := by
  have hreasons : .labels ∉ filterReasons r w → labelsMatch w.labels (orEmpty r.requiredLabels) =
      true := by
    intro hnot
    simp only [filterReasons, List.mem_append, mem_reasonIf, Bool.not_eq_true', not_or] at hnot
    simpa using hnot.1.1.2
  rw [evaluateOne] at hlabels hvalid
  split at hlabels
  next hbad =>
    rw [if_pos hbad] at hvalid
    exact absurd List.mem_cons_self hvalid
  next hgood =>
    split at hlabels
    next => exact hreasons hlabels
    next hnone =>
      refine hreasons ?_
      rw [not_not.mp hnone]
      exact List.not_mem_nil

/-- The list a call reports is about the Workers it was given, one by one. -/
theorem reported_names {p' : Planner} {result : Except PlanFailure Decision}
    (hexec : Op.exec (Planner.plan r workers) p = (result, p')) {c : Candidate}
    (hc : c ∈ reported result) :
    ∃ w, Names workers c.session w ∧ c = (evaluateOne r false w).1 := by
  have hevaluated : validateWorkerSet workers = .ok () → c ∈ (evaluateCandidates r workers).1 →
      ∃ w, Names workers c.session w ∧ c = (evaluateOne r false w).1 := by
    intro hworkers hmem
    have hnodup := (validateWorkerSet_ok.mp hworkers).2
    obtain ⟨w, hw, rfl⟩ := (mem_candidates hnodup).mp hmem
    rw [evaluateOne_session.1]
    exact ⟨w, names_of_nodup hnodup hw, rfl⟩
  cases hr : r.validate with
  | error err =>
    cases (plan_invalid hr).symm.trans hexec
    exact absurd hc List.not_mem_nil
  | ok _ =>
    obtain ⟨fingerprint, -, hplans⟩ := plan_exec hexec hr
    cases hplans with
    | unplaced _ hworkers | placed _ hworkers => exact hevaluated hworkers hc
    | _ => exact absurd hc List.not_mem_nil

/--
The Worker of a new assignment, and every Worker whose observation is reported as valid and without
the labels reason, carries every required label with a value, and has no other value under the key
of any required label.
-/
theorem required_labels_carried (p : Planner) (r : PlacementRequest)
    (workers : List WorkerSnapshot) :
    (∀ decision, (Op.exec (Planner.plan r workers) p).1 = .ok decision →
      decision.status = .applied → ∃ w, Names workers decision.assignment.worker w ∧ ∀ key value,
        (orEmpty r.requiredLabels).get? key = some value → Carries w key value) ∧
    ∀ c ∈ reported (Op.exec (Planner.plan r workers) p).1,
      .labels ∉ c.reasons → .invalidObservation ∉ c.reasons →
      ∃ w, Names workers c.session w ∧ ∀ key value,
        (orEmpty r.requiredLabels).get? key = some value → Carries w key value := by
  rcases hexec : Op.exec (Planner.plan r workers) p with ⟨result, p'⟩
  constructor
  · intro decision hdecision happlied
    obtain rfl : result = .ok decision := hdecision
    obtain ⟨w, hnames, heligible, -⟩ := applied_chosen hexec happlied
    exact ⟨w, hnames, fun key value => carries_of_match heligible.labels⟩
  · intro c hc hlabels hvalid
    obtain ⟨w, hnames, rfl⟩ := reported_names hexec hc
    exact ⟨w, hnames, fun key value => carries_of_match (evaluateOne_labels hlabels hvalid)⟩

/-- More memory allocated than there is. -/
def sampleBadWorker : WorkerSnapshot :=
  { Discovery.sampleWorker with capacity := ⟨1024, 2048, 8, 1⟩ }

/--
A Worker without the key is chosen when the required value is empty, and one without the key is
reported without the labels reason when its observation does not validate.
-/
theorem required_labels_missing :
    ((sampleRequest sampleEmptyLabel).validate = .ok () ∧
      (orEmpty (sampleRequest sampleEmptyLabel).requiredLabels).get? "zone" = some [] ∧
      Discovery.sampleWorker.labels.get? "zone" = none ∧ ∃ decision,
      (Op.exec (Planner.plan (sampleRequest sampleEmptyLabel) [Discovery.sampleWorker])
        samplePlanner).1 = .ok decision ∧ decision.status = .applied ∧
      decision.assignment.worker = Discovery.sampleWorker.session) ∧
    ((sampleRequest sampleLabel).validate = .ok () ∧
      (orEmpty (sampleRequest sampleLabel).requiredLabels).get? "zone" = some "a" ∧
      sampleBadWorker.labels.get? "zone" = none ∧ ∃ c ∈ reported
        (Op.exec (Planner.plan (sampleRequest sampleLabel) [sampleBadWorker]) samplePlanner).1,
      c.session = sampleBadWorker.session ∧ .labels ∉ c.reasons) := by
  constructor
  · refine ⟨sampleRequest_valid.2.1, rfl, rfl, ?_⟩
    obtain ⟨decision, hplan, hdecision⟩ := exists_ok (show ((Op.exec (Planner.plan
      (sampleRequest sampleEmptyLabel) [Discovery.sampleWorker]) samplePlanner).1.toOption.any
      fun d => d.status = .applied && d.assignment.worker = Discovery.sampleWorker.session) = true by
        decide +kernel)
    rw [Bool.and_eq_true, decide_eq_true_eq, decide_eq_true_eq] at hdecision
    exact ⟨decision, hplan, hdecision⟩
  · exact ⟨sampleRequest_valid.2.2, rfl, rfl, by decide +kernel⟩

end MiniCloud.Scheduler
