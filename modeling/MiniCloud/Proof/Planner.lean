import Mathlib.Algebra.Order.Field.Basic
import Mathlib.Algebra.Order.Ring.Rat
import Mathlib.Order.Compare
import Mathlib.Tactic.FieldSimp
import MiniCloud.Lib.Words
import MiniCloud.Proof.Snapshot
import MiniCloud.Scheduler.Planner

/-!
# The planner's choice

Two things make a placement independent of the order of the observations. With distinct Worker ids
the test for repetitions never fires, so each Worker is judged alone (`evaluateEach_eq`). And the
two orders it sorts by tell Workers apart by their ids.

The order of the eligible Workers is not transitive as such: a ratio with denominator zero compares
equal to everything. On eligible Workers no denominator is zero, the comparison is the one of exact
rationals (`compareRatio_eq`), and sorting sees no difference (`sortFunc_congr`).
-/

namespace MiniCloud.Scheduler

open Lib Problem Digest Model ServingAuth

/-! ## Ratios -/

theorem mul64_toNat (x y : UInt64) : (mul64 x y).1.toNat = x.toNat * y.toNat / 2 ^ 64 ∧
    (mul64 x y).2.toNat = x.toNat * y.toNat % 2 ^ 64 := by
  have hx : x.toNat < 2 ^ 64 := x.toNat_lt
  have hy : y.toNat < 2 ^ 64 := y.toNat_lt
  have hproduct : x.toNat * y.toNat < 2 ^ 64 * 2 ^ 64 := Nat.mul_lt_mul'' hx hy
  constructor
  · exact UInt64.toNat_ofNat_of_lt' (Nat.div_lt_of_lt_mul hproduct)
  · exact UInt64.toNat_ofNat_of_lt' (Nat.mod_lt _ (by decide))

/-- Comparing two words after two words is comparing the products. -/
theorem mul64_lt {a b c d : UInt64} :
    ((mul64 a b).1 < (mul64 c d).1 ∨ ((mul64 a b).1 = (mul64 c d).1 ∧
      (mul64 a b).2 < (mul64 c d).2)) ↔ a.toNat * b.toNat < c.toNat * d.toNat := by
  obtain ⟨hhigh, hlow⟩ := mul64_toNat a b
  obtain ⟨hhigh', hlow'⟩ := mul64_toNat c d
  rw [UInt64.lt_iff_toNat_lt, UInt64.lt_iff_toNat_lt, ← UInt64.toNat_inj, hhigh, hlow, hhigh', hlow']
  generalize a.toNat * b.toNat = m
  generalize c.toNat * d.toNat = n
  omega

theorem compareRatio_products (a b c d : UInt64) :
    compareRatio a b c d = compare (a.toNat * d.toNat) (c.toNat * b.toNat) := by
  have hlt := @mul64_lt a d c b
  have hgt := @mul64_lt c b a d
  simp only [@eq_comm _ (mul64 c b).1] at hgt
  simp only [compareRatio, hlt, hgt]
  rcases Nat.lt_trichotomy (a.toNat * d.toNat) (c.toNat * b.toNat) with h | h | h
  · rw [if_pos h, compare_lt_iff_lt.mpr h]
  · rw [if_neg (by omega), if_neg (by omega), compare_eq_iff_eq.mpr h]
  · rw [if_neg (by omega), if_pos h, compare_gt_iff_gt.mpr h]

/-- The exact value of a ratio. -/
def ratio (numerator denominator : UInt64) : ℚ := numerator.toNat / denominator.toNat

/-- With nonzero denominators the comparison is the one of the rationals. -/
theorem compareRatio_eq {a b c d : UInt64} (hb : b ≠ 0) (hd : d ≠ 0) :
    compareRatio a b c d = compare (ratio a b) (ratio c d) := by
  have hpos : ∀ n : UInt64, n ≠ 0 → (0 : ℚ) < n.toNat := by
    intro n hn
    have hne : n.toNat ≠ 0 := fun h => hn (UInt64.toNat_inj.mp h)
    exact_mod_cast Nat.pos_of_ne_zero hne
  have hlt : ratio a b < ratio c d ↔ a.toNat * d.toNat < c.toNat * b.toNat := by
    rw [ratio, ratio, div_lt_div_iff₀ (hpos b hb) (hpos d hd)]
    exact_mod_cast Iff.rfl
  have hgt : ratio c d < ratio a b ↔ c.toNat * b.toNat < a.toNat * d.toNat := by
    rw [ratio, ratio, div_lt_div_iff₀ (hpos d hd) (hpos b hb)]
    exact_mod_cast Iff.rfl
  rw [compareRatio_products]
  rcases Nat.lt_trichotomy (a.toNat * d.toNat) (c.toNat * b.toNat) with h | h | h
  · rw [compare_lt_iff_lt.mpr h, compare_lt_iff_lt.mpr (hlt.mpr h)]
  · have heq : ratio a b = ratio c d :=
      le_antisymm (not_lt.mp fun hc => absurd (hgt.mp hc) (by omega))
        (not_lt.mp fun hc => absurd (hlt.mp hc) (by omega))
    rw [compare_eq_iff_eq.mpr h, compare_eq_iff_eq.mpr heq]
  · rw [compare_gt_iff_gt.mpr h, compare_gt_iff_gt.mpr (hgt.mpr h)]

/-! ## Eligible Workers -/

/-- What a Worker must satisfy to be placed on. -/
structure Eligible (r : PlacementRequest) (w : WorkerSnapshot) : Prop where
  valid : w.validate = .ok ()
  schedulable : w.intent = .schedulable
  ready : w.state = .ready
  runtime : w.runtime.compatible r = true
  labels : labelsMatch w.labels (orEmpty r.requiredLabels) = true
  memory : w.capacity.allocatedMemoryMiB.toNat + r.memoryMiB.toNat ≤ w.capacity.memoryMiB.toNat
  slots : w.capacity.allocatedSlots.toNat + r.requiredSlots.toNat ≤ w.capacity.slots.toNat

theorem reasonIf_nil {failed : Bool} {reason : FilterReason} :
    reasonIf failed reason = [] ↔ failed = false := by
  cases failed <;> simp [reasonIf]

variable {r : PlacementRequest} {w : WorkerSnapshot} {workers : List WorkerSnapshot}

theorem filterReasons_nil (hvalid : w.validate = .ok ()) :
    filterReasons r w = [] ↔ Eligible r w := by
  have hmemory : memoryOK w.capacity r = true ↔
      w.capacity.allocatedMemoryMiB.toNat + r.memoryMiB.toNat ≤ w.capacity.memoryMiB.toNat := by
    rw [memoryOK, room_iff, UInt32.toNat_toUInt64]
  have hslots : slotsOK w.capacity r = true ↔
      w.capacity.allocatedSlots.toNat + r.requiredSlots.toNat ≤ w.capacity.slots.toNat := room_iff
  simp only [filterReasons, List.append_eq_nil_iff, reasonIf_nil, bne_eq_false_iff_eq,
    Bool.not_eq_false', hmemory, hslots]
  constructor
  · rintro ⟨⟨⟨⟨⟨hintent, hstate⟩, hruntime⟩, hlabels⟩, hmem⟩, hslot⟩
    exact ⟨hvalid, hintent, hstate, hruntime, hlabels, hmem, hslot⟩
  · intro h
    exact ⟨⟨⟨⟨⟨h.schedulable, h.ready⟩, h.runtime⟩, h.labels⟩, h.memory⟩, h.slots⟩

theorem validate_positive (h : r.validate = .ok ()) :
    r.memoryMiB ≠ 0 ∧ r.requiredSlots ≠ 0 := by
  have hchecks := (seq_ok.mp h).1
  simp only [checks_ok, List.forall_mem_cons, mustNot_fails, Bool.or_eq_false_iff,
    beq_eq_false_iff_ne] at hchecks
  obtain ⟨-, -, -, -, -, -, -, ⟨⟨-, hmemory⟩, hslots⟩, -⟩ := hchecks
  exact ⟨hmemory, hslots⟩

/-- Room for something means that the total is not zero. -/
theorem Eligible.denominators (h : Eligible r w) (hr : r.validate = .ok ()) :
    w.capacity.slots ≠ 0 ∧ w.capacity.memoryMiB ≠ 0 := by
  obtain ⟨hmemory, hslots⟩ := validate_positive hr
  have hmemory' : r.memoryMiB.toNat ≠ 0 := fun hzero => hmemory (UInt32.toNat_inj.mp hzero)
  have hslots' : r.requiredSlots.toNat ≠ 0 := fun hzero => hslots (UInt64.toNat_inj.mp hzero)
  have hfit := h.memory
  have hfit' := h.slots
  constructor
  · intro hzero
    rw [hzero, UInt64.toNat_zero] at hfit'
    omega
  · intro hzero
    rw [hzero, UInt64.toNat_zero] at hfit
    omega

/-- A Worker judged alone is eligible exactly when it passes every filter. -/
theorem evaluateOne_some {c : EligibleCandidate} :
    (evaluateOne r false w).2 = some c ↔ Eligible r w ∧ c = ranked r w := by
  rw [evaluateOne, Bool.false_or]
  by_cases hvalid : w.validate = .ok ()
  · rw [if_neg (by simp [hvalid, Except.isOk, Except.toBool])]
    by_cases hreasons : filterReasons r w = []
    · rw [if_neg (by simp [hreasons])]
      have heligible := (filterReasons_nil hvalid).mp hreasons
      simp only [Option.some.injEq, heligible, true_and]
      exact eq_comm
    · rw [if_pos hreasons]
      have hnot : ¬ Eligible r w := fun h => hreasons ((filterReasons_nil hvalid).mpr h)
      simp [hnot]
  · have hbad : (!w.validate.isOk) = true := by
      rw [Bool.not_eq_true', Bool.eq_false_iff]
      exact fun h => hvalid (isOk_iff.mp h)
    rw [if_pos hbad]
    have hnot : ¬ Eligible r w := fun h => hvalid h.valid
    simp [hnot]

theorem evaluateOne_session {seen : Bool} :
    (evaluateOne r seen w).1.session = w.session ∧
      (evaluateOne r seen w).1.workerID = w.session.workerID := by
  unfold evaluateOne
  split
  · exact ⟨rfl, rfl⟩
  · split
    · exact ⟨rfl, rfl⟩
    · exact ⟨rfl, rfl⟩

/-! ## Orders -/

def workerIDs (workers : List WorkerSnapshot) : List GoString :=
  workers.map fun w => w.session.workerID

/-- Workers with distinct ids are judged one by one. -/
theorem evaluateEach_eq {seen : List GoString} (hnodup : (workerIDs workers).Nodup)
    (hfresh : ∀ w ∈ workers, w.session.workerID ∉ seen) :
    evaluateEach r seen workers = workers.map (evaluateOne r false) := by
  induction workers generalizing seen with
  | nil => rfl
  | cons w rest ih =>
    obtain ⟨hnew, hrest⟩ := List.nodup_cons.mp hnodup
    have hseen : seen.contains w.session.workerID = false := by
      simpa using hfresh w List.mem_cons_self
    rw [evaluateEach, hseen, List.map_cons, ih hrest]
    intro w' hw' hmem
    rcases List.mem_cons.mp hmem with heq | hmem
    · exact hnew (List.mem_map.mpr ⟨w', hw', heq⟩)
    · exact hfresh w' (List.mem_cons_of_mem _ hw') hmem

theorem evaluateCandidates_eq (r : PlacementRequest) (hnodup : (workerIDs workers).Nodup) :
    evaluateCandidates r workers =
      (sortFunc compareCandidates (workers.map fun w => (evaluateOne r false w).1),
        workers.filterMap fun w => (evaluateOne r false w).2) := by
  rw [evaluateCandidates, evaluateEach_eq hnodup fun _ _ => List.not_mem_nil, List.map_map,
    List.filterMap_map]
  rfl

theorem mem_eligible {c : EligibleCandidate} :
    c ∈ workers.filterMap (fun w => (evaluateOne r false w).2) ↔
      ∃ w ∈ workers, Eligible r w ∧ c = ranked r w := by
  simp only [List.mem_filterMap, evaluateOne_some]

instance : Std.TransCmp compareCandidates :=
  inferInstanceAs (Std.TransCmp (compareLex (compareOn Candidate.workerID) <|
    compareLex (compareOn fun c => c.session.bootID) (compareOn fun c => c.session.sessionEpoch)))

instance : Std.TransCmp compareSessions :=
  inferInstanceAs (Std.TransCmp (compareLex (compareOn WorkerSession.workerID) <|
    compareLex (compareOn WorkerSession.bootID) (compareOn WorkerSession.sessionEpoch)))

/-- `compareEligible` with exact rationals in place of the word arithmetic. -/
def compareRank : EligibleCandidate → EligibleCandidate → Ordering :=
  compareLex (fun a b => compare b.cacheScore a.cacheScore) <|
  compareLex (fun a b => compare b.spreadScore a.spreadScore) <|
  compareLex (compareOn fun c => ratio c.loadNumerator c.loadDenominator) <|
  compareLex (compareOn fun c => ratio c.memoryNumerator c.memoryDenominator)
    fun a b => compareSessions a.worker.session b.worker.session

instance : Std.TransCmp compareRank := by
  have hcache : Std.TransCmp fun a b : EligibleCandidate => compare b.cacheScore a.cacheScore :=
    @Std.TransCmp.opposite _ _ (transCmp_comap compare EligibleCandidate.cacheScore)
  have hspread : Std.TransCmp fun a b : EligibleCandidate => compare b.spreadScore a.spreadScore :=
    @Std.TransCmp.opposite _ _ (transCmp_comap compare EligibleCandidate.spreadScore)
  have hsession : Std.TransCmp fun a b : EligibleCandidate =>
      compareSessions a.worker.session b.worker.session :=
    transCmp_comap compareSessions fun c : EligibleCandidate => c.worker.session
  exact inferInstanceAs (Std.TransCmp (compareLex _ _))

theorem compareScore_eq (a b : UInt8) : compareScore a b = compare b a := by
  show compareScore a b = compareOfLessAndEq b a
  rw [compareScore, compareOfLessAndEq]
  by_cases hlt : b < a
  · have hne : a ≠ b := fun heq => UInt8.lt_irrefl b (heq ▸ hlt)
    rw [if_pos hne, if_pos hlt, if_pos hlt]
  · by_cases heq : a = b
    · rw [if_neg (not_not.mpr heq), if_neg hlt, if_pos heq.symm]
    · rw [if_pos heq, if_neg hlt, if_neg hlt, if_neg (Ne.symm heq)]

/-- On eligible Workers the source's comparison is the exact one. -/
theorem compareEligible_eq (hr : r.validate = .ok ()) {w' : WorkerSnapshot} (h : Eligible r w)
    (h' : Eligible r w') :
    compareEligible (ranked r w) (ranked r w') = compareRank (ranked r w) (ranked r w') := by
  obtain ⟨hslots, hmemory⟩ := h.denominators hr
  obtain ⟨hslots', hmemory'⟩ := h'.denominators hr
  have hload : compareRatio (ranked r w).loadNumerator (ranked r w).loadDenominator
      (ranked r w').loadNumerator (ranked r w').loadDenominator = _ :=
    compareRatio_eq hslots hslots'
  have hmem : compareRatio (ranked r w).memoryNumerator (ranked r w).memoryDenominator
      (ranked r w').memoryNumerator (ranked r w').memoryDenominator = _ :=
    compareRatio_eq hmemory hmemory'
  rw [compareEligible, compareScore_eq, compareScore_eq, hload, hmem]
  rfl

theorem compareRank_session {a b : EligibleCandidate} (h : compareRank a b = .eq) :
    a.worker.session.workerID = b.worker.session.workerID := by
  simp only [compareRank, compareLex, compareOn, Ordering.then_eq_eq, compareSessions,
    Std.LawfulEqOrd.compare_eq_iff_eq] at h
  exact h.2.2.2.2.1

theorem sort_eligible (hr : r.validate = .ok ()) (workers : List WorkerSnapshot) :
    sortFunc compareEligible (workers.filterMap fun w => (evaluateOne r false w).2) =
      sortFunc compareRank (workers.filterMap fun w => (evaluateOne r false w).2) := by
  refine sortFunc_congr fun a ha b hb => ?_
  obtain ⟨w, -, hw, rfl⟩ := mem_eligible.mp ha
  obtain ⟨w', -, hw', rfl⟩ := mem_eligible.mp hb
  exact compareEligible_eq hr hw hw'

/-- Two Workers of the list with one id are the same Worker. -/
theorem worker_unique (hnodup : (workerIDs workers).Nodup) {w' : WorkerSnapshot}
    (hw : w ∈ workers) (hw' : w' ∈ workers) (heq : w.session.workerID = w'.session.workerID) :
    w = w' :=
  List.inj_on_of_nodup_map hnodup hw hw' heq

section Permutations

variable {workers' : List WorkerSnapshot}

theorem candidates_perm (hnodup : (workerIDs workers).Nodup) (hperm : workers.Perm workers') :
    sortFunc compareCandidates (workers.map fun w => (evaluateOne r false w).1) =
      sortFunc compareCandidates (workers'.map fun w => (evaluateOne r false w).1) := by
  refine sortFunc_eq_of_perm (hperm.map _) fun a ha b hb heq => ?_
  obtain ⟨w, hw, rfl⟩ := List.mem_map.mp ha
  obtain ⟨w', hw', rfl⟩ := List.mem_map.mp hb
  simp only [compareCandidates, compareLex, compareOn, Ordering.then_eq_eq,
    Std.LawfulEqOrd.compare_eq_iff_eq] at heq
  have hid := heq.1
  rw [evaluateOne_session.2, evaluateOne_session.2] at hid
  rw [worker_unique hnodup hw hw' hid]

theorem eligible_perm (hr : r.validate = .ok ()) (hnodup : (workerIDs workers).Nodup)
    (hperm : workers.Perm workers') :
    sortFunc compareEligible (workers.filterMap fun w => (evaluateOne r false w).2) =
      sortFunc compareEligible (workers'.filterMap fun w => (evaluateOne r false w).2) := by
  rw [sort_eligible hr, sort_eligible hr]
  refine sortFunc_eq_of_perm (hperm.filterMap _) fun a ha b hb heq => ?_
  obtain ⟨w, hw, -, rfl⟩ := mem_eligible.mp ha
  obtain ⟨w', hw', -, rfl⟩ := mem_eligible.mp hb
  rw [worker_unique hnodup hw hw' (compareRank_session heq)]

end Permutations

/-! ## Fingerprints -/

theorem validate_size (hr : r.validate = .ok ()) :
    1 ≤ r.artifactSize ∧ r.artifactSize ≤ maxArtifactBytes := by
  have hchecks := checks_ok.mp (seq_ok.mp hr).1
  simp only [List.forall_mem_cons, mustNot_fails, Bool.or_eq_false_iff, decide_eq_false_iff_not,
    not_lt] at hchecks
  exact hchecks.2.2.2.2.1

theorem accepted_key (key : WorkerCache.Key) : (keyJSON key).Accepted := by
  have hsize : Json.Accepted (.ofInt key.artifactSize.toInt) := by
    have hlower := key.artifactSize.le_toInt
    have hupper := key.artifactSize.toInt_lt
    exact Json.accepted_ofInt (by omega)
  exact Json.accepted_record rfl (by simp [hsize])

theorem accepted_map {V : Type} {value : V → Json Json.Num} (hvalue : ∀ v, (value v).Accepted)
    (m : Option (GoMap GoString V)) : Json.Accepted (.ofOption (Json.ofMap value) m) := by
  cases m with
  | none => exact ⟨trivial, trivial⟩
  | some m => exact Json.accepted_ofMap hvalue m

/-- Every valid request has a fingerprint. -/
theorem requestFingerprint_ok (hr : r.validate = .ok ()) :
    ∃ fingerprint, requestFingerprint r = .ok fingerprint := by
  obtain ⟨hlower, hupper⟩ := validate_size hr
  have hsize : Json.Accepted (.ofInt r.artifactSize) := by
    refine Json.accepted_ofInt ?_
    unfold maxArtifactBytes at hupper
    omega
  have hlabels := accepted_map Json.accepted_ofGoString r.requiredLabels
  have hworkers := @accepted_map Unit (fun _ => .obj []) (by simp) r.existingWorkerIDs
  have haccepted : Json.Accepted { r with commandID := [] }.toJSON :=
    Json.accepted_record rfl (by simp [hsize, hlabels, hworkers, accepted_key])
  obtain ⟨text, htext⟩ := haccepted.transform
  rw [requestFingerprint, canonicalJSON, htext, if_neg (by decide), if_neg (by decide)]
  exact ⟨_, rfl⟩

/-! ## What `Plan` can do -/

/-- The two errors of a request whose id is taken by another one. -/
def commandReused : GoError :=
  classified .conflict "command id was reused with different placement input"

def assignmentReused : GoError :=
  classified .conflict "assignment id was reused with different placement input"

def noneEligible : GoError :=
  classified .noReadyReplica "no Worker satisfies the placement constraints"

/-- The planner that has recorded a decision. -/
def Planner.recorded (p : Planner) (r : PlacementRequest) (fingerprint : SHA256)
    (decision : Decision) : Planner :=
  { p with
    decisions := p.decisions.set r.commandID ⟨fingerprint, decision⟩
    assignments := p.assignments.set r.assignmentID r.commandID }

/-- The guards before the Workers are looked at. -/
structure Open (p : Planner) (r : PlacementRequest) : Prop where
  command : p.decisions.get? r.commandID = none
  assignment : p.assignments.get? r.assignmentID = none
  ready : p.barrier.ready = true
  room : (p.decisions.len : Int) < p.maxDecisions

/-- Every way a call of `Plan` with a valid request can go. -/
inductive Plans (p : Planner) (r : PlacementRequest) (fingerprint : SHA256)
    (workers : List WorkerSnapshot) : Except PlanFailure Decision → Planner → Prop
  | commandReused {record : DecisionRecord} (hrecord : p.decisions.get? r.commandID = some record)
      (hother : record.fingerprint ≠ fingerprint) :
      Plans p r fingerprint workers (.error (failing commandReused)) p
  | duplicate {record : DecisionRecord} (hrecord : p.decisions.get? r.commandID = some record)
      (hsame : record.fingerprint = fingerprint) :
      Plans p r fingerprint workers (.ok { record.decision with status := .duplicate }) p
  | assignmentReused {commandID : GoString} (hcommand : p.decisions.get? r.commandID = none)
      (hassignment : p.assignments.get? r.assignmentID = some commandID)
      (hother : ((p.decisions.get? commandID).getD ⟨[], noDecision⟩).fingerprint ≠ fingerprint) :
      Plans p r fingerprint workers (.error (failing assignmentReused)) p
  | alreadySatisfied {commandID : GoString} (hcommand : p.decisions.get? r.commandID = none)
      (hassignment : p.assignments.get? r.assignmentID = some commandID)
      (hsame : ((p.decisions.get? commandID).getD ⟨[], noDecision⟩).fingerprint = fingerprint) :
      Plans p r fingerprint workers (.ok { ((p.decisions.get? commandID).getD
        ⟨[], noDecision⟩).decision with status := .alreadySatisfied }) p
  | stale (hcommand : p.decisions.get? r.commandID = none)
      (hassignment : p.assignments.get? r.assignmentID = none) (hready : p.barrier.ready = false) :
      Plans p r fingerprint workers (.error (failing
        (classified .controlPlaneStale "current Leader barrier is not installed"))) p
  | full (hcommand : p.decisions.get? r.commandID = none)
      (hassignment : p.assignments.get? r.assignmentID = none) (hready : p.barrier.ready = true)
      (hfull : p.maxDecisions ≤ p.decisions.len) :
      Plans p r fingerprint workers (.error (failing
        (classified .overloaded "scheduler decision capacity is full"))) p
  | badWorkers {err : GoError} (hopen : Open p r) (hworkers : validateWorkerSet workers = .error err) :
      Plans p r fingerprint workers (.error (failing err)) p
  | unplaced (hopen : Open p r) (hworkers : validateWorkerSet workers = .ok ())
      (hnone : (evaluateCandidates r workers).2 = []) :
      Plans p r fingerprint workers (.error ⟨{ noDecision with
        barrier := p.barrier, candidates := (evaluateCandidates r workers).1 }, noneEligible⟩) p
  | placed {chosen : EligibleCandidate} (hopen : Open p r)
      (hworkers : validateWorkerSet workers = .ok ())
      (hchosen : (sortFunc compareEligible (evaluateCandidates r workers).2).head? = some chosen) :
      Plans p r fingerprint workers
        (.ok ⟨.applied, Planner.assignmentFor r chosen, p.barrier, (evaluateCandidates r workers).1⟩)
        (p.recorded r fingerprint
          ⟨.applied, Planner.assignmentFor r chosen, p.barrier, (evaluateCandidates r workers).1⟩)

theorem plan_invalid {p : Planner} {err : GoError} (hr : r.validate = .error err) :
    Op.exec (Planner.plan r workers) p = (.error (failing err), p) := by
  rw [Planner.plan, hr]
  rfl

theorem plan_exec {p p' : Planner} {result : Except PlanFailure Decision}
    (hexec : Op.exec (Planner.plan r workers) p = (result, p')) (hr : r.validate = .ok ()) :
    ∃ fingerprint, requestFingerprint r = .ok fingerprint ∧
      Plans p r fingerprint workers result p' := by
  obtain ⟨fingerprint, hfingerprint⟩ := requestFingerprint_ok hr
  refine ⟨fingerprint, hfingerprint, ?_⟩
  suffices h : Plans p r fingerprint workers (Op.exec (Planner.plan r workers) p).1
      (Op.exec (Planner.plan r workers) p).2 by
    rw [hexec] at h
    exact h
  clear hexec
  have hvalid : r.validate.mapError failing = .ok () := by
    rw [hr]
    rfl
  have hdigest : (requestFingerprint r).mapError failing = .ok fingerprint := by
    rw [hfingerprint]
    rfl
  rw [Planner.plan, Op.exec_ofExcept_ok_bind hvalid, Op.exec_ofExcept_ok_bind hdigest,
    Op.exec_get_bind]
  cases hrecord : p.decisions.get? r.commandID with
  | some record =>
    simp only [Planner.retained, Op.exec_failIf_bind, Op.exec_pure]
    by_cases hsame : record.fingerprint = fingerprint
    · rw [if_neg (by simp [hsame])]
      exact .duplicate hrecord hsame
    · rw [if_pos (by simp [hsame])]
      exact .commandReused hrecord hsame
  | none =>
    cases hassignment : p.assignments.get? r.assignmentID with
    | some commandID =>
      simp only [Planner.retained, Op.exec_failIf_bind, Op.exec_pure]
      by_cases hsame :
          ((p.decisions.get? commandID).getD ⟨[], noDecision⟩).fingerprint = fingerprint
      · rw [if_neg (by simp [hsame])]
        exact .alreadySatisfied hrecord hassignment hsame
      · rw [if_pos (by simp [hsame])]
        exact .assignmentReused hrecord hassignment hsame
    | none =>
      simp only [Planner.place, Op.exec_get_bind, Op.exec_failIf_bind]
      by_cases hready : p.barrier.ready = true
      · rw [if_neg (by simp [hready])]
        by_cases hfull : p.maxDecisions ≤ p.decisions.len
        · rw [if_pos (by simpa using hfull)]
          exact .full hrecord hassignment hready hfull
        · rw [if_neg (by simpa using hfull)]
          have hopen : Open p r := ⟨hrecord, hassignment, hready, by omega⟩
          cases hworkers : validateWorkerSet workers with
          | error err => exact .badWorkers hopen hworkers
          | ok _ =>
            simp only [mapError_ok.mpr rfl, Op.exec_ofExcept_bind, Op.exec_orFail_bind]
            cases hchosen : (sortFunc compareEligible (evaluateCandidates r workers).2).head? with
            | none =>
              have hnil := List.head?_eq_none_iff.mp hchosen
              have hperm := sortFunc_perm compareEligible (evaluateCandidates r workers).2
              rw [hnil] at hperm
              exact .unplaced hopen hworkers hperm.nil_eq.symm
            | some chosen => exact .placed hopen hworkers hchosen
      · rw [if_pos (by simp [hready])]
        exact .stale hrecord hassignment (by simpa using hready)

end MiniCloud.Scheduler
