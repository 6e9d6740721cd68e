import MiniCloud.Lib.Json.Members
import MiniCloud.Lib.Machine
import MiniCloud.Scheduler

/-!
# The placement planner

`internal/scheduler/planner.go`: deterministic placement over one list of Worker observations, with
a journal of decisions that only an acknowledgement removes. Every method holds the mutex
throughout, so a run of the planner is a list of calls. `Plan` may return a decision next to its
error, which is why a failure carries one.

The two maps of a request are marshalled into its fingerprint, where a nil map is `null` and an
empty one is not, so they are an `Option`. `Validate` visits three identifiers, and the entries of
both maps, in an order Go leaves open; the model visits them as they are listed, which only decides
which of several errors an invalid request gets.
-/

namespace MiniCloud.Scheduler

open Lib Problem Digest Model ServingAuth

def defaultMaxDecisions : Int := 100000
def hardMaxDecisions : Int := 100000
def maxWorkers : Nat := 1000
def maxExistingWorkers : Nat := 100

/-! ## Requests -/

/-- The immutable inputs of one Assignment decision. -/
structure PlacementRequest where
  commandID : GoString
  assignmentID : GoString
  versionID : GoString
  artifactDigest : SHA256
  artifactSize : Int
  abi : GoString
  hostAPI : GoString
  featureProfile : GoString
  runtimeName : GoString
  runtimeVersion : GoString
  runtimeEngine : GoString
  goos : GoString
  goarch : GoString
  memoryMiB : UInt32
  requiredSlots : UInt64
  admissionEpoch : UInt64
  deploymentGeneration : UInt64
  policyDigest : SHA256
  compiledCacheKey : WorkerCache.Key
  requiredLabels : Option (GoMap GoString GoString)
  existingWorkerIDs : Option (GoMap GoString Unit)

/-- What a read or a `range` sees of a map that may be nil. -/
def orEmpty {K V : Type} (m : Option (GoMap K V)) : GoMap K V := m.getD ∅

/-- The key names the compilation that the request is for. -/
def PlacementRequest.keyMatches (r : PlacementRequest) : Bool :=
  let key := r.compiledCacheKey
  key.artifactDigest == r.artifactDigest && key.artifactSize.toInt == r.artifactSize &&
    key.runtimeName == r.runtimeName && key.runtimeVersion == r.runtimeVersion &&
    key.engine == r.runtimeEngine && key.goos == r.goos && key.goarch == r.goarch &&
    key.abi == r.abi && key.hostAPIProfile == r.hostAPI &&
    key.runtimeFeatureProfile == r.featureProfile && key.memoryLimitMiB == r.memoryMiB

/-- One pass of the loop over the required labels. -/
def validateRequiredLabel (label : GoString × GoString) : Validation :=
  checks [
    mustNot (!labelKeyPattern label.1) "required_labels" "contains an invalid key",
    mustNot (!Text.validUTF8 label.2 || 256 < label.2.length) "required_labels"
      "contains an invalid value"]

def PlacementRequest.validate (r : PlacementRequest) : Validation := do
  checks [
    mustNot (!identifierPattern r.commandID) "command_id" "must be a valid identifier",
    mustNot (!identifierPattern r.assignmentID) "assignment_id" "must be a valid identifier",
    mustNot (!identifierPattern r.versionID) "version_id" "must be a valid identifier",
    mustNot (!encodedPattern r.artifactDigest) "artifact_digest"
      "must be a lowercase sha-256 digest",
    mustNot (r.artifactSize < 1 || maxArtifactBytes < r.artifactSize) "artifact_size"
      "must be within the v1 artifact size limit",
    mustNot (r.abi != abiWASICommandV1) "abi" "is not supported",
    mustNot (r.hostAPI != hostAPIProfileNone) "host_api" "is not supported",
    mustNot (r.runtimeName != WasmProfile.runtimeName ||
        r.runtimeVersion != WasmProfile.runtimeVersion || r.runtimeEngine == [] || r.goos == [] ||
        r.goarch == [] || r.featureProfile != WasmProfile.featureProfile || r.memoryMiB == 0 ||
        r.requiredSlots == 0) "runtime_profile"
      "runtime, platform, feature, memory, and slots are required",
    mustNot (!(WasmProfile.new r.runtimeEngine r.memoryMiB).isOk) "runtime_profile"
      "engine and memory tier are unsupported",
    mustNot (maxWorkerSlots < r.requiredSlots) "required_slots"
      "exceeds the v1 worker slot limit",
    mustNot (r.admissionEpoch == 0 || r.deploymentGeneration == 0) "generation"
      "admission epoch and deployment generation are required",
    mustNot (!encodedPattern r.policyDigest) "policy_digest" "must be a lowercase sha-256 digest",
    mustNot (r.compiledCacheKey.artifactDigest != [] && !r.keyMatches) "compiled_cache_key"
      "does not match placement runtime inputs",
    mustNot (maxRequiredLabels < (orEmpty r.requiredLabels).len) "required_labels"
      "contains too many labels"]
  checkAll validateRequiredLabel (orEmpty r.requiredLabels).toList
  checks [
    mustNot (maxExistingWorkers < (orEmpty r.existingWorkerIDs).len) "existing_worker_ids"
      "contains too many workers",
    mustNot (!(orEmpty r.existingWorkerIDs).toList.all fun entry => identifierPattern entry.1)
      "existing_worker_ids" "contains an invalid worker id"]

def keyJSON (key : WorkerCache.Key) : Json Json.Num :=
  .obj [
    ("ArtifactDigest", .ofGoString key.artifactDigest),
    ("ArtifactSize", .ofInt key.artifactSize.toInt),
    ("RuntimeName", .ofGoString key.runtimeName),
    ("RuntimeVersion", .ofGoString key.runtimeVersion),
    ("ABI", .ofGoString key.abi),
    ("HostAPIProfile", .ofGoString key.hostAPIProfile),
    ("RuntimeFeatureProfile", .ofGoString key.runtimeFeatureProfile),
    ("Engine", .ofGoString key.engine),
    ("MemoryLimitMiB", .ofNat key.memoryLimitMiB.toNat),
    ("GOOS", .ofGoString key.goos),
    ("GOARCH", .ofGoString key.goarch)]

def PlacementRequest.toJSON (r : PlacementRequest) : Json Json.Num :=
  .obj [
    ("CommandID", .ofGoString r.commandID),
    ("AssignmentID", .ofGoString r.assignmentID),
    ("VersionID", .ofGoString r.versionID),
    ("ArtifactDigest", .ofGoString r.artifactDigest),
    ("ArtifactSize", .ofInt r.artifactSize),
    ("ABI", .ofGoString r.abi),
    ("HostAPI", .ofGoString r.hostAPI),
    ("FeatureProfile", .ofGoString r.featureProfile),
    ("RuntimeName", .ofGoString r.runtimeName),
    ("RuntimeVersion", .ofGoString r.runtimeVersion),
    ("RuntimeEngine", .ofGoString r.runtimeEngine),
    ("GOOS", .ofGoString r.goos),
    ("GOARCH", .ofGoString r.goarch),
    ("MemoryMiB", .ofNat r.memoryMiB.toNat),
    ("RequiredSlots", .ofNat r.requiredSlots.toNat),
    ("AdmissionEpoch", .ofNat r.admissionEpoch.toNat),
    ("DeploymentGeneration", .ofNat r.deploymentGeneration.toNat),
    ("PolicyDigest", .ofGoString r.policyDigest),
    ("CompiledCacheKey", keyJSON r.compiledCacheKey),
    ("RequiredLabels", .ofOption (Json.ofMap .ofGoString) r.requiredLabels),
    ("ExistingWorkerIDs", .ofOption (Json.ofMap fun _ => .obj []) r.existingWorkerIDs)]

def fingerprintDomain : GoString := "scheduler-decision"
def fingerprintVersion : GoString := "v1"

/-- The command id is blanked: it names the record and is no part of what was asked. -/
def requestFingerprint (r : PlacementRequest) : Except GoError SHA256 :=
  canonicalJSON fingerprintDomain fingerprintVersion { r with commandID := [] }.toJSON

/-! ## Decisions -/

inductive DecisionStatus where
  | applied
  | duplicate
  | alreadySatisfied
  | other (text : GoString)
  deriving DecidableEq

/-- Why a Worker is left out. -/
inductive FilterReason where
  | invalidObservation
  | intent
  | session
  | runtime
  | labels
  | memory
  | slots
  deriving DecidableEq

/-- What the filters and the ranking say about one Worker. -/
structure Candidate where
  workerID : GoString
  session : WorkerSession
  eligible : Bool
  reasons : List FilterReason
  cacheScore : UInt8
  loadNumerator : UInt64
  loadDenominator : UInt64
  deriving DecidableEq

/-- The evidence that the current Leader has applied its term barrier. -/
structure LeaderBarrier where
  term : UInt64
  appliedIndex : UInt64
  ready : Bool
  deriving DecidableEq

structure Decision where
  status : DecisionStatus
  assignment : Assignment
  barrier : LeaderBarrier
  candidates : List Candidate
  deriving DecidableEq

def noBarrier : LeaderBarrier := ⟨0, 0, false⟩

def noAssignment : Assignment where
  commandID := []
  assignmentID := []
  worker := ⟨[], [], 0⟩
  versionID := []
  artifactDigest := []
  artifactSize := 0
  abi := []
  hostAPI := []
  featureProfile := []
  memoryMiB := 0
  requiredSlots := 0
  admissionEpoch := 0
  deploymentGeneration := 0
  policyDigest := []

/-- The zero value that accompanies most errors. -/
def noDecision : Decision := ⟨.other "", noAssignment, noBarrier, []⟩

structure DecisionRecord where
  fingerprint : SHA256
  decision : Decision
  deriving DecidableEq

/-! ## Ranking -/

/-- `bits.Mul64`: the high and the low word of the product. -/
def mul64 (x y : UInt64) : UInt64 × UInt64 :=
  (.ofNat (x.toNat * y.toNat / 2 ^ 64), .ofNat (x.toNat * y.toNat % 2 ^ 64))

def compareRatio (leftNumerator leftDenominator rightNumerator rightDenominator : UInt64) :
    Ordering :=
  let (leftHigh, leftLow) := mul64 leftNumerator rightDenominator
  let (rightHigh, rightLow) := mul64 rightNumerator leftDenominator
  if leftHigh < rightHigh ∨ (leftHigh = rightHigh ∧ leftLow < rightLow) then .lt
  else if rightHigh < leftHigh ∨ (leftHigh = rightHigh ∧ rightLow < leftLow) then .gt
  else .eq

structure EligibleCandidate where
  worker : WorkerSnapshot
  cacheScore : UInt8
  spreadScore : UInt8
  loadNumerator : UInt64
  loadDenominator : UInt64
  memoryNumerator : UInt64
  memoryDenominator : UInt64

def compareSessions : WorkerSession → WorkerSession → Ordering :=
  compareLex (compareOn WorkerSession.workerID) <|
  compareLex (compareOn WorkerSession.bootID) (compareOn WorkerSession.sessionEpoch)

/-- By Worker id, then boot id, then session epoch. -/
def compareCandidates : Candidate → Candidate → Ordering :=
  compareLex (compareOn Candidate.workerID) <|
  compareLex (compareOn fun c => c.session.bootID) (compareOn fun c => c.session.sessionEpoch)

/-- A higher score comes first. -/
def compareScore (left right : UInt8) : Ordering :=
  if left ≠ right then if right < left then .lt else .gt else .eq

def compareEligible (left right : EligibleCandidate) : Ordering :=
  (compareScore left.cacheScore right.cacheScore).then <|
  (compareScore left.spreadScore right.spreadScore).then <|
  (compareRatio left.loadNumerator left.loadDenominator right.loadNumerator
    right.loadDenominator).then <|
  (compareRatio left.memoryNumerator left.memoryDenominator right.memoryNumerator
    right.memoryDenominator).then <|
  compareSessions left.worker.session right.worker.session

/-! ## Candidates -/

def RuntimeProfile.compatible (p : RuntimeProfile) (r : PlacementRequest) : Bool :=
  p.name == r.runtimeName && p.version == r.runtimeVersion && p.engine == r.runtimeEngine &&
    p.goos == r.goos && p.goarch == r.goarch && p.abi == r.abi && p.hostAPI == r.hostAPI &&
    p.featureProfile == r.featureProfile && p.memoryMiB == r.memoryMiB

/-- A missing key reads as the empty string. -/
def labelsMatch (labels required : GoMap GoString GoString) : Bool :=
  required.toList.all fun entry => (labels.get? entry.1).getD [] == entry.2

def memoryOK (capacity : Capacity) (r : PlacementRequest) : Bool :=
  capacity.allocatedMemoryMiB ≤ capacity.memoryMiB &&
    r.memoryMiB.toUInt64 ≤ capacity.memoryMiB - capacity.allocatedMemoryMiB

def slotsOK (capacity : Capacity) (r : PlacementRequest) : Bool :=
  capacity.allocatedSlots ≤ capacity.slots &&
    r.requiredSlots ≤ capacity.slots - capacity.allocatedSlots

/-- `if failed { reasons = append(reasons, reason) }`. -/
def reasonIf (failed : Bool) (reason : FilterReason) : List FilterReason :=
  if failed then [reason] else []

def filterReasons (r : PlacementRequest) (worker : WorkerSnapshot) : List FilterReason :=
  reasonIf (worker.intent != .schedulable) .intent ++
  reasonIf (worker.state != .ready) .session ++
  reasonIf (!worker.runtime.compatible r) .runtime ++
  reasonIf (!labelsMatch worker.labels (orEmpty r.requiredLabels)) .labels ++
  reasonIf (!memoryOK worker.capacity r) .memory ++
  reasonIf (!slotsOK worker.capacity r) .slots

def cacheScore (r : PlacementRequest) (worker : WorkerSnapshot) : UInt8 :=
  if r.compiledCacheKey.artifactDigest != [] &&
      (worker.cache.compiled.get? r.compiledCacheKey).isSome then 2
  else if (worker.cache.artifacts.get? r.artifactDigest).isSome then 1
  else 0

def spreadScore (r : PlacementRequest) (worker : WorkerSnapshot) : UInt8 :=
  if ((orEmpty r.existingWorkerIDs).get? worker.session.workerID).isSome then 0 else 1

/-- The explanation of a Worker that is left out. -/
def excluded (worker : WorkerSnapshot) (reasons : List FilterReason) : Candidate :=
  ⟨worker.session.workerID, worker.session, false, reasons, 0, 0, 0⟩

def ranked (r : PlacementRequest) (worker : WorkerSnapshot) : EligibleCandidate where
  worker := worker
  cacheScore := cacheScore r worker
  spreadScore := spreadScore r worker
  loadNumerator := worker.capacity.allocatedSlots
  loadDenominator := worker.capacity.slots
  memoryNumerator := worker.capacity.allocatedMemoryMiB
  memoryDenominator := worker.capacity.memoryMiB

/-- One pass of the loop over the Workers; `seen` says that the Worker's id came before. -/
def evaluateOne (r : PlacementRequest) (seen : Bool) (worker : WorkerSnapshot) :
    Candidate × Option EligibleCandidate :=
  if seen || !worker.validate.isOk then (excluded worker [.invalidObservation], none)
  else if filterReasons r worker ≠ [] then (excluded worker (filterReasons r worker), none)
  else
    ({ excluded worker [] with
      eligible := true
      cacheScore := cacheScore r worker
      loadNumerator := worker.capacity.allocatedSlots
      loadDenominator := worker.capacity.slots }, some (ranked r worker))

def evaluateEach (r : PlacementRequest) :
    List GoString → List WorkerSnapshot → List (Candidate × Option EligibleCandidate)
  | _, [] => []
  | seen, worker :: rest =>
    evaluateOne r (seen.contains worker.session.workerID) worker ::
      evaluateEach r (worker.session.workerID :: seen) rest

def evaluateCandidates (r : PlacementRequest) (workers : List WorkerSnapshot) :
    List Candidate × List EligibleCandidate :=
  let results := evaluateEach r [] workers
  (sortFunc compareCandidates (results.map Prod.fst), results.filterMap Prod.snd)

def validateWorkerSet (workers : List WorkerSnapshot) : Validation := do
  checks [mustNot (maxWorkers < workers.length) "workers"
    "contains more than the v1 worker observation limit"]
  checkEach (fun _ => .ok ()) (fun worker : WorkerSnapshot => worker.session.workerID)
    (invalid "workers" "contains a duplicate worker_id") [] workers

/-! ## The planner -/

structure Config where
  maxDecisions : Int

structure Planner where
  maxDecisions : Int
  barrier : LeaderBarrier
  decisions : GoMap GoString DecisionRecord
  assignments : GoMap GoString GoString

def new (config : Config) : Except GoError Planner := do
  let maxDecisions :=
    if config.maxDecisions = 0 then defaultMaxDecisions else config.maxDecisions
  checks [⟨maxDecisions < 1 || hardMaxDecisions < maxDecisions,
    .text "scheduler decision limit is outside v1 bounds"⟩]
  .ok ⟨maxDecisions, noBarrier, ∅, ∅⟩

/-- An error, and the decision that `Plan` returns next to it. -/
structure PlanFailure where
  decision : Decision
  err : GoError

def failing (err : GoError) : PlanFailure := ⟨noDecision, err⟩

namespace Planner

def installBarrier (barrier : LeaderBarrier) : Op GoError Planner Unit := do
  Op.ofExcept (checks [
    mustNot (barrier.term == 0 || barrier.appliedIndex == 0) "leader_barrier"
      "term and applied index must be greater than zero",
    ⟨!barrier.ready, classified .noQuorum "leader barrier is not committed"⟩])
  let p ← get
  Op.failIf (p.barrier.term != 0 &&
      (barrier.term < p.barrier.term || barrier.appliedIndex < p.barrier.appliedIndex))
    (classified .staleGeneration "leader barrier moved backwards")
  set { p with barrier := barrier }

def invalidateBarrier (p : Planner) : Planner :=
  { p with barrier := { p.barrier with ready := false } }

/-- What a retained decision answers to a request with this fingerprint. -/
def retained (record : DecisionRecord) (fingerprint : SHA256) (status : DecisionStatus)
    (conflict : GoString) : Op PlanFailure Planner Decision := do
  Op.failIf (record.fingerprint != fingerprint) (failing (classified .conflict conflict))
  return { record.decision with status := status }

def assignmentFor (r : PlacementRequest) (chosen : EligibleCandidate) : Assignment where
  commandID := r.commandID
  assignmentID := r.assignmentID
  worker := chosen.worker.session
  versionID := r.versionID
  artifactDigest := r.artifactDigest
  artifactSize := r.artifactSize
  abi := r.abi
  hostAPI := r.hostAPI
  featureProfile := r.featureProfile
  memoryMiB := r.memoryMiB
  requiredSlots := r.requiredSlots
  admissionEpoch := r.admissionEpoch
  deploymentGeneration := r.deploymentGeneration
  policyDigest := r.policyDigest

/-- The part of `Plan` that makes a new decision. -/
def place (r : PlacementRequest) (fingerprint : SHA256) (workers : List WorkerSnapshot) :
    Op PlanFailure Planner Decision := do
  let p ← get
  Op.failIf (!p.barrier.ready)
    (failing (classified .controlPlaneStale "current Leader barrier is not installed"))
  Op.failIf (p.maxDecisions ≤ p.decisions.len)
    (failing (classified .overloaded "scheduler decision capacity is full"))
  Op.ofExcept ((validateWorkerSet workers).mapError failing)
  let (candidates, eligible) := evaluateCandidates r workers
  let chosen ← Op.orFail (sortFunc compareEligible eligible).head?
    ⟨{ noDecision with barrier := p.barrier, candidates := candidates },
      classified .noReadyReplica "no Worker satisfies the placement constraints"⟩
  let decision := ⟨.applied, assignmentFor r chosen, p.barrier, candidates⟩
  set { p with
    decisions := p.decisions.set r.commandID ⟨fingerprint, decision⟩
    assignments := p.assignments.set r.assignmentID r.commandID }
  return decision

def plan (r : PlacementRequest) (workers : List WorkerSnapshot) :
    Op PlanFailure Planner Decision := do
  Op.ofExcept (r.validate.mapError failing)
  let fingerprint ← Op.ofExcept ((requestFingerprint r).mapError failing)
  let p ← get
  match p.decisions.get? r.commandID with
  | some existing =>
    retained existing fingerprint .duplicate
      "command id was reused with different placement input"
  | none =>
    match p.assignments.get? r.assignmentID with
    | some commandID =>
      retained ((p.decisions.get? commandID).getD ⟨[], noDecision⟩) fingerprint .alreadySatisfied
        "assignment id was reused with different placement input"
    | none => place r fingerprint workers

def acknowledge (commandID : GoString) : Op GoError Planner Unit := do
  Op.failIf (!identifierPattern commandID) (invalid "command_id" "must be a valid identifier")
  let p ← get
  match p.decisions.get? commandID with
  | none => pure ()
  | some record =>
    let assignmentID := record.decision.assignment.assignmentID
    set { p with
      decisions := p.decisions.delete commandID
      assignments :=
        if p.assignments.get? assignmentID = some commandID then p.assignments.delete assignmentID
        else p.assignments }

end Planner

/-! ## Runs -/

inductive PlannerCall where
  | installBarrier (barrier : LeaderBarrier)
  | invalidateBarrier
  | plan (request : PlacementRequest) (workers : List WorkerSnapshot)
  | acknowledge (commandID : GoString)

inductive PlannerAnswer where
  | done (result : Except GoError Unit)
  | planned (result : Except PlanFailure Decision)

def Planner.step (p : Planner) : PlannerCall → PlannerAnswer × Planner
  | .installBarrier barrier =>
    (.done (Op.exec (installBarrier barrier) p).1, (Op.exec (installBarrier barrier) p).2)
  | .invalidateBarrier => (.done (.ok ()), p.invalidateBarrier)
  | .plan request workers =>
    (.planned (Op.exec (plan request workers) p).1, (Op.exec (plan request workers) p).2)
  | .acknowledge commandID =>
    (.done (Op.exec (acknowledge commandID) p).1, (Op.exec (acknowledge commandID) p).2)

def plannerMachine : Machine Planner PlannerCall PlannerAnswer := ⟨Planner.step⟩

abbrev PlannerEvent := Lib.Event Planner PlannerCall PlannerAnswer

end MiniCloud.Scheduler
