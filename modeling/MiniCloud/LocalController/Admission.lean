import MiniCloud.LocalController.Operation

/-!
# Driving a Version to Ready or Failed

`localcontroller/admission.go`. A version creation draws everything it will need, commits an
Uploaded Version, and then, outside every store's lock, persists a validation fence, runs the
validator and hands its report back to the store. `ResumePendingValidation` picks up the fences
that were left behind.

Any number of these run at once, next to every other write. Each is a `Drive`, known by how far it
has come; `validating` holds the ids that some drive has claimed. The steps of a drive are the
store calls, the claims and the draws of command metadata, with everything else (drawing
identifiers, opening the artifact, running the validator) folded into the next of them, since it
touches nothing that is shared. What other callers do is a move of its own. The operation ledger is
left out: a creation through `CreateVersionOperation` commits under the ledger's lock and goes on
here in the same way.
-/

namespace MiniCloud.LocalController

open Lib Problem Digest Model ControlPlane

/-- The latest Version state; the Deployment is there for a Ready one. -/
structure AdmissionResult where
  version : Version
  deployment : Option Deployment

/-- A result may come with an error: then it is what the store holds. -/
structure AdmissionAnswer where
  result : Option AdmissionResult
  err : Option GoError

/-- The persisted fence of one validator process. -/
structure VersionAdmissionAttempt where
  versionID : GoString
  validationID : GoString
  deriving DecidableEq

/-! ## The first Deployment -/

/-- `256 << 10`, the controller's own copy of the store's constant. -/
def defaultMaxLogBytes : Int := 262144

def initialLimits (version : Version) : ResourceLimits where
  timeout := version.resourceRequest.timeout
  memoryMiB := version.resourceRequest.memoryMiB
  maxInputBytes := version.resourceRequest.maxInputBytes
  maxOutputBytes := version.resourceRequest.maxOutputBytes
  maxLogBytes := defaultMaxLogBytes

def initialPolicy (version : Version) : EffectivePolicy where
  versionID := version.versionID
  admissionEpoch := version.admissionEpoch
  deploymentGeneration := 1
  artifactDigest := version.artifactDigest
  artifactSize := version.artifactSize
  abi := version.abi
  hostAPIProfile := version.hostAPIProfile
  runtimeFeatureProfile := version.runtimeFeatureProfile
  resourceLimits := initialLimits version
  maxConcurrency := version.resourceRequest.maxConcurrency
  grantedCapabilities := version.requestedCapabilities

def initialDeployment (version : Version) (deploymentID : GoString) (command : CommandMeta) :
    Except GoError Deployment := do
  let policyDigest ← wrapping "calculating initial effective policy" (initialPolicy version).digest
  .ok { createdMetadata deploymentID version.ns command with
    versionID := version.versionID
    generation := 1
    scalingRevision := 1
    resourceLimits := initialLimits version
    grantedCapabilities := version.requestedCapabilities
    effectivePolicyDigest := policyDigest
    minReplicas := 1
    maxReplicas := 1
    desiredReplicas := 1
    readyReplicas := 0
    targetConcurrency := version.resourceRequest.maxConcurrency
    scalingMode := .manual
    idleTimeout := 0
    desiredPhase := .active }

/-! ## Store commands -/

def startValidationCommand (created : Version) (prepared : PreparedVersion) :
    StartValidationCommand where
  versionID := created.versionID
  expectedResourceRevision := created.resourceRevision
  validationID := prepared.validationID
  updatedAt := prepared.startCommand.time
  appliedIndex := prepared.startCommand.appliedIndex

def applyStartValidation (created : Version) (prepared : PreparedVersion) :
    Op GoError Stores Version :=
  wrapped "starting version validation"
    (Stores.onReleases (ReleaseStore.startValidation (startValidationCommand created prepared)))

def completeValidationCommand (version : Version) (report : Validator.Report)
    (deployment : Option Deployment) (command : CommandMeta) : CompleteValidationCommand where
  versionID := version.versionID
  expectedResourceRevision := version.resourceRevision
  report := report
  deployment := deployment
  updatedAt := command.time
  appliedIndex := command.appliedIndex

def applyCompletion (version : Version) (report : Validator.Report)
    (deployment : Option Deployment) (command : CommandMeta) : Op GoError Stores AdmissionResult :=
  (fun r => ⟨r.1, r.2⟩) <$> wrapped "completing version validation" (Stores.onReleases
    (ReleaseStore.completeValidation (completeValidationCommand version report deployment command)))

def currentAdmission (s : Stores) (versionID : GoString) (cause : GoError) : AdmissionAnswer :=
  match s.releases.get versionID with
  | .error err => ⟨none, some (.join cause (.wrap "loading current version" err))⟩
  | .ok (version, deployment) => ⟨some ⟨version, deployment⟩, some cause⟩

def compareVersion : Version → Version → Ordering :=
  compareLex (compareOn Version.functionID) (compareOn Version.versionID)

/-- `Snapshot().PendingValidations`. -/
def pendingValidations (r : ReleaseStore) : List VersionAdmissionAttempt :=
  (sortFunc compareVersion (r.versions.toList.map Prod.snd)).filterMap fun version =>
    (r.validationIDByVersion.get? version.versionID).map fun id => ⟨version.versionID, id⟩

/-! ## Running the validator -/

/-- An error of the validator, with what `errors.Is` says about it. -/
structure ValidateError where
  cause : GoError
  timedOut : Bool
  outputLimit : Bool

def validationRequest (version : Version) (validationID : GoString) : Validator.Request where
  schemaVersion := Validator.schemaVersion
  validationID := validationID
  artifactDigest := version.artifactDigest
  artifactSize := version.artifactSize
  abi := version.abi
  hostAPIProfile := version.hostAPIProfile
  runtimeFeatureProfile := version.runtimeFeatureProfile
  runtimeEngine := WasmProfile.engineCompiler
  memoryLimitMiB := version.resourceRequest.memoryMiB
  requestedCapabilities := some version.requestedCapabilities

def isValidationLimit (err : ValidateError) : Bool := err.timedOut || err.outputLimit

def validationLimitReport (version : Version) (validationID : GoString) (err : ValidateError) :
    Validator.Report where
  schemaVersion := Validator.schemaVersion
  validationID := validationID
  valid := false
  code := Code.text .invalidModule
  reason := if err.timedOut then "validator_timeout" else "validator_output_limit"
  message :=
    if err.timedOut then "module validation exceeded the admission limit"
    else "validator output exceeded the admission limit"
  artifactDigest := version.artifactDigest
  artifactSize := version.artifactSize
  runtimeName := WasmProfile.runtimeName
  runtimeVersion := WasmProfile.runtimeVersion
  runtimeFeatureProfile := WasmProfile.featureProfile
  runtimeEngine := WasmProfile.engineCompiler
  imports := some []
  exports := some []
  compileNanoseconds := 0

section Sources

variable {σ : Type} (src : Sources σ)

/-- The validator subprocess: any function of the request and the outside world. -/
abbrev RunValidator (σ : Type) := Validator.Request → VerifiedFile → Op ValidateError σ Validator.Report

def openArtifactForValidation (version : Version) :
    Op GoError (Controller σ) (VerifiedFile × ArtifactInfo) := do
  let (file, info) ← wrapped "opening artifact for validation"
    (onSources (src.openVerified version.artifactDigest))
  let file ← Op.orFail file (.text "opening artifact for validation: store returned a nil file")
  let inconsistent : GoError :=
    .text "opening artifact for validation: store returned inconsistent metadata"
  Op.failIf (info.digest != version.artifactDigest || info.size != version.artifactSize)
    (match file.close with
      | .ok () => inconsistent
      | .error err => .join inconsistent err)
  pure (file, info)

/-- The validator's answer, with a limit that was hit turned into a negative report. -/
def runValidator (validate : RunValidator σ) (version : Version) (validationID : GoString)
    (file : VerifiedFile) : Op GoError (Controller σ) Validator.Report := do
  let c ← get
  let answer := Op.exec (validate (validationRequest version validationID) file) c.sources
  set { c with sources := answer.2 }
  match answer.1 with
  | .ok report => pure report
  | .error err =>
    if isValidationLimit err then pure (validationLimitReport version validationID err)
    else throw (.wrap "running validator" err.cause)

/-- The part of `admit` before `completeAdmission`: a report on the verified artifact. -/
def admissionReport (validate : RunValidator σ) (version : Version) (validationID : GoString) :
    Op GoError (Controller σ) Validator.Report := do
  let (file, info) ← openArtifactForValidation src version
  let report ← runValidator validate version validationID file
  Op.failIf (report.artifactDigest != info.digest || report.artifactSize != info.size)
    (.text "validator report did not match the verified artifact")
  pure report

/-- The part of `completeAdmission` before the store call: what the completion will carry. -/
def drawCompletion (version : Version) (report : Validator.Report) :
    Op GoError (Controller σ) (Option Deployment × CommandMeta) :=
  if report.valid then do
    let deploymentID ← newID src "deployment"
    let command ← nextCommand src
    let deployment ← Op.ofExcept (initialDeployment version deploymentID command)
    pure (some deployment, command)
  else do
    let command ← nextCommand src
    pure (none, command)

/-! ## Drives -/

/-- One version creation or resume call. `rest` and `budget` are what is left of a resume loop. -/
inductive Drive where
  | preparing (createCommand : CommandMeta) (validationID : GoString) (version : Version)
  /-- Everything is drawn, nothing is committed. -/
  | creating (prepared : PreparedVersion)
  /-- The Version is Uploaded, `driveAdmission` has not claimed it yet. -/
  | created (prepared : PreparedVersion)
  | claimed (prepared : PreparedVersion)
  | resuming (rest : List VersionAdmissionAttempt) (budget : ℕ)
  /-- A resume has claimed an attempt and not read its Version yet. -/
  | loading (attempt : VersionAdmissionAttempt) (rest : List VersionAdmissionAttempt) (budget : ℕ)
  | started (version : Version) (validationID : GoString) (rest : List VersionAdmissionAttempt)
      (budget : ℕ)
  /-- There is a report, and the completing command is drawn. -/
  | reported (version : Version) (report : Validator.Report) (deployment : Option Deployment)
      (command : CommandMeta) (rest : List VersionAdmissionAttempt) (budget : ℕ)

structure Admissions (σ : Type) where
  controller : Controller σ
  validating : GoMap GoString Unit
  /-- The calls in progress, by a number of ours. -/
  drives : ℕ → Option Drive

def newAdmissions {σ : Type} (sources : σ) : Admissions σ := ⟨newController sources, ∅, fun _ => none⟩

inductive AdmissionMove (σ : Type) where
  /-- A version creation begins. -/
  | prepare (t : ℕ) (input : CreateVersionInput)
  | reserve (t : ℕ)
  | create (t : ℕ)
  | claim (t : ℕ)
  | start (t : ℕ)
  | resume (t limit : ℕ)
  | next (t : ℕ)
  | load (t : ℕ)
  | validate (t : ℕ)
  | complete (t : ℕ)
  /-- A creation is refused before its commit, or a resume stops between two attempts. -/
  | abandon (t : ℕ)
  /-- Another caller draws command metadata. -/
  | draw
  /-- Another caller draws from the sources, or they change by themselves. -/
  | disturb (sources : σ)
  /-- Another caller's store command. -/
  | write (command : Command)

/-! ## Steps -/

namespace Admissions

/-- The drive `t` goes on as `d`, or ends. -/
def put (a : Admissions σ) (t : ℕ) (d : Option Drive) : Admissions σ :=
  { a with drives := Function.update a.drives t d }

def withController (a : Admissions σ) (c : Controller σ) : Admissions σ :=
  { a with controller := c }

def withStores (a : Admissions σ) (s : Stores) : Admissions σ :=
  a.withController { a.controller with stores := s }

/-- `claimValidation`; the caller has seen that the id is free. -/
def claimed (a : Admissions σ) (versionID : GoString) : Admissions σ :=
  { a with validating := a.validating.set versionID () }

/-- `releaseValidation`, and on to the rest of the loop. -/
def finish (a : Admissions σ) (t : ℕ) (versionID : GoString)
    (rest : List VersionAdmissionAttempt) (budget : ℕ) : Admissions σ :=
  { a.put t (some (.resuming rest budget)) with validating := a.validating.delete versionID }

def prepare (a : Admissions σ) (t : ℕ) (input : CreateVersionInput) :
    Option AdmissionAnswer × Admissions σ :=
  match a.drives t with
  | some _ => (none, a)
  | none =>
    match Op.exec (drawVersion src input) a.controller with
    | (.error err, c) => (some ⟨none, some err⟩, a.withController c)
    | (.ok (command, validationID, version), c) =>
      (none, (a.withController c).put t (some (.preparing command validationID version)))

def reserve (a : Admissions σ) (t : ℕ) : Option AdmissionAnswer × Admissions σ :=
  match a.drives t with
  | some (.preparing command validationID version) =>
    match Op.exec (reserveStart src command validationID version) a.controller with
    | (.error err, c) => (some ⟨none, some err⟩, (a.withController c).put t none)
    | (.ok prepared, c) => (none, (a.withController c).put t (some (.creating prepared)))
  | _ => (none, a)

def create (a : Admissions σ) (t : ℕ) : Option AdmissionAnswer × Admissions σ :=
  match a.drives t with
  | some (.creating prepared) =>
    match Op.exec (applyCreateVersion prepared) a.controller.stores with
    | (.error err, s) => (some ⟨none, some err⟩, (a.withStores s).put t none)
    | (.ok _, s) => (none, (a.withStores s).put t (some (.created prepared)))
  | _ => (none, a)

def claim (a : Admissions σ) (t : ℕ) : Option AdmissionAnswer × Admissions σ :=
  match a.drives t with
  | some (.created prepared) =>
    if (a.validating.get? prepared.version.versionID).isSome then
      (some ⟨some ⟨prepared.version, none⟩,
        some (.text "creating version: validation is already active")⟩, a.put t none)
    else (none, (a.claimed prepared.version.versionID).put t (some (.claimed prepared)))
  | _ => (none, a)

def start (a : Admissions σ) (t : ℕ) : Option AdmissionAnswer × Admissions σ :=
  match a.drives t with
  | some (.claimed prepared) =>
    match Op.exec (applyStartValidation prepared.version prepared) a.controller.stores with
    | (.error err, s) =>
      (some ⟨some ⟨prepared.version, none⟩, some err⟩,
        (a.withStores s).finish t prepared.version.versionID [] 0)
    | (.ok version, s) =>
      (none, (a.withStores s).put t (some (.started version prepared.validationID [] 0)))
  | _ => (none, a)

def resume (a : Admissions σ) (t limit : ℕ) : Option AdmissionAnswer × Admissions σ :=
  match a.drives t with
  | some _ => (none, a)
  | none =>
    if limit < 1 then (some ⟨none, some (invalid "limit" "must be greater than zero")⟩, a)
    else (none, a.put t (some (.resuming (pendingValidations a.controller.stores.releases) limit)))

def next (a : Admissions σ) (t : ℕ) : Option AdmissionAnswer × Admissions σ :=
  match a.drives t with
  | some (.resuming (attempt :: rest) (budget + 1)) =>
    if (a.validating.get? attempt.versionID).isSome then
      (none, a.put t (some (.resuming rest (budget + 1))))
    else (none, (a.claimed attempt.versionID).put t (some (.loading attempt rest budget)))
  | some (.resuming _ _) => (none, a.put t none)
  | _ => (none, a)

def load (a : Admissions σ) (t : ℕ) : Option AdmissionAnswer × Admissions σ :=
  match a.drives t with
  | some (.loading attempt rest budget) =>
    match a.controller.stores.releases.get attempt.versionID with
    | .error err =>
      (some ⟨none, some (.wrap "loading pending validation" err)⟩,
        a.finish t attempt.versionID rest budget)
    | .ok (version, _) =>
      if version.state = .validating then
        (none, a.put t (some (.started version attempt.validationID rest budget)))
      else (none, a.finish t attempt.versionID rest budget)
  | _ => (none, a)

/-- `admit` up to the store call. -/
def validate (run : RunValidator σ) (a : Admissions σ) (t : ℕ) :
    Option AdmissionAnswer × Admissions σ :=
  match a.drives t with
  | some (.started version validationID rest budget) =>
    let drawn : Op GoError (Controller σ) (Validator.Report × Option Deployment × CommandMeta) := do
      let report ← admissionReport src run version validationID
      let completion ← drawCompletion src version report
      pure (report, completion)
    match Op.exec drawn a.controller with
    | (.error err, c) =>
      (some (currentAdmission c.stores version.versionID err),
        (a.withController c).finish t version.versionID rest budget)
    | (.ok (report, deployment, command), c) =>
      (none,
        (a.withController c).put t (some (.reported version report deployment command rest budget)))
  | _ => (none, a)

def complete (a : Admissions σ) (t : ℕ) : Option AdmissionAnswer × Admissions σ :=
  match a.drives t with
  | some (.reported version report deployment command rest budget) =>
    match Op.exec (applyCompletion version report deployment command) a.controller.stores with
    | (.error err, s) =>
      (some (currentAdmission s version.versionID err),
        (a.withStores s).finish t version.versionID rest budget)
    | (.ok result, s) =>
      (some ⟨some result, none⟩, (a.withStores s).finish t version.versionID rest budget)
  | _ => (none, a)

def abandon (a : Admissions σ) (t : ℕ) : Option AdmissionAnswer × Admissions σ :=
  match a.drives t with
  | some (.creating _) | some (.resuming _ _) => (none, a.put t none)
  | _ => (none, a)

/-- Versions are written by drives only. -/
def write (a : Admissions σ) (command : Command) : Option AdmissionAnswer × Admissions σ :=
  if command.writesVersions then (none, a)
  else (none, a.withStores (Op.exec command.run a.controller.stores).2)

def step (run : RunValidator σ) (a : Admissions σ) :
    AdmissionMove σ → Option AdmissionAnswer × Admissions σ
  | .prepare t input => a.prepare src t input
  | .reserve t => a.reserve src t
  | .create t => a.create t
  | .claim t => a.claim t
  | .start t => a.start t
  | .resume t limit => a.resume t limit
  | .next t => a.next t
  | .load t => a.load t
  | .validate t => validate src run a t
  | .complete t => a.complete t
  | .abandon t => a.abandon t
  | .draw => (none, a.withController (Op.exec (nextCommand src) a.controller).2)
  | .disturb sources => (none, a.withController { a.controller with sources := sources })
  | .write command => a.write command

end Admissions

def admissionMachine (run : RunValidator σ) :
    Machine (Admissions σ) (AdmissionMove σ) (Option AdmissionAnswer) :=
  ⟨Admissions.step src run⟩

end Sources

end MiniCloud.LocalController
