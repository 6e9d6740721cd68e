import MiniCloud.ControlPlane.Ledger
import MiniCloud.ControlPlane.Stores

/-!
# The local controller

`internal/localcontroller`: the single-process owner of the stores and the operation ledger.
This file has its state, the values it draws from outside (identifiers, salts, tokens, command
metadata, verified artifacts), and for each management write the *prepare* half, which draws them,
and the *apply* half, which is one store command.

The sources are parameters: any functions on any state `σ` of their own, free to fail. Nil
receivers and nil dependencies are not modelled; `New` refuses or replaces them.
-/

namespace MiniCloud.LocalController

open Lib Problem Digest Model ControlPlane

/-! ## Inputs and views -/

/-- A nil label map and an empty one are different JSON values. -/
structure CreateFunctionInput where
  name : GoString
  labels : Option (GoMap GoString GoString)
  authPolicy : AuthPolicy

structure SetFunctionLifecycleInput where
  functionID : GoString
  expectedResourceRevision : UInt64
  lifecycle : FunctionLifecycle

structure RotateInvocationTokenInput where
  functionID : GoString
  expectedResourceRevision : UInt64

structure CreateVersionInput where
  functionID : GoString
  artifactDigest : SHA256
  manifestDigest : SHA256
  toolchain : ToolchainMetadata
  resourceRequest : ResourceRequest
  requestedCapabilities : Option (List CapabilityRequest)

structure PublishRouteInput where
  functionID : GoString
  versionID : GoString
  expectedActiveRouteRevision : UInt64

/-- A Function with its default Trigger. The token is empty except on creation and rotation. -/
structure FunctionView where
  function : Function
  trigger : HTTPTrigger
  invocationToken : GoString

/-! ## Sources -/

/-- The non-deterministic values one command needs; `time` is the source's `At`. -/
structure CommandMeta where
  appliedIndex : UInt64
  time : Time
  deriving DecidableEq

/-- What the artifact store says about a blob. -/
structure ArtifactInfo where
  digest : SHA256
  size : Int

/-- An open file, known by what closing it will return. -/
structure VerifiedFile where
  close : Except GoError Unit

/-- The outside world, with a state of its own. -/
structure Sources (σ : Type) where
  newID : GoString → Op GoError σ GoString
  newSalt : Op GoError σ GoString
  newToken : Op GoError σ GoString
  next : Op GoError σ CommandMeta
  openVerified : SHA256 → Op GoError σ (Option VerifiedFile × ArtifactInfo)

structure Controller (σ : Type) where
  stores : Stores
  ledger : Ledger
  lastCommand : CommandMeta
  sources : σ

/-- `New`. -/
def newController {σ : Type} (sources : σ) : Controller σ where
  stores := newStores
  ledger := newLedger
  lastCommand := ⟨0, Time.zero⟩
  sources := sources

def routeSaltBytes : Nat := 16

/-- `if err != nil { return fmt.Errorf("context: %w", err) }` around a method. -/
def wrapped {τ α : Type} (context : GoString) (m : Op GoError τ α) : Op GoError τ α :=
  Op.mapError (.wrap context) m

section Sources

variable {σ : Type} (src : Sources σ)

def onSources {α : Type} (m : Op GoError σ α) : Op GoError (Controller σ) α :=
  Op.onPart m Controller.sources fun c s => { c with sources := s }

/-- One command's metadata, advancing in index and never going back in time. -/
def nextCommand : Op GoError (Controller σ) CommandMeta := do
  let command ← wrapped "getting command metadata" (onSources src.next)
  Op.failIf (command.appliedIndex == 0)
    (.text "local controller command source returned zero applied index")
  Op.failIf (command.time.isZero || command.time.zone != .utc)
    (.text "local controller command source returned a non-UTC timestamp")
  let c ← get
  Op.failIf (c.lastCommand.appliedIndex != 0 && command.appliedIndex ≤ c.lastCommand.appliedIndex)
    (.text "local controller command source did not advance applied index")
  Op.failIf (!c.lastCommand.time.isZero && command.time.before c.lastCommand.time)
    (.text "local controller command source regressed timestamp")
  set { c with lastCommand := command }
  pure command

def newID (kind : GoString) : Op GoError (Controller σ) GoString := do
  let id ← wrapped ("generating " ++ kind ++ " id") (onSources (src.newID kind))
  Op.failIf (id == []) (.text ("generating " ++ kind ++ " id: source returned an empty id"))
  Op.failIf (!identifierPattern id)
    (.text ("generating " ++ kind ++ " id: source returned an invalid id"))
  pure id

def newRouteSalt : Op GoError (Controller σ) GoString := do
  let salt ← wrapped "generating route salt" (onSources src.newSalt)
  Op.failIf (salt.length != routeSaltBytes)
    (.text "generating route salt: source returned an invalid length")
  pure salt

def newToken : Op GoError (Controller σ) GoString := do
  let token ← wrapped "generating invocation token" (onSources src.newToken)
  Op.failIf (token == [])
    (.text "generating invocation token: token source returned an empty token")
  pure token

/-- The token of a new Function and its verifier, where the policy wants one. -/
def newInvocationToken (policy : AuthPolicy) :
    Op GoError (Controller σ) (GoString × Option SHA256) :=
  match policy with
  | .public => pure ([], none)
  | .token => do
    let token ← newToken src
    pure (token, some (sum token))
  | .other _ => throw (invalid "auth_policy" "must be token or public")

def verifyArtifact (expected : SHA256) : Op GoError (Controller σ) ArtifactInfo := do
  let (file, info) ← wrapped "verifying artifact" (onSources (src.openVerified expected))
  let file ← Op.orFail file (.text "verifying artifact: store returned a nil file")
  Op.ofExcept (wrapping "verifying artifact: closing verified file" file.close)
  Op.failIf (info.digest != expected || decide (info.size < 1))
    (.text "verifying artifact: store returned inconsistent metadata")
  pure info

/-- `c.catalog.GetFunction`, wrapped by its caller. -/
def loadFunction (context functionID : GoString) :
    Op GoError (Controller σ) (Function × HTTPTrigger) := do
  let c ← get
  Op.ofExcept (wrapping context (c.stores.catalog.getFunction functionID))

/-- The metadata of a resource created by `command`. -/
def createdMetadata (id ns : GoString) (command : CommandMeta) : Metadata where
  id := id
  ns := ns
  createdAt := command.time
  updatedAt := command.time
  createdRaftIndex := command.appliedIndex
  resourceRevision := 1

/-! ## Creating a Function -/

structure PreparedFunction where
  command : CommandMeta
  view : FunctionView

def prepareCreateFunction (input : CreateFunctionInput) :
    Op GoError (Controller σ) PreparedFunction := do
  let (invocationToken, verifier) ← newInvocationToken src input.authPolicy
  let functionID ← newID src "function"
  let triggerID ← newID src "trigger"
  let command ← nextCommand src
  pure {
    command := command
    view := {
      function := { createdMetadata functionID Model.defaultNamespace command with
        name := input.name, description := "", activeRouteRevision := 0
        labels := input.labels.getD ∅, lifecycle := .active }
      trigger := { createdMetadata triggerID Model.defaultNamespace command with
        functionID := functionID, enabled := true, authPolicy := input.authPolicy
        tokenVerifierDigest := verifier }
      invocationToken := invocationToken } }

/-! ## Rotating a token -/

structure PreparedRotation where
  command : CommandMeta
  input : RotateInvocationTokenInput
  triggerID : GoString
  token : GoString
  verifier : SHA256

def prepareRotateInvocationToken (input : RotateInvocationTokenInput) :
    Op GoError (Controller σ) PreparedRotation := do
  let (_, trigger) ← loadFunction "loading invocation token trigger" input.functionID
  let token ← newToken src
  let command ← nextCommand src
  pure ⟨command, input, trigger.id, token, sum token⟩

/-! ## Creating a Version -/

structure PreparedVersion where
  createCommand : CommandMeta
  startCommand : CommandMeta
  validationID : GoString
  version : Version

/-- `prepareCreateVersion` up to the first of its two commands. -/
def drawVersion (input : CreateVersionInput) :
    Op GoError (Controller σ) (CommandMeta × GoString × Version) := do
  Op.failIf (decide (input.resourceRequest.timeout.tmod Duration.millisecond ≠ 0))
    (invalid "resource_request.timeout" "must use whole milliseconds")
  let artifactInfo ← verifyArtifact src input.artifactDigest
  let versionID ← newID src "version"
  let validationID ← newID src "validation"
  let createCommand ← nextCommand src
  pure (createCommand, validationID, {
    createdMetadata versionID Model.defaultNamespace createCommand with
    functionID := input.functionID
    versionID := versionID
    artifactDigest := input.artifactDigest
    manifestDigest := input.manifestDigest
    artifactSize := artifactInfo.size
    abi := abiWASICommandV1
    hostAPIProfile := hostAPIProfileNone
    runtimeFeatureProfile := WasmProfile.featureProfile
    toolchain := input.toolchain
    admissionEpoch := 1
    resourceRequest := input.resourceRequest
    requestedCapabilities := input.requestedCapabilities.getD []
    state := .uploaded
    validationError := none })

/-- The rest of it: the second command is reserved for the start of validation. -/
def reserveStart (createCommand : CommandMeta) (validationID : GoString) (version : Version) :
    Op GoError (Controller σ) PreparedVersion := do
  let startCommand ← nextCommand src
  pure ⟨createCommand, startCommand, validationID, version⟩

/-- The two halves with nothing in between. -/
def prepareCreateVersion (input : CreateVersionInput) :
    Op GoError (Controller σ) PreparedVersion := do
  let (createCommand, validationID, version) ← drawVersion src input
  reserveStart src createCommand validationID version

/-! ## Publishing a Route -/

structure PreparedRoute where
  command : CommandMeta
  input : PublishRouteInput
  route : Route

/-- The target a Route may point at: the Deployment of a ready Version of this Function. -/
def routeTarget (input : PublishRouteInput) (version : Version) (deployment : Option Deployment) :
    Except GoError Deployment :=
  match deployment with
  | some d =>
    if version.functionID ≠ input.functionID ∨ version.state ≠ .ready ∨ d.desiredPhase ≠ .active
    then .error (classified .conflict "route target is not a ready active version for this function")
    else .ok d
  | none =>
    .error (classified .conflict "route target is not a ready active version for this function")

def preparePublishRoute (input : PublishRouteInput) :
    Op GoError (Controller σ) PreparedRoute := do
  Op.failIf (input.expectedActiveRouteRevision == maxUint64)
    (classified .conflict "function route revision space is exhausted")
  let c ← get
  let (version, deployment) ← Op.ofExcept
    (wrapping "loading route target version" (c.stores.releases.get input.versionID))
  let deployment ← Op.ofExcept (routeTarget input version deployment)
  let routeID ← newID src "route"
  let saltID ← newID src "salt"
  let salt ← newRouteSalt src
  let command ← nextCommand src
  pure {
    command := command
    input := input
    route := { createdMetadata routeID version.ns command with
      functionID := input.functionID
      routeRevision := input.expectedActiveRouteRevision + 1
      targets := [{
        versionID := version.versionID
        admissionEpoch := version.admissionEpoch
        deploymentGeneration := deployment.generation
        effectivePolicyDigest := deployment.effectivePolicyDigest
        weightBasisPoints := totalRouteWeightBasisPoints }]
      affinity := .requestID
      affinityHeader := ""
      hashVersion := hashVersionSHA256BPSV1
      saltID := saltID
      salt := salt
      enabled := true } }

end Sources

end MiniCloud.LocalController
