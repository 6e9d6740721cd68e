import MiniCloud.Proof.Admission
import MiniCloud.Proof.Operations

/-!
# What fits into a validator request

A Version is accepted by one set of checks and sent to the validator by another. The two agree on
every field but one: the capabilities, whose number and version texts no check bounds, while the
frame has room for a header of 64 KiB.
-/

namespace MiniCloud.LocalController

open Lib Problem Digest Model ControlPlane Op
open Validator (maxHeaderBytes newRequestReader)

/-! ## Texts the encoder copies -/

theorem plain_identifier {s : GoString} (h : identifierPattern s = true) :
    s.all Json.isPlain = true := by
  have hbyte : ∀ b, isIdByte b = true → Json.isPlain b = true :=
    Text.forall_byte (by decide +kernel)
  simp only [identifierPattern, Text.matchClass, Bool.and_eq_true] at h
  exact List.all_eq_true.mpr fun b hb => hbyte b (List.all_eq_true.mp h.2 b hb)

theorem plain_digest {d : SHA256} (h : encodedPattern d = true) :
    d.all Json.isPlain = true ∧ d.length = 71 := by
  have hbyte : ∀ b, Text.isLowerHex b = true → Json.isPlain b = true :=
    Text.forall_byte (by decide +kernel)
  simp only [encodedPattern, Text.matchClass, Bool.and_eq_true, beq_iff_eq, decide_eq_true_eq] at h
  obtain ⟨htake, ⟨hle, hge⟩, hall⟩ := h
  constructor
  · rw [← List.take_append_drop 7 d, List.all_append, htake]
    exact Bool.and_eq_true_iff.mpr ⟨by decide,
      List.all_eq_true.mpr fun b hb => hbyte b (List.all_eq_true.mp hall b hb)⟩
  · rw [List.length_drop] at hle hge
    omega

/-! ## The header -/

/-- The requested capabilities, as the header carries them. -/
def capabilitiesText (v : Version) : GoString :=
  (Json.arr (v.requestedCapabilities.map Validator.capabilityJSON)).marshal

/-- The bytes of a header beside the capabilities. -/
def headerOverhead (v : Version) (validationID : GoString) : ℕ :=
  331 + validationID.length + (Text.decimal v.artifactSize.natAbs).length +
    (Text.decimal v.resourceRequest.memoryMiB.toNat).length

variable {v : Version} {validationID : GoString}

theorem header_length (hv : v.validate = .ok ())
    (hprofile : v.runtimeFeatureProfile = WasmProfile.featureProfile)
    (hid : identifierPattern validationID = true) :
    (validationRequest v validationID).toJSON.marshal.length =
      (capabilitiesText v).length + headerOverhead v validationID := by
  have himm := (Version.validate_ok.mp hv).2.1
  simp only [Version.immutableChecks, List.forall_mem_cons, mustNot_fails,
    Bool.not_eq_false', bne_eq_false_iff_eq] at himm
  obtain ⟨-, -, hdigest, -, hsize, habi, hhost, -⟩ := himm
  obtain ⟨hplain, hlen⟩ := plain_digest hdigest
  simp only [Bool.or_eq_false_iff, decide_eq_false_iff_not, not_le] at hsize
  have hneg : decide (v.artifactSize < 0) = false := by
    rw [decide_eq_false_iff_not]
    omega
  simp only [validationRequest, Validator.Request.toJSON, Json.marshal, Json.marshalMembers,
    Json.ofOption, Json.ofInt, Json.ofNat, Json.Num.text, hneg, habi, hhost, hprofile,
    List.length_append, List.length_cons, Json.length_marshalString_plain (plain_identifier hid),
    Json.length_marshalString_plain hplain, hlen]
  -- what is left are the lengths of the fixed texts
  have hnames : ["schema_version", "validation_id", "artifact_digest", "artifact_size", "abi",
      "host_api_profile", "runtime_feature_profile", "runtime_engine", "memory_limit_mib",
      "requested_capabilities"].map (fun s : String => (Json.marshalString s).length) =
      [16, 15, 17, 15, 5, 18, 25, 16, 18, 24] := by decide
  have htexts : [Validator.schemaVersion, abiWASICommandV1, hostAPIProfileNone,
      WasmProfile.featureProfile, WasmProfile.engineCompiler].map
        (fun s => (Json.marshalString s).length) = [14, 17, 6, 19, 10] := by decide
  simp only [List.map_cons, List.map_nil, List.cons.injEq, and_true] at hnames htexts
  simp only [hnames, htexts, Bool.false_eq_true, if_false, Json.fracText, Json.expText,
    List.length_nil, if_true, capabilitiesText, headerOverhead]
  omega

/-- Beside the capabilities, a header is short. -/
theorem headerOverhead_le (hv : v.validate = .ok ()) (hid : identifierPattern validationID = true) :
    headerOverhead v validationID ≤ 471 := by
  obtain ⟨-, himm, hreq, -, -⟩ := Version.validate_ok.mp hv
  simp only [Version.immutableChecks, List.forall_mem_cons, mustNot_fails, Bool.or_eq_false_iff,
    decide_eq_false_iff_not, not_le, not_lt] at himm
  obtain ⟨-, -, -, -, hsize, -⟩ := himm
  simp only [maxArtifactBytes] at hsize
  simp only [ResourceRequest.validate, checks_ok, List.forall_mem_cons, mustNot_fails,
    Bool.not_eq_false', List.contains_iff_mem] at hreq
  simp only [identifierPattern, Text.matchClass, Bool.and_eq_true, decide_eq_true_eq] at hid
  have hdigits : (Text.decimal v.artifactSize.natAbs).length ≤ 8 + 1 :=
    Text.length_decimal (by omega)
  have hmemory : (Text.decimal v.resourceRequest.memoryMiB.toNat).length ≤ 2 + 1 := by
    have htiers : ∀ m ∈ supportedMemoryMiB, m.toNat < 1000 := by
      simp [supportedMemoryMiB]
    have htier := htiers _ hreq.2.1
    exact Text.length_decimal (by omega)
  rw [headerOverhead]
  omega

/-! ## Framing -/

/-- Every field but the capabilities was checked when the Version was created. -/
theorem validationRequest_valid (hv : v.validate = .ok ())
    (hprofile : v.runtimeFeatureProfile = WasmProfile.featureProfile)
    (hid : identifierPattern validationID = true) :
    (validationRequest v validationID).validate = .ok () := by
  obtain ⟨-, himm, hreq, -, -⟩ := Version.validate_ok.mp hv
  simp only [Version.immutableChecks, List.forall_mem_cons, mustNot_fails] at himm
  obtain ⟨-, -, hdigest, -, hsize, habi, hhost, -⟩ := himm
  simp only [ResourceRequest.validate, checks_ok, List.forall_mem_cons, mustNot_fails] at hreq
  rw [Validator.Request.validate, checks_ok]
  simp only [List.forall_mem_cons, validationRequest, hprofile]
  refine ⟨rfl, ?_, hdigest, ?_, habi, hhost, rfl, rfl, hreq.2.1, rfl, List.forall_mem_nil _⟩
  · rw [Bool.not_eq_false']
    exact hid
  · simp only [Bool.or_eq_false_iff, decide_eq_false_iff_not, not_le, not_lt] at hsize ⊢
    simp only [maxArtifactBytes] at hsize
    simp only [Validator.hardArtifactBytes]
    omega

theorem newRequestReader_iff {r : Validator.Request} (hr : r.validate = .ok ()) :
    (∃ frame, newRequestReader r = .ok frame) ↔ r.toJSON.marshal.length ≤ maxHeaderBytes := by
  unfold newRequestReader
  rw [hr]
  by_cases hlen : maxHeaderBytes < r.toJSON.marshal.length
  · simp [checks, hlen, bind, Except.bind]
  · simp [checks, hlen, bind, Except.bind, pure, Except.pure]
    omega

theorem fence_identifier {s : Stores} (h : s.Reachable) :
    ∀ k id, s.releases.validationIDByVersion.get? k = some id → identifierPattern id = true := by
  refine Stores.invariant (P := fun s => ∀ k id,
    s.releases.validationIDByVersion.get? k = some id → identifierPattern id = true) ?_ ?_ h
  · intro k id hk
    cases hk
  · intro s command reply s' _ ih hc
    cases hc with
    | validationStarted command v hc =>
      have hvalid := (checks_ok.mp (seq_ok.mp hc.valid).1)
      simp only [List.forall_mem_cons, mustNot_fails, Bool.or_eq_false_iff,
        Bool.not_eq_false'] at hvalid
      exact GoMap.forall_set ih hvalid.1.2
    | validationFailed | validationPassed =>
      exact fun k id hk => ih k id (GoMap.get?_delete_some hk).2
    | _ => exact ih

/--
After every interleaving of version creations, resumed validations and other writes, the request
for a stored Version passes its own validation, and it is framed exactly when the text of the
requested capabilities leaves room for the rest of the header, which is never more than 471 bytes.
The requests that drives are about to send are such requests.
-/
theorem requests_framed {σ : Type} (src : Sources σ) (run : RunValidator σ) (sources : σ)
    (moves : List (AdmissionMove σ)) :
    let a := (admissionMachine src run).run (newAdmissions sources) moves
    (∀ k v, a.releases.versions.get? k = some v →
      ∀ validationID, identifierPattern validationID = true →
        (validationRequest v validationID).validate = .ok () ∧
        ((∃ frame, newRequestReader (validationRequest v validationID) = .ok frame) ↔
          (capabilitiesText v).length + headerOverhead v validationID ≤ maxHeaderBytes) ∧
        headerOverhead v validationID ≤ 471) ∧
    (∀ t v validationID rest budget, a.drives t = some (.started v validationID rest budget) →
      a.releases.versions.get? v.versionID = some v ∧ identifierPattern validationID = true) := by
  intro a
  have h : AdmissionInv a := admissionInv_run src run sources moves
  constructor
  · intro k v hv validationID hid
    obtain ⟨-, hvalid⟩ := h.release.versions k v hv
    have hprofile := (h.versions k v hv).profile
    have hrequest := validationRequest_valid hvalid hprofile hid
    refine ⟨hrequest, ?_, headerOverhead_le hvalid hid⟩
    rw [newRequestReader_iff hrequest, header_length hvalid hprofile hid]
  · intro t v validationID rest budget hd
    have hw : Waiting a.releases v validationID := h.drives t _ hd
    exact ⟨hw.found, fence_identifier h.reachable _ _ hw.fence⟩

/-! ## A Version that cannot be sent -/

def crashingValidator : RunValidator ℕ := fun _ _ => throw ⟨.text "crashed", false, false⟩

def wideFunction : CreateFunctionCommand where
  ifNoneMatch := true
  appliedIndex := 1
  function := { createdMetadata "function-0" Model.defaultNamespace ⟨1, ⟨1, .utc⟩⟩ with
    name := "fn", description := "", activeRouteRevision := 0, labels := ∅, lifecycle := .active }
  trigger := { createdMetadata "trigger-1" Model.defaultNamespace ⟨1, ⟨1, .utc⟩⟩ with
    functionID := "function-0", enabled := true, authPolicy := .public, tokenVerifierDigest := none }

def wideBlob : SHA256 := scheme ++ List.replicate 64 0x30

/-- One capability, with a version text of any length. -/
def wideInput (first : UInt8) (text : GoString) : CreateVersionInput where
  functionID := "function-0"
  artifactDigest := wideBlob
  manifestDigest := wideBlob
  toolchain := ⟨"go", "1", "local"⟩
  resourceRequest := ⟨1000000000, 64, 1, 1024, 1024⟩
  requestedCapabilities := some [⟨"kv", first :: text⟩]

def wideVersion (first : UInt8) (text : GoString) : PreparedVersion where
  createCommand := ⟨5, ⟨1, .utc⟩⟩
  startCommand := ⟨6, ⟨1, .utc⟩⟩
  validationID := "validation-3"
  version := { createdMetadata "version-2" Model.defaultNamespace ⟨5, ⟨1, .utc⟩⟩ with
    functionID := "function-0"
    versionID := "version-2"
    artifactDigest := wideBlob
    manifestDigest := wideBlob
    artifactSize := 1
    abi := abiWASICommandV1
    hostAPIProfile := hostAPIProfileNone
    runtimeFeatureProfile := WasmProfile.featureProfile
    toolchain := ⟨"go", "1", "local"⟩
    admissionEpoch := 1
    resourceRequest := ⟨1000000000, 64, 1, 1024, 1024⟩
    requestedCapabilities := [⟨"kv", first :: text⟩]
    state := .uploaded
    validationError := none }

def wideCatalog : Catalog := newCatalog.addFunction wideFunction.function wideFunction.trigger

/-- The Function is there, the releases are `r`, and the drive 0 has come as far as `d`. -/
def wideAdmissions (r : ReleaseStore) (last : CommandMeta) (n : ℕ) (d : Option Drive) :
    Admissions ℕ :=
  ⟨⟨⟨wideCatalog, r, newRouteStore, newAssignmentStore⟩, newLedger, last, n⟩, ∅,
    Function.update (fun _ => none) 0 d⟩

def wideCreation (first : UInt8) (text : GoString) : List (AdmissionMove ℕ) :=
  [.write (.createFunction wideFunction), .prepare 0 (wideInput first text), .reserve 0, .create 0]

/-- The steps do not look into the text. -/
theorem wide_created (first : UInt8) (text : GoString) :
    (admissionMachine sampleSources crashingValidator).run (newAdmissions 2)
      (wideCreation first text) =
      ((wideAdmissions (newReleaseStore.addVersion (wideVersion first text).version)
        ⟨6, ⟨1, .utc⟩⟩ 6 (some (.preparing ⟨5, ⟨1, .utc⟩⟩ "validation-3"
          (wideVersion first text).version))).put 0 (some (.creating (wideVersion first text)))).put
        0 (some (.created (wideVersion first text))) := by
  have hprepare : (((newAdmissions 2).write (.createFunction wideFunction)).2.prepare sampleSources 0
      (wideInput first text)).2 = wideAdmissions newReleaseStore ⟨5, ⟨1, .utc⟩⟩ 5
        (some (.preparing ⟨5, ⟨1, .utc⟩⟩ "validation-3" (wideVersion first text).version)) := rfl
  show ((((((newAdmissions 2).write (.createFunction wideFunction)).2).prepare sampleSources 0
      (wideInput first text)).2.reserve sampleSources 0).2.create 0).2 = _
  rw [hprepare]
  rfl

/-- What the drive will try to send. -/
def wideStarted (first : UInt8) (text : GoString) : Version :=
  startedVersion (wideVersion first text).version
    (startValidationCommand (wideVersion first text).version (wideVersion first text))

def wideMoves (first : UInt8) (text : GoString) : List (AdmissionMove ℕ) :=
  wideCreation first text ++ [.claim 0, .start 0]

/-- The Version is accepted, and its drive is about to send it. -/
theorem wide_started (first : UInt8) (text : GoString) :
    ((admissionMachine sampleSources crashingValidator).run (newAdmissions 2)
      (wideMoves first text)).drives 0 =
      some (.started (wideStarted first text) "validation-3" [] 0) := by
  have hinv := admissionInv_run sampleSources crashingValidator 2 (wideCreation first text)
  rw [wide_created] at hinv
  rw [wideMoves, Machine.run_append, wide_created]
  have hclaim := hinv.claim 0
  have hclaimed := hinv.claim_eq (drives_put_self ..)
  rw [hclaimed] at hclaim
  show ((Admissions.claim _ 0).2.start 0).2.drives 0 = _
  rw [hclaimed, hclaim.start_eq (drives_put_self ..)]
  exact drives_put_self ..

theorem wideText_length (n : ℕ) :
    (Json.marshalString (0x61 :: List.replicate n 0x61)).length = n + 3 := by
  rw [Json.length_marshalString_plain (by simp [Json.isPlain, Json.bQuote, Json.bBackslash]), List.length_cons,
    List.length_replicate]

/-- The text is written once. -/
theorem wideBody_length (n : ℕ) :
    (wideInput 0x61 (List.replicate n 0x61)).toJSON.marshal.length ≤ n + 1000 := by
  have hbase : (wideInput 0x61 (List.replicate 0 0x61)).toJSON.marshal.length ≤ 1000 := by
    decide +kernel
  simp only [CreateVersionInput.toJSON, wideInput, toolchainJSON, capabilitiesJSON, Json.ofOption,
    Json.marshal, Json.marshalMembers, Json.marshalItems, List.map_cons, List.map_nil,
    List.length_append, List.length_cons, wideText_length, Nat.add_assoc, Nat.zero_add,
    fun k => Nat.add_left_comm k n] at hbase ⊢
  exact Nat.add_le_add_left hbase n

theorem wide_header {n : ℕ} (hlong : maxHeaderBytes ≤ n) :
    newRequestReader (validationRequest (wideStarted 0x61 (List.replicate n 0x61)) "validation-3") =
      .error (.text "validator protocol: request header exceeds limit") := by
  have hvalid : (validationRequest (wideStarted 0x61 (List.replicate n 0x61))
      "validation-3").validate = .ok () := rfl
  have htext := wideText_length n
  have hcapabilities :
      n ≤ (capabilitiesText (wideStarted 0x61 (List.replicate n 0x61))).length := by
    show n ≤ (Json.arr [Validator.capabilityJSON
      ⟨"kv", 0x61 :: List.replicate n 0x61⟩]).marshal.length
    simp only [Validator.capabilityJSON, Json.marshal, Json.marshalMembers, Json.marshalItems,
      List.length_append, List.length_cons]
    omega
  have hlen : maxHeaderBytes < (validationRequest (wideStarted 0x61 (List.replicate n 0x61))
      "validation-3").toJSON.marshal.length := by
    rw [header_length rfl rfl rfl, headerOverhead]
    omega
  unfold newRequestReader
  simp only [hvalid, checks, hlen, decide_true, if_true, bind, Except.bind]

/-- A capability with a long version text passes every check on the way in, within the limit of a
management body, and does not pass the limit of the header on the way out. -/
theorem request_header_exceeds : ∃ (input : CreateVersionInput) (moves : List (AdmissionMove ℕ))
    (t : ℕ) (v : Version) (validationID : GoString),
    operationBody input.toJSON = .ok input.toJSON.marshal ∧
    ((admissionMachine sampleSources crashingValidator).run (newAdmissions 2) moves).drives t =
      some (.started v validationID [] 0) ∧
    some v.requestedCapabilities = input.requestedCapabilities ∧
    newRequestReader (validationRequest v validationID) =
      .error (.text "validator protocol: request header exceeds limit") := by
  refine ⟨wideInput 0x61 (List.replicate maxHeaderBytes 0x61),
    wideMoves 0x61 (List.replicate maxHeaderBytes 0x61), 0,
    wideStarted 0x61 (List.replicate maxHeaderBytes 0x61), "validation-3", ?_,
    wide_started 0x61 _, rfl, wide_header le_rfl⟩
  have hbody := wideBody_length maxHeaderBytes
  rw [operationBody, if_neg]
  simp only [maxOperationBodyBytes, maxHeaderBytes] at hbody ⊢
  omega

end MiniCloud.LocalController
