import MiniCloud.LocalController.Admission
import MiniCloud.Proof.PolicyDigest
import MiniCloud.Proof.ReleaseInv

/-!
# Producer and store

The controller builds a Version, its validation fence and its first Deployment; the store checks
each of them with rules of its own. This file shows, command by command, that what the one builds
the other accepts.
-/

namespace MiniCloud.LocalController

open Lib Problem Digest Model ControlPlane Op

variable {v : Version} {command : CommandMeta} {validationID : GoString} {report : Validator.Report}
  {r : ReleaseStore} {s : Stores}

/-! ## The policy of a valid Version -/

def wholeMilliseconds (v : Version) : Prop :=
  v.resourceRequest.timeout.tmod Duration.millisecond = 0

/-- The limits of the request with the fixed log bound. -/
theorem initialLimits_validate (hv : v.validate = .ok ()) :
    (initialLimits v).validate = .ok () := by
  have hr := (Version.validate_ok.mp hv).2.2.1
  simp only [ResourceRequest.validate, checks_ok, List.forall_mem_cons, mustNot_fails] at hr
  simp only [ResourceLimits.validate, seq_ok, ResourceRequest.validate, checks_ok,
    List.forall_mem_cons, mustNot_fails]
  exact ⟨⟨hr.1, hr.2.1, rfl, hr.2.2.2⟩, rfl, List.forall_mem_nil _⟩

theorem initialPolicy_validate (hv : v.validate = .ok ()) (hms : wholeMilliseconds v) :
    (initialPolicy v).validate = .ok () := by
  obtain ⟨-, himm, hreq, hcap, -⟩ := Version.validate_ok.mp hv
  simp only [Version.immutableChecks, List.forall_mem_cons, mustNot_fails] at himm
  obtain ⟨-, hid, hdigest, -, hsize, habi, hhost, hprofile, -, -, hepoch, -⟩ := himm
  simp only [ResourceRequest.validate, checks_ok, List.forall_mem_cons, mustNot_fails] at hreq
  have hwhole : (initialPolicy v).resourceLimits.timeout % Duration.millisecond = 0 :=
    Int.emod_eq_zero_of_dvd (Int.dvd_of_tmod_eq_zero hms)
  have hsize' : (decide ((initialPolicy v).artifactSize < 1) ||
      decide (maxArtifactBytes < (initialPolicy v).artifactSize)) = false := by
    simp only [Bool.or_eq_false_iff, decide_eq_false_iff_not, not_le, not_lt] at hsize ⊢
    exact ⟨hsize.1, hsize.2⟩
  rw [EffectivePolicy.validate, seq_ok, seq_ok, seq_ok, checks_ok, checks_ok]
  simp only [List.forall_mem_cons, mustNot_fails, hwhole, bne_self_eq_false]
  refine ⟨⟨hid, hepoch, rfl, hdigest, hsize', habi, hhost, hprofile, List.forall_mem_nil _⟩,
    initialLimits_validate hv, ⟨trivial, hreq.2.2.1, List.forall_mem_nil _⟩, ?_⟩
  have hgranted : validateCapabilities (initialPolicy v).grantedCapabilities = .ok () := hcap
  rw [hgranted]

/-- Every valid policy has a digest. -/
theorem policy_digest {p : EffectivePolicy} (hp : p.validate = .ok ()) :
    ∃ d, p.digest = .ok d := by
  obtain ⟨text, -, -, hdigest⟩ := policy_hashed hp
  exact ⟨_, hdigest⟩

theorem canonicalJSON_pattern {domain schemaVersion : GoString} {tree : Json Json.Num} {d : SHA256}
    (h : canonicalJSON domain schemaVersion tree = .ok d) : encodedPattern d = true := by
  unfold canonicalJSON at h
  split_ifs at h
  split at h
  · cases h
  · cases h
    exact sum_pattern _

theorem policy_digest_pattern {p : EffectivePolicy} {d : SHA256} (h : p.digest = .ok d) :
    encodedPattern d = true := by
  obtain ⟨⟨⟩, -, h⟩ := bind_ok.mp h
  exact canonicalJSON_pattern h

/-! ## Command metadata -/

/-- Command metadata as `nextCommand` hands it out. -/
structure CommandMeta.Usable (command : CommandMeta) : Prop where
  index : command.appliedIndex ≠ 0
  nonzero : command.time.isZero = false
  utc : command.time.isUTC = true

theorem CommandMeta.Usable.created (h : command.Usable) {id ns : GoString}
    (hid : idPattern id = true) (hns : ns = Model.defaultNamespace) :
    (createdMetadata id ns command).Valid where
  id := hid
  ns := hns
  createdAt := ⟨h.nonzero, h.utc⟩
  updatedAt := ⟨h.nonzero, h.utc⟩
  order := Int.le_refl _
  createdRaftIndex := h.index
  resourceRevision := by
    show (1 : UInt64) ≠ 0
    decide

/-! ## The first Deployment -/

theorem initialDeployment_exists (hv : v.validate = .ok ()) (hms : wholeMilliseconds v)
    (id : GoString) (command : CommandMeta) : ∃ d, initialDeployment v id command = .ok d := by
  obtain ⟨digest, hdigest⟩ := policy_digest (initialPolicy_validate hv hms)
  simp only [initialDeployment, hdigest, wrapping, bind, Except.bind]
  exact ⟨_, rfl⟩

/-- **The store accepts the Deployment the controller builds.** -/
theorem initialDeployment_accepted {id : GoString} {d : Deployment} (hv : v.validate = .ok ())
    (hid : idPattern id = true) (hc : command.Usable)
    (hd : initialDeployment v id command = .ok d) (revision : UInt64) :
    validateInitialDeployment d { v with updatedAt := command.time, resourceRevision := revision }
      command.appliedIndex command.time = .ok () := by
  obtain ⟨digest, hdigest, hd⟩ := bind_ok.mp hd
  have hdigest := wrapping_ok.mp hdigest
  cases hd
  obtain ⟨hmeta, himm, hreq, hcap, -⟩ := Version.validate_ok.mp hv
  simp only [Version.immutableChecks, List.forall_mem_cons, mustNot_fails] at himm
  simp only [ResourceRequest.validate, checks_ok, List.forall_mem_cons, mustNot_fails] at hreq
  have hpattern := policy_digest_pattern hdigest
  rw [validateInitialDeployment, seq_ok, seq_ok, checks_ok]
  refine ⟨?_, ?_, ?_⟩
  · -- it is a valid Deployment in itself
    rw [Deployment.validate, seq_ok, seq_ok, seq_ok, seq_ok, checks_ok, checks_ok]
    refine ⟨Metadata.validate_ok.mpr (hc.created hid hmeta.ns), ?_, initialLimits_validate hv,
      hcap, ?_⟩
    · simp only [List.forall_mem_cons, mustNot_fails]
      exact ⟨himm.2.1, rfl, rfl, List.forall_mem_nil _⟩
    · simp only [List.forall_mem_cons, mustNot_fails, hpattern]
      exact ⟨rfl, rfl, rfl, rfl, rfl, hreq.2.2.1, rfl, rfl, rfl, List.forall_mem_nil _⟩
  · -- the fixed policy, granting what was requested
    simp [createdMetadata, exactLimits, initialLimits, capabilitiesSubset,
      ControlPlane.defaultMaxLogBytes, defaultMaxLogBytes]
    exact fun c hc => ⟨c, hc, rfl⟩
  · refine bind_ok.mpr ⟨digest, wrapping_ok.mpr hdigest, ?_⟩
    simp [checks]

/-! ## Admission states -/

/-- A later form of a valid Version, as far as it depends on what admission changes. -/
theorem validate_progress {v' : Version} (hv : v.validate = .ok ()) (hs : SameVersion v v')
    (hutc : v'.updatedAt.isZero = false ∧ v'.updatedAt.isUTC = true)
    (horder : v.createdAt.instant ≤ v'.updatedAt.instant) (hrev : v'.resourceRevision ≠ 0)
    (hstate : ∀ c ∈ v'.stateChecks, c.fails = false) : v'.validate = .ok () := by
  obtain ⟨hmeta, himm, hreq, hcap, -⟩ := Version.validate_ok.mp hv
  refine Version.validate_ok.mpr ⟨?_, ?_, ?_, ?_, hstate⟩
  · rw [hs]
    exact ⟨hmeta.id, hmeta.ns, hmeta.createdAt, hutc, horder, hmeta.createdRaftIndex, hrev⟩
  · rw [hs]
    exact himm
  · rw [hs]
    exact hreq
  · rw [hs]
    exact hcap

/-- Away from Failed, a state is fine when the Version carries no validation error. -/
theorem stateChecks_unfailed (hvalid : v.state.valid = true) (hstate : v.state ≠ .failed)
    (herror : v.validationError = none) : ∀ c ∈ v.stateChecks, c.fails = false := by
  simp [Version.stateChecks, hvalid, hstate, herror]

theorem validationError_none (hv : v.validate = .ok ()) (hstate : v.state ≠ .failed) :
    v.validationError = none := by
  rw [← Option.not_isSome_iff_eq_none, Version.validationError_iff hv]
  exact hstate

/-! ## Starting -/

/-- A version creation as `prepareCreateVersion` hands it out; `last` is the latest command. -/
structure Drawn (last : CommandMeta) (p : PreparedVersion) : Prop where
  timeout : wholeMilliseconds p.version
  profile : p.version.runtimeFeatureProfile = WasmProfile.featureProfile
  validationID : identifierPattern p.validationID = true
  start : p.startCommand.Usable
  order : p.version.updatedAt.instant ≤ p.startCommand.time.instant
  created : p.version.createdAt.instant ≤ p.startCommand.time.instant
  latest : p.startCommand.time.instant ≤ last.time.instant
  begun : last.time.isZero = false

/-- **The reserved start always goes through.** -/
theorem startsValidation {last : CommandMeta} {p : PreparedVersion} (hd : Drawn last p)
    (hnew : NewVersion p.version) (hfound : r.versions.get? p.version.versionID = some p.version) :
    StartsValidation r (startValidationCommand p.version p) p.version := by
  have hid : identifierPattern p.version.versionID = true := by
    rw [← hnew.id]
    exact (Version.validate_ok.mp hnew.valid).1.id
  have herror : p.version.validationError = none :=
    validationError_none hnew.valid (by rw [hnew.state]; decide)
  refine ⟨?_, hfound, rfl, hnew.state, ?_⟩
  · rw [validateStartValidation, seq_ok, checks_ok]
    refine ⟨?_, validateUTC_ok.mpr ⟨hd.start.nonzero, hd.start.utc⟩⟩
    simp [startValidationCommand, hid, hd.validationID, hnew.revision, hd.start.index]
  · refine validate_progress hnew.valid rfl ⟨hd.start.nonzero, hd.start.utc⟩ hd.created ?_ ?_
    · show p.version.resourceRevision + 1 ≠ 0
      rw [hnew.revision]
      decide
    · exact stateChecks_unfailed rfl (fun h => by cases h) herror

/-! ## Completing -/

/-- A report the validator may return on this attempt. -/
structure Acceptable (v : Version) (validationID : GoString) (report : Validator.Report) : Prop where
  valid : report.validate = .ok ()
  current : report.validationID = validationID
  digest : report.artifactDigest = v.artifactDigest
  size : report.artifactSize = v.artifactSize
  engine : report.runtimeEngine = WasmProfile.engineCompiler
  message : report.valid = false →
    Text.validUTF8 report.message = true ∧ report.message.length ≤ maxOperationMessage

/-- A Version that waits for its report, in a store that has its fence. -/
structure Waiting (r : ReleaseStore) (v : Version) (validationID : GoString) : Prop where
  found : r.versions.get? v.versionID = some v
  valid : v.validate = .ok ()
  state : v.state = .validating
  revision : v.resourceRevision = 2
  fence : r.validationIDByVersion.get? v.versionID = some validationID
  timeout : wholeMilliseconds v
  profile : v.runtimeFeatureProfile = WasmProfile.featureProfile

section

variable (hw : Waiting r v validationID) (hr : Acceptable v validationID report)
include hw hr

theorem consumesReport {deployment : Option Deployment} (hc : command.Usable)
    (hlater : v.updatedAt.instant ≤ command.time.instant)
    (hdep : deployment.isSome = report.valid) :
    ConsumesReport r (completeValidationCommand v report deployment command) v := by
  have hid : identifierPattern v.versionID = true := by
    have himm := (Version.validate_ok.mp hw.valid).2.1
    simp only [Version.immutableChecks, List.forall_mem_cons, mustNot_fails,
      Bool.not_eq_false'] at himm
    exact himm.2.1
  have hprofile : report.runtimeFeatureProfile = WasmProfile.featureProfile := by
    have h := hr.valid
    simp only [Validator.Report.validate, checks_ok, List.forall_mem_cons] at h
    have hmeta := h.2.2.2.2.1
    simp only [Bool.or_eq_false_iff, bne_eq_false_iff_eq] at hmeta
    exact hmeta.1.1
  refine ⟨?_, hw.found, rfl, hw.state, ?_, ?_, hlater⟩
  · rw [validateCompleteValidation, seq_ok, seq_ok, checks_ok, checks_ok]
    refine ⟨?_, validateUTC_ok.mpr ⟨hc.nonzero, hc.utc⟩, ?_⟩
    · simp [completeValidationCommand, hid, hw.revision, hc.index]
    · cases hvalid : report.valid <;> rw [hvalid] at hdep <;>
        simp_all [completeValidationCommand, hr.valid, Except.isOk, Except.toBool]
  · rw [hw.fence]
    exact hr.current.symm
  · rw [validateReportForVersion, checks_ok]
    simp only [List.forall_mem_cons, mustNot_fails, completeValidationCommand]
    refine ⟨?_, ?_, ?_, List.forall_mem_nil _⟩
    · simp [hr.digest, hr.size, hprofile, hw.profile]
    · simp [hr.engine]
    · cases hvalid : report.valid with
      | true => rfl
      | false =>
        obtain ⟨hutf, hlen⟩ := hr.message hvalid
        rw [hutf]
        exact decide_eq_false (not_lt.mpr hlen)

/-- A passing report admits the Version with the Deployment that was built for it. -/
theorem admitsVersion {deploymentID : GoString} {deployment : Deployment}
    (hpassed : report.valid = true) (hc : command.Usable)
    (hlater : v.updatedAt.instant ≤ command.time.instant) (hid : idPattern deploymentID = true)
    (hd : initialDeployment v deploymentID command = .ok deployment) :
    AdmitsVersion r (completeValidationCommand v report (some deployment) command) v deployment := by
  have hmeta := (Version.validate_ok.mp hw.valid).1
  have herror : v.validationError = none :=
    validationError_none hw.valid (by rw [hw.state]; decide)
  refine ⟨consumesReport hw hr hc hlater hpassed.symm, hpassed, rfl,
    initialDeployment_accepted hw.valid hid hc hd _, ?_⟩
  refine validate_progress hw.valid rfl ⟨hc.nonzero, hc.utc⟩ (hmeta.order.trans hlater) ?_ ?_
  · show v.resourceRevision + 1 ≠ 0
    rw [hw.revision]
    decide
  · exact stateChecks_unfailed rfl (fun h => by cases h) herror

/-- A rejecting report has the code and the message a failed Version needs. -/
theorem failedVersion_validate (hrejected : report.valid = false) (hc : command.Usable)
    (hlater : v.updatedAt.instant ≤ command.time.instant) :
    (failedVersion v (completeValidationCommand v report none command)).validate = .ok () := by
  have hmeta := (Version.validate_ok.mp hw.valid).1
  refine validate_progress hw.valid rfl ⟨hc.nonzero, hc.utc⟩ (hmeta.order.trans hlater) ?_ ?_
  · show v.resourceRevision + 1 ≠ 0
    rw [hw.revision]
    decide
  · have h := hr.valid
    simp only [Validator.Report.validate, checks_ok, List.forall_mem_cons, Bool.or_eq_false_iff,
      hrejected, Bool.not_false, Bool.true_and, Bool.not_eq_false'] at h
    have hmessage : (report.message == []) = false := h.2.1.1
    have hknown : known (Code.ofText report.code) = true := h.2.2.2.2.2.2.2.2.1
    have htext : ((Code.ofText report.code).text == []) = false := by
      obtain ⟨c, hc, heq⟩ := List.any_eq_true.mp hknown
      have hall : allCodes.all (fun c => !(c.text == [])) = true := by decide
      rw [← decide_eq_true_eq.mp heq]
      simpa using List.all_eq_true.mp hall c hc
    simp only [Version.stateChecks, List.forall_mem_cons, mustNot_fails, failedVersion,
      completeValidationCommand, Option.any_some, htext, hmessage, hknown]
    exact ⟨rfl, rfl, rfl, rfl, rfl, List.forall_mem_nil _⟩

end

/-! ## On the stores -/

theorem exec_applyStartValidation {last : CommandMeta} {p : PreparedVersion} (hd : Drawn last p)
    (hnew : NewVersion p.version)
    (hfound : s.releases.versions.get? p.version.versionID = some p.version) :
    exec (applyStartValidation p.version p) s =
      (.ok (startedVersion p.version (startValidationCommand p.version p)),
        { s with
          releases := s.releases.startVersion
            (startedVersion p.version (startValidationCommand p.version p)) p.validationID }) := by
  simp only [applyStartValidation, wrapped, exec_mapError, Stores.onReleases, exec_onPart,
    exec_startValidation (startsValidation hd hnew hfound)]
  rfl

section

variable (hw : Waiting s.releases v validationID) (hr : Acceptable v validationID report)
include hw hr

theorem exec_applyCompletion_passed {deploymentID : GoString} {deployment : Deployment}
    (hpassed : report.valid = true) (hc : command.Usable)
    (hlater : v.updatedAt.instant ≤ command.time.instant) (hid : idPattern deploymentID = true)
    (hd : initialDeployment v deploymentID command = .ok deployment) :
    exec (applyCompletion v report (some deployment) command) s =
      (.ok ⟨readyVersion v (completeValidationCommand v report (some deployment) command),
          some deployment⟩,
        { s with
          releases := s.releases.admitVersion
            (readyVersion v (completeValidationCommand v report (some deployment) command))
            deployment }) := by
  have hexec := exec_completeValidation_passed (admitsVersion hw hr hpassed hc hlater hid hd)
  simp only [applyCompletion, exec_map, wrapped, exec_mapError, Stores.onReleases, exec_onPart,
    hexec]
  rfl

theorem exec_applyCompletion_failed (hrejected : report.valid = false) (hc : command.Usable)
    (hlater : v.updatedAt.instant ≤ command.time.instant) :
    exec (applyCompletion v report none command) s =
      (.ok ⟨failedVersion v (completeValidationCommand v report none command), none⟩,
        { s with
          releases := s.releases.failVersion
            (failedVersion v (completeValidationCommand v report none command)) }) := by
  have hconsumes : ConsumesReport s.releases (completeValidationCommand v report none command) v :=
    consumesReport hw hr hc hlater hrejected.symm
  have hexec := exec_completeValidation_failed hconsumes hrejected
    (failedVersion_validate hw hr hrejected hc hlater)
  simp only [applyCompletion, exec_map, wrapped, exec_mapError, Stores.onReleases, exec_onPart,
    hexec]
  rfl

end

/-! ## Drawing -/

/-- Time has not gone back since `a`, once it has begun. -/
def Later (a b : CommandMeta) : Prop :=
  a.time.isZero = false → b.time.isZero = false ∧ a.time.instant ≤ b.time.instant

theorem Later.refl (a : CommandMeta) : Later a a := fun h => ⟨h, Int.le_refl _⟩

theorem Later.trans {a b c : CommandMeta} (hab : Later a b) (hbc : Later b c) : Later a c := by
  intro h
  obtain ⟨hb, hle⟩ := hab h
  obtain ⟨hc, hle'⟩ := hbc hb
  exact ⟨hc, hle.trans hle'⟩

variable {σ : Type}

/-- What drawing from the sources does to the controller. -/
structure Draws (c c' : Controller σ) : Prop where
  stores : c'.stores = c.stores
  later : Later c.lastCommand c'.lastCommand

instance : Std.Refl (Draws (σ := σ)) := ⟨fun _ => ⟨rfl, .refl _⟩⟩

instance : IsTrans (Controller σ) Draws :=
  ⟨fun _ _ _ h h' => ⟨h'.stores.trans h.stores, h.later.trans h'.later⟩⟩

variable (src : Sources σ)

theorem moves_onSources {α : Type} (m : Op GoError σ α) (context : GoString) (c : Controller σ) :
    Moves Draws (wrapped context (onSources m)) c fun _ _ => True :=
  .mapError (.onPart fun _ => ⟨rfl, .refl _⟩)

/-- The command handed out is the latest from then on. -/
theorem moves_nextCommand (c : Controller σ) :
    Moves Draws (nextCommand src) c fun command c' => command.Usable ∧ c'.lastCommand = command := by
  refine (moves_onSources src.next _ c).bind fun command t _ _ => ?_
  refine .failIf_bind fun hindex => .failIf_bind fun hutc => .get_bind ?_
  refine .failIf_bind fun _ => .failIf_bind fun hback => ?_
  simp only [Bool.or_eq_false_iff, bne_eq_false_iff_eq] at hutc
  have husable : command.Usable := by
    refine ⟨by simpa using hindex, hutc.1, ?_⟩
    rw [Time.isUTC, hutc.2]
    rfl
  refine .set_ret ⟨rfl, fun hbegun => ⟨hutc.1, ?_⟩⟩ ⟨husable, rfl⟩
  have hlast : command.time.before t.lastCommand.time = false := by simpa [hbegun] using hback
  exact Time.before_eq_false.mp hlast

theorem moves_newID (kind : GoString) (c : Controller σ) :
    Moves Draws (newID src kind) c fun id _ => identifierPattern id = true := by
  refine (moves_onSources (src.newID kind) _ c).bind fun id t _ _ => ?_
  refine .failIf_bind fun _ => .failIf_bind fun hid => .ret ?_
  simpa using hid

theorem moves_verifyArtifact (expected : SHA256) (c : Controller σ) :
    Moves Draws (verifyArtifact src expected) c fun _ _ => True := by
  refine (moves_onSources (src.openVerified expected) _ c).bind fun opened t _ _ => ?_
  refine .orFail_bind fun file _ => .ofExcept_bind fun _ _ => ?_
  exact .failIf_bind fun _ => .ret trivial

/-- What the first half of a preparation hands out. -/
structure HalfDrawn (last : CommandMeta) (validationID : GoString) (version : Version) : Prop where
  timeout : wholeMilliseconds version
  profile : version.runtimeFeatureProfile = WasmProfile.featureProfile
  validationID : identifierPattern validationID = true
  times : version.createdAt = version.updatedAt
  latest : version.updatedAt.instant ≤ last.time.instant
  begun : last.time.isZero = false

theorem moves_drawVersion (input : CreateVersionInput) (c : Controller σ) :
    Moves Draws (drawVersion src input) c fun drawn c' =>
      HalfDrawn c'.lastCommand drawn.2.1 drawn.2.2 := by
  refine .failIf_bind fun htimeout => ?_
  refine (moves_verifyArtifact src _ c).bind fun info t _ _ => ?_
  refine (moves_newID src _ t).bind fun versionID t _ _ => ?_
  refine (moves_newID src _ t).bind fun validationID t _ hvalidation => ?_
  refine (moves_nextCommand src t).bind fun command t _ hcommand => .ret ?_
  obtain ⟨husable, rfl⟩ := hcommand
  have hms : input.resourceRequest.timeout.tmod Duration.millisecond = 0 := by simpa using htimeout
  exact ⟨hms, rfl, hvalidation, rfl, Int.le_refl _, husable.nonzero⟩

theorem moves_reserveStart {c : Controller σ} {createCommand : CommandMeta} {version : Version}
    (h : HalfDrawn c.lastCommand validationID version) :
    Moves Draws (reserveStart src createCommand validationID version) c fun p c' =>
      Drawn c'.lastCommand p := by
  refine (moves_nextCommand src c).bind fun command t hdraws hcommand => .ret ?_
  obtain ⟨husable, rfl⟩ := hcommand
  have horder := h.latest.trans (hdraws.later h.begun).2
  refine ⟨h.timeout, h.profile, h.validationID, husable, horder, ?_, Int.le_refl _, husable.nonzero⟩
  show version.createdAt.instant ≤ _
  rw [h.times]
  exact horder

/-- What a completing command carries. -/
structure Completing (v : Version) (report : Validator.Report) (deployment : Option Deployment)
    (command : CommandMeta) : Prop where
  usable : command.Usable
  passed : report.valid = true → ∃ id d, idPattern id = true ∧ deployment = some d ∧
    initialDeployment v id command = .ok d
  rejected : report.valid = false → deployment = none

theorem moves_drawCompletion (v : Version) (report : Validator.Report) (c : Controller σ) :
    Moves Draws (drawCompletion src v report) c fun drawn c' =>
      Completing v report drawn.1 drawn.2 ∧ c'.lastCommand = drawn.2 := by
  unfold drawCompletion
  split_ifs with hvalid
  · refine (moves_newID src _ c).bind fun id t _ hid => ?_
    refine (moves_nextCommand src t).bind fun command t _ hcommand => ?_
    refine .ofExcept_bind fun d hd => .ret ⟨⟨hcommand.1, fun _ => ⟨id, d, hid, rfl, hd⟩, ?_⟩, hcommand.2⟩
    rw [hvalid]
    intro h
    cases h
  · refine (moves_nextCommand src c).bind fun command t _ hcommand => .ret ⟨⟨hcommand.1, ?_, ?_⟩, hcommand.2⟩
    · intro h
      exact absurd h hvalid
    · exact fun _ => rfl

theorem moves_admissionReport (run : RunValidator σ) (v : Version) (validationID : GoString)
    (c : Controller σ) :
    Moves Draws (admissionReport src run v validationID) c fun _ _ => True := by
  have hopen : Moves Draws (openArtifactForValidation src v) c fun _ _ => True := by
    refine (moves_onSources (src.openVerified _) _ c).bind fun opened t _ _ => ?_
    exact .orFail_bind fun file _ => .failIf_bind fun _ => .ret trivial
  have hrun : ∀ file t, Moves Draws (runValidator run v validationID file) t fun _ _ => True := by
    intro file t
    refine .get_bind ⟨?_, fun _ _ _ => trivial⟩
    rw [exec_set_bind]
    split
    · exact ⟨rfl, .refl _⟩
    · split_ifs
      · exact ⟨rfl, .refl _⟩
      · exact ⟨rfl, .refl _⟩
  refine hopen.bind fun opened t _ _ => (hrun _ t).bind fun report t _ _ => ?_
  exact .failIf_bind fun _ => .ret trivial

end MiniCloud.LocalController
