import MiniCloud.ManagementHttp.Version
import MiniCloud.Proof.Admission
import MiniCloud.Proof.RouteReplay

/-!
# The timeout a management client asks for

`versionInput` multiplies before anything bounds the number of milliseconds, so the product can
wrap around into the range that is checked later. A committed timeout is then the requested one
up to a multiple of `2^58` milliseconds, and no more than that.
-/

namespace MiniCloud.ManagementHttp

open Lib Problem Digest Model ControlPlane LocalController Op

variable {functionID k : GoString} {body : CreateVersionRequest} {input : CreateVersionInput}
  {v : Version} {s : Stores} {σ : Type} {c c' : Controller σ} {prepared : PreparedVersion}

theorem versionInput_ok (h : versionInput functionID body = .ok input) :
    0 < body.resourceRequest.timeoutMS.toInt ∧
      input.resourceRequest.timeout = durationMS body.resourceRequest.timeoutMS := by
  rw [versionInput] at h
  simp only [bind_ok, ↓after_ok, checks_ok, List.forall_mem_cons, mustNot_fails] at h
  obtain ⟨artifactDigest, -, manifestDigest, -, ⟨htimeout, -⟩, hinput⟩ := h
  have hlow := mt Int64.lt_iff_toInt_lt.mpr (of_decide_eq_false htimeout)
  have hone : (1 : Int64).toInt = 1 := by decide
  cases hinput
  exact ⟨by omega, rfl⟩

theorem durationMS_eq (ms : Int64) : durationMS ms = (ms.toInt * 1000000).bmod (2 ^ 64) := by
  have hmillisecond : (1000000 : Int64).toInt = 1000000 := by decide
  rw [durationMS, Int64.toInt_mul, hmillisecond]

/-- The range of a timeout that passes every test. -/
theorem timeout_range (h : v.validate = .ok ()) :
    0 < v.resourceRequest.timeout ∧ v.resourceRequest.timeout ≤ 30000000000 := by
  have hrequest := (Version.validate_ok.mp h).2.2.1
  rw [ResourceRequest.validate, checks_ok] at hrequest
  have htimeout := hrequest _ (List.mem_cons_self ..)
  rw [mustNot_fails, Bool.or_eq_false_iff, decide_eq_false_iff_not,
    decide_eq_false_iff_not] at htimeout
  have hbound : 30 * Duration.second = 30000000000 := rfl
  rw [hbound] at htimeout
  exact ⟨Int.not_le.mp htimeout.1, Int.not_lt.mp htimeout.2⟩

/-- Below `2^58` milliseconds, a product that passes the later tests has not wrapped. -/
theorem product_exact {ms p : Int} (hp : p = (ms * 1000000).bmod (2 ^ 64)) (hpos : 0 < ms)
    (hms : ms < 2 ^ 58) (hlow : 0 < p) (hhigh : p ≤ 30000000000) (hwhole : 1000000 ∣ p) :
    p = ms * 1000000 := by
  obtain ⟨k, rfl⟩ := hwhole
  have hmod : (2 ^ 64 : Int) ∣ ms * 1000000 - 1000000 * k := by
    rw [hp]
    exact Int.dvd_self_sub_bmod
  -- `10^6` has six factors two; the rest of it is coprime to the modulus
  have hsplit : (2 ^ 64 : Int) = 64 * 2 ^ 58 := by norm_num
  have hproduct : ms * 1000000 - 1000000 * k = 64 * (15625 * (ms - k)) := by ring
  rw [hsplit, hproduct] at hmod
  have hcoprime : IsCoprime (2 ^ 58 : Int) 15625 := by norm_num
  obtain ⟨r, hr⟩ := hcoprime.dvd_of_dvd_mul_left (Int.dvd_of_mul_dvd_mul_left (by decide) hmod)
  clear hp hmod
  omega

theorem milliseconds_exact (ms : Int64) : milliseconds (ms.toInt * Duration.millisecond) = ms := by
  rw [milliseconds, Int.mul_tdiv_cancel _ (by decide), Int64.ofInt_toInt]

/-- No later command changes what a stored Version asks for. -/
theorem stored_request (hs : s.Reachable) (hv : s.releases.versions.get? k = some v)
    (later : List Command) :
    ∃ stored, (storesMachine.run s later).releases.versions.get? k = some stored ∧
      stored.resourceRequest = v.resourceRequest := by
  refine @Machine.run_rel _ _ _ storesMachine newStores s
    (fun a b => ∀ v, a.releases.versions.get? k = some v →
      ∃ w, b.releases.versions.get? k = some w ∧ w.resourceRequest = v.resourceRequest)
    ?_ ?_ ?_ hs later v hv
  · intro a v hv
    exact ⟨v, hv, rfl⟩
  · intro a b c hab hbc v hv
    obtain ⟨w, hw, hvw⟩ := hab v hv
    obtain ⟨x, hx, hwx⟩ := hbc w hw
    exact ⟨x, hx, hwx.trans hvw⟩
  · intro a command ha v hv
    obtain ⟨w, hw, hsame, -⟩ := (releaseStep_reachable ha command).version hv
    refine ⟨w, hw, ?_⟩
    rw [hsame]

/-- What a commit of the request has stored. -/
theorem committed_version (src : Sources σ) (hinput : versionInput functionID body = .ok input)
    (hprepare : exec (prepareCreateVersion src input) c = (.ok prepared, c'))
    (hcommit : (exec (applyCreateVersion prepared) s).1 = .ok v) :
    (exec (applyCreateVersion prepared) s).2.releases.versions.get? v.versionID = some v ∧
      v.validate = .ok () ∧
      v.resourceRequest.timeout = durationMS body.resourceRequest.timeoutMS ∧
      (durationMS body.resourceRequest.timeoutMS).tmod Duration.millisecond = 0 := by
  have htimeout := (versionInput_ok hinput).2
  obtain ⟨hrequest, hwhole⟩ :=
    (leaves_prepareCreateVersion src input c).2 prepared (by rw [hprepare])
  have hatomic := atomic_applyCreateVersion s prepared
  rcases he : exec (applyCreateVersion prepared) s with ⟨e | version, s'⟩
  · rw [he] at hcommit
    cases hcommit
  · rw [he] at hcommit
    cases hcommit
    rw [Atomic, he] at hatomic
    obtain ⟨function, hcreates, rfl, rfl⟩ := hatomic
    refine ⟨GoMap.get?_set_self .., (validateCreateVersion_ok hcreates.valid).valid, ?_, ?_⟩
    · rw [hrequest, htimeout]
    · rw [← htimeout, hwhole]

/--
**The requested timeout is stored**, unless the product wraps. Preparing and committing may happen
in any two states; whatever is committed afterwards, the record and its view show the requested
milliseconds, within the range, exactly for a request below `2^58`.
-/
theorem requested_timeout (src : Sources σ) (hs : s.Reachable)
    (hinput : versionInput functionID body = .ok input)
    (hprepare : exec (prepareCreateVersion src input) c = (.ok prepared, c'))
    (hcommit : (exec (applyCreateVersion prepared) s).1 = .ok v) (later : List Command) :
    let ms := body.resourceRequest.timeoutMS
    let s' := storesMachine.run (exec (applyCreateVersion prepared) s).2 later
    (∃ stored, s'.releases.versions.get? v.versionID = some stored ∧
      stored.resourceRequest.timeout = ms.toInt * Duration.millisecond ∧
      1 ≤ ms.toInt ∧ ms.toInt ≤ 30000 ∧
      (versionView stored).resourceRequest.timeoutMS = ms) ↔ ms.toInt < 2 ^ 58 := by
  intro ms s'
  have hpos : 0 < ms.toInt := (versionInput_ok hinput).1
  obtain ⟨hadded, hvalid, htimeout, hwhole⟩ := committed_version src hinput hprepare hcommit
  have hreached : (exec (applyCreateVersion prepared) s).2.Reachable := by
    rw [step_applyCreateVersion]
    exact .tail _ hs
  obtain ⟨stored, hstored, hrequest⟩ := stored_request hreached hadded later
  obtain ⟨hlow, hhigh⟩ := timeout_range hvalid
  rw [htimeout] at hlow hhigh
  constructor
  · rintro ⟨-, -, -, -, hrange, -⟩
    omega
  · intro hms
    have hexact := product_exact (durationMS_eq ms) hpos hms hlow hhigh
      (Int.dvd_of_tmod_eq_zero hwhole)
    have hstoredTimeout : stored.resourceRequest.timeout = ms.toInt * Duration.millisecond := by
      rw [hrequest, htimeout]
      exact hexact
    refine ⟨stored, hstored, hstoredTimeout, hpos, ?_, ?_⟩
    · rw [hexact] at hhigh
      exact Int.le_of_mul_le_mul_right hhigh (by decide)
    · show milliseconds stored.resourceRequest.timeout = ms
      rw [hstoredTimeout, milliseconds_exact]

def sampleBody (ms : Int64) : CreateVersionRequest where
  artifactDigest := sampleBlob
  manifestDigest := sampleBlob
  toolchain := sampleVersionInput.toolchain
  resourceRequest := ⟨ms, 64, 1, 1024, 1024⟩
  requestedCapabilities := none

def sampleInput : CreateVersionInput :=
  { sampleVersionInput with requestedCapabilities := some [] }

/-- Both requests reach the controller as one second. -/
theorem sampleBody_input :
    versionInput "function-0" (sampleBody 1000) = .ok sampleInput ∧
      versionInput "function-0" (sampleBody 288230376151712744) = .ok sampleInput :=
  ⟨rfl, rfl⟩

theorem sampleInput_prepare : exec (prepareCreateVersion sampleSources sampleInput)
    (sampleController []) = (.ok samplePrepared,
      { sampleController [] with lastCommand := ⟨7, sampleTime⟩, sources := 7 }) := rfl

theorem sampleInput_commit : exec (applyCreateVersion samplePrepared) (sampleController []).stores =
    (.ok samplePrepared.version,
      ⟨sampleCatalog, sampleUploaded, newRouteStore, newAssignmentStore⟩) := rfl

theorem sampleStores_reachable : (sampleController []).stores.Reachable := by
  have hreach : (controllerMachine sampleSources).Reachable (newSystem 0) _ :=
    Machine.Reachable.init.run sampleCreationMoves
  have hstores : ((controllerMachine sampleSources).run (newSystem 0)
      sampleCreationMoves).controller.stores = (sampleController []).stores := by decide +kernel
  exact hstores ▸ (systemInv_reachable hreach).stores

theorem requested_timeout_sample :
    (1000 : Int64).toInt < 2 ^ 58 ∧ ∃ stored,
      sampleUploaded.versions.get? "version-3" = some stored ∧
      (versionView stored).resourceRequest.timeoutMS = 1000 := by
  have hms : (1000 : Int64).toInt < 2 ^ 58 := by decide
  obtain ⟨stored, hstored, -, -, -, hview⟩ := (requested_timeout sampleSources
    sampleStores_reachable sampleBody_input.1 sampleInput_prepare
    (congrArg Prod.fst sampleInput_commit) []).mpr hms
  rw [sampleInput_commit] at hstored
  exact ⟨hms, stored, hstored, hview⟩

/-- A request for `2^58 + 1000` milliseconds is committed as one second. -/
theorem requested_timeout_wraps :
    versionInput "function-0" (sampleBody 288230376151712744) = .ok sampleInput ∧
      (exec (prepareCreateVersion sampleSources sampleInput) (sampleController [])).1 =
        .ok samplePrepared ∧
      exec (applyCreateVersion samplePrepared) (sampleController []).stores =
        (.ok samplePrepared.version,
          ⟨sampleCatalog, sampleUploaded, newRouteStore, newAssignmentStore⟩) ∧
      samplePrepared.version.resourceRequest.timeout = 1000 * Duration.millisecond ∧
      (versionView samplePrepared.version).resourceRequest.timeoutMS = 1000 :=
  ⟨sampleBody_input.2, congrArg Prod.fst sampleInput_prepare, sampleInput_commit, rfl, by decide⟩

end MiniCloud.ManagementHttp
