import MiniCloud.Proof.Commit

/-!
# Version admission

The admission state of a Version is told by three maps at once: its own `state`, the pending
validation attempts, and the Deployments. `ReleaseInv` ties them together. A Version is only ever
replaced under its own id by one that differs in its state, its validation error, its revision
and its update time (`Progress`), so whatever is computed from the other fields, the policy digest
of its Deployment above all, stays true.
-/

namespace MiniCloud.ControlPlane

open Lib Problem Digest Model

variable {v v' : Version} {s s' : ReleaseStore} {d : Deployment} {k : GoString}
  {command : CompleteValidationCommand}

/-- `v'` is `v` with another admission state, revision and update time. -/
def SameVersion (v v' : Version) : Prop :=
  v' = { v with
    state := v'.state, validationError := v'.validationError,
    resourceRevision := v'.resourceRevision, updatedAt := v'.updatedAt }

/-- The moves of the admission state machine. -/
inductive Admission : VersionState → VersionState → Prop
  | start : Admission .uploaded .validating
  | pass : Admission .validating .ready
  | reject : Admission .validating .failed

/-- The fixed first Deployment of a Version. -/
structure InitialDeployment (d : Deployment) (v : Version) : Prop where
  versionID : d.versionID = v.versionID
  generation : d.generation = 1
  scalingRevision : d.scalingRevision = 1
  replicas : d.desiredReplicas = 1
  phase : d.desiredPhase = .active
  policy : (effectivePolicy v d).digest = .ok d.effectivePolicyDigest

theorem validateInitialDeployment_ok {index : UInt64} {at_ : Time}
    (h : validateInitialDeployment d v index at_ = .ok ()) : InitialDeployment d v := by
  rw [validateInitialDeployment, seq_ok, seq_ok, checks_ok] at h
  obtain ⟨-, hfixed, hdigest⟩ := h
  simp at hfixed
  cases hp : (effectivePolicy v d).digest with
  | error e =>
    rw [hp] at hdigest
    cases hdigest
  | ok digest =>
    rw [hp] at hdigest
    have heq := checks_ok.mp hdigest
    simp at heq
    exact ⟨by tauto, by tauto, by tauto, by tauto, by tauto, by rw [hp, heq]⟩

/-- The policy reads no field that admission changes. -/
theorem InitialDeployment.same (h : InitialDeployment d v) (hs : SameVersion v v') :
    InitialDeployment d v' := by
  rw [hs]
  exact ⟨h.versionID, h.generation, h.scalingRevision, h.replicas, h.phase, h.policy⟩

structure ReleaseInv (s : ReleaseStore) : Prop where
  /-- Versions are valid and filed under their own id. -/
  versions : ∀ k v, s.versions.get? k = some v → v.versionID = k ∧ v.validate = .ok ()
  /-- An attempt is pending exactly for the Validating Versions. -/
  pending : ∀ k, (s.validationIDByVersion.get? k).isSome ↔
    ∃ v, s.versions.get? k = some v ∧ v.state = .validating
  /-- Exactly the Ready Versions are deployed. -/
  deployed : ∀ k, (s.deployments.get? k).isSome ↔
    ∃ v, s.versions.get? k = some v ∧ v.state = .ready
  deployments : ∀ k d v, s.deployments.get? k = some d → s.versions.get? k = some v →
    InitialDeployment d v
  /-- The counter of a Function counts its Versions. -/
  counted : ∀ f, s.versionCount f = s.versions.count fun _ v => v.functionID == f
  bounded : ∀ f, s.versionCount f ≤ defaultMaxVersionsPerFunction

theorem releaseInv_new : ReleaseInv newReleaseStore where
  versions := by intro k v h; cases h
  pending := by
    intro k
    constructor
    · intro h; cases h
    · rintro ⟨v, h, -⟩; cases h
  deployed := by
    intro k
    constructor
    · intro h; cases h
    · rintro ⟨v, h, -⟩; cases h
  deployments := by intro k d v h; cases h
  counted := fun _ => rfl
  bounded := fun _ => Nat.zero_le _

/-! ## Creation -/

structure NewVersion (v : Version) : Prop where
  valid : v.validate = .ok ()
  state : v.state = .uploaded
  id : v.id = v.versionID
  revision : v.resourceRevision = 1

theorem validateCreateVersion_ok {command : CreateVersionCommand}
    (h : validateCreateVersion command = .ok ()) : NewVersion command.version := by
  simp only [validateCreateVersion, seq_ok, checks_ok] at h
  obtain ⟨-, hv, hnew⟩ := h
  simp at hnew
  exact ⟨hv, hnew.1.1, hnew.2.1.1, hnew.2.2.2.2⟩

theorem releaseInv_addVersion {c : Catalog} (h : ReleaseInv s) {command : CreateVersionCommand}
    {f : Function} (hc : CreatesVersion c s command f) :
    ReleaseInv (s.addVersion command.version) := by
  have hnew := validateCreateVersion_ok hc.valid
  have hcount : ∀ g, (s.addVersion command.version).versionCount g =
      s.versionCount g + (command.version.functionID == g).toNat := by
    intro g
    simp only [ReleaseStore.versionCount, ReleaseStore.addVersion, GoMap.get?_set]
    by_cases hg : g = command.version.functionID
    · subst hg
      simp
    · simp [hg, Ne.symm hg]
  refine ⟨?_, ?_, ?_, ?_, ?_, ?_⟩
  · exact GoMap.forall_set h.versions ⟨rfl, hnew.valid⟩
  · intro k
    show (s.validationIDByVersion.get? k).isSome ↔ _
    rw [h.pending, ReleaseStore.addVersion, GoMap.get?_set]
    split_ifs with hk
    · -- nothing was pending under the fresh id, and the new Version is not validating
      subst hk
      simp [hc.newID, hnew.state]
    · rfl
  · intro k
    show (s.deployments.get? k).isSome ↔ _
    rw [h.deployed, ReleaseStore.addVersion, GoMap.get?_set]
    split_ifs with hk
    · subst hk
      simp [hc.newID, hnew.state]
    · rfl
  · intro k d v hd hv
    have hne : k ≠ command.version.versionID := by
      rintro rfl
      obtain ⟨v', hv', -⟩ := (h.deployed _).mp (Option.isSome_iff_exists.mpr ⟨d, hd⟩)
      cases hc.newID.symm.trans hv'
    rw [ReleaseStore.addVersion, GoMap.get?_set_ne _ _ hne] at hv
    exact h.deployments k d v hd hv
  · intro g
    rw [hcount, h.counted, ReleaseStore.addVersion, GoMap.count_set_new _ _ hc.newID]
  · intro g
    rw [hcount]
    by_cases hg : command.version.functionID = g
    · have hroom := hc.room
      rw [hg] at hroom
      simp [hg]
      omega
    · have hb := h.bounded g
      rw [beq_eq_false_iff_ne.mpr hg]
      exact hb

/-! ## Progress -/

/-- One Version replaced by a later form of itself, with its attempt and Deployment to match. -/
structure Progress (s s' : ReleaseStore) (k : GoString) (v v' : Version) : Prop where
  found : s.versions.get? k = some v
  same : SameVersion v v'
  valid : v'.validate = .ok ()
  admission : Admission v.state v'.state
  versions : s'.versions = s.versions.set k v'
  counts : s'.versionCountByFunc = s.versionCountByFunc
  otherPending : ∀ k', k' ≠ k →
    s'.validationIDByVersion.get? k' = s.validationIDByVersion.get? k'
  pending : (s'.validationIDByVersion.get? k).isSome ↔ v'.state = .validating
  otherDeployed : ∀ k', k' ≠ k → s'.deployments.get? k' = s.deployments.get? k'
  deployed : (s'.deployments.get? k).isSome ↔ v'.state = .ready
  deployment : ∀ d, s'.deployments.get? k = some d → InitialDeployment d v'

section

variable (h : ReleaseInv s)
include h

theorem releaseInv_progress (hp : Progress s s' k v v') : ReleaseInv s' := by
  have hid : v'.versionID = k := by
    rw [hp.same]
    exact (h.versions k v hp.found).1
  have hfun : v'.functionID = v.functionID := by rw [hp.same]
  have hget : ∀ k', s'.versions.get? k' = if k' = k then some v' else s.versions.get? k' := by
    intro k'
    rw [hp.versions, GoMap.get?_set]
  have hcount : ∀ g, s'.versionCount g = s.versionCount g := by
    intro g
    rw [ReleaseStore.versionCount, hp.counts, ReleaseStore.versionCount]
  refine ⟨?_, ?_, ?_, ?_, ?_, ?_⟩
  · rw [hp.versions]
    exact GoMap.forall_set h.versions ⟨hid, hp.valid⟩
  · intro k'
    rw [hget]
    split_ifs with hk
    · subst hk
      simpa using hp.pending
    · rw [hp.otherPending k' hk]
      exact h.pending k'
  · intro k'
    rw [hget]
    split_ifs with hk
    · subst hk
      simpa using hp.deployed
    · rw [hp.otherDeployed k' hk]
      exact h.deployed k'
  · intro k' d w hd hw
    rw [hget] at hw
    split_ifs at hw with hk
    · subst hk
      cases hw
      exact hp.deployment d hd
    · rw [hp.otherDeployed k' hk] at hd
      exact h.deployments k' d w hd hw
  · intro g
    have hold := GoMap.count_set_old (fun _ w => w.functionID == g) v' hp.found
    simp only [hfun] at hold
    rw [hcount, h.counted, hp.versions]
    omega
  · intro g
    rw [hcount]
    exact h.bounded g

/-- A Version that is not Ready has no Deployment yet. -/
theorem ReleaseInv.undeployed {k : GoString} (hfound : s.versions.get? k = some v)
    (hstate : v.state ≠ .ready) : s.deployments.get? k = none := by
  rw [← Option.not_isSome_iff_eq_none, h.deployed]
  rintro ⟨w, hw, hready⟩
  cases hfound.symm.trans hw
  exact hstate hready

theorem progress_start {command : StartValidationCommand} (hc : StartsValidation s command v) :
    Progress s (s.startVersion (startedVersion v command) command.validationID)
      command.versionID v (startedVersion v command) := by
  have hid : (startedVersion v command).versionID = command.versionID :=
    (h.versions _ v hc.found).1
  have hnone := h.undeployed hc.found (by simp [hc.uploaded])
  refine ⟨hc.found, rfl, hc.accepted, ?_, by rw [ReleaseStore.startVersion, hid], rfl, ?_, ?_,
    fun _ _ => rfl, ?_, ?_⟩
  · rw [hc.uploaded]
    exact .start
  · intro k' hk
    rw [ReleaseStore.startVersion, hid, GoMap.get?_set_ne _ _ hk]
  · rw [ReleaseStore.startVersion, hid]
    simp [startedVersion]
  · simp [ReleaseStore.startVersion, hnone, startedVersion]
  · intro d hd
    rw [ReleaseStore.startVersion, hnone] at hd
    cases hd

theorem progress_fail (hc : ConsumesReport s command v)
    (hv : (failedVersion v command).validate = .ok ()) :
    Progress s (s.failVersion (failedVersion v command)) command.versionID v
      (failedVersion v command) := by
  have hid : (failedVersion v command).versionID = command.versionID :=
    (h.versions _ v hc.found).1
  have hnone := h.undeployed hc.found (by simp [hc.validating])
  refine ⟨hc.found, rfl, hv, ?_, by rw [ReleaseStore.failVersion, hid], rfl, ?_, ?_,
    fun _ _ => rfl, ?_, ?_⟩
  · rw [hc.validating]
    exact .reject
  · intro k' hk
    rw [ReleaseStore.failVersion, hid, GoMap.get?_delete_ne _ hk]
  · rw [ReleaseStore.failVersion, hid]
    simp [failedVersion]
  · simp [ReleaseStore.failVersion, hnone, failedVersion]
  · intro d hd
    rw [ReleaseStore.failVersion, hnone] at hd
    cases hd

theorem progress_pass (hc : AdmitsVersion s command v d) :
    Progress s (s.admitVersion (readyVersion v command) d) command.versionID v
      (readyVersion v command) := by
  have hid : (readyVersion v command).versionID = command.versionID :=
    (h.versions _ v hc.found).1
  refine ⟨hc.found, rfl, hc.accepted, ?_, by rw [ReleaseStore.admitVersion, hid], rfl, ?_, ?_,
    ?_, ?_, ?_⟩
  · rw [hc.validating]
    exact .pass
  · intro k' hk
    rw [ReleaseStore.admitVersion, hid, GoMap.get?_delete_ne _ hk]
  · rw [ReleaseStore.admitVersion, hid]
    simp [readyVersion]
  · intro k' hk
    rw [ReleaseStore.admitVersion, hid, GoMap.get?_set_ne _ _ hk]
  · rw [ReleaseStore.admitVersion, hid]
    simp [readyVersion]
  · intro d' hd
    rw [ReleaseStore.admitVersion, hid, GoMap.get?_set_self] at hd
    cases hd
    exact (validateInitialDeployment_ok hc.initial).same rfl

end

/-! ## Runs -/

/-- What a commit does to the releases. -/
inductive ReleaseStep (s s' : ReleaseStore) : Prop
  | same (h : s' = s)
  | created (v : Version) (hv : NewVersion v) (hnew : s.versions.get? v.versionID = none)
      (h : s' = s.addVersion v)
  | progress (k : GoString) (v v' : Version) (h : Progress s s' k v v')

theorem releaseStep {s s' : Stores} {command : Command} {reply : Reply}
    (hc : Commit s command reply s') (h : ReleaseInv s.releases) :
    ReleaseInv s'.releases ∧ ReleaseStep s.releases s'.releases := by
  cases hc with
  | versionCreated command f hc =>
    exact ⟨releaseInv_addVersion h hc,
      .created _ (validateCreateVersion_ok hc.valid) hc.newID rfl⟩
  | validationStarted command v hc =>
    have hp := progress_start h hc
    exact ⟨releaseInv_progress h hp, .progress _ _ _ hp⟩
  | validationFailed command v hc hr hv =>
    have hp := progress_fail h hc hv
    exact ⟨releaseInv_progress h hp, .progress _ _ _ hp⟩
  | validationPassed command v d hc =>
    have hp := progress_pass h hc
    exact ⟨releaseInv_progress h hp, .progress _ _ _ hp⟩
  | _ => exact ⟨h, .same rfl⟩

theorem releaseInv_reachable {s : Stores} (h : s.Reachable) : ReleaseInv s.releases :=
  Stores.invariant (P := fun s => ReleaseInv s.releases) releaseInv_new
    (fun _ _ _ _ _ ih hc => (releaseStep hc ih).1) h

/-- A stored Version survives every commit, at most one admission step further. -/
theorem ReleaseStep.version (h : ReleaseStep s s') (hv : s.versions.get? k = some v) :
    ∃ v', s'.versions.get? k = some v' ∧ SameVersion v v' ∧
      (v' = v ∨ Admission v.state v'.state) := by
  cases h with
  | same h => exact ⟨v, by rw [h, hv], rfl, .inl rfl⟩
  | created w hw hnew h =>
    exact ⟨v, by rw [h]; exact GoMap.get?_set_new hnew hv, rfl, .inl rfl⟩
  | progress k₀ w w' hp =>
    by_cases hk : k = k₀
    · subst hk
      cases hp.found.symm.trans hv
      exact ⟨w', by rw [hp.versions, GoMap.get?_set_self], hp.same, .inr hp.admission⟩
    · exact ⟨v, by rw [hp.versions, GoMap.get?_set_ne _ _ hk, hv], rfl, .inl rfl⟩

/-- The Deployment of a Ready Version stays. -/
theorem ReleaseStep.deployment (h : ReleaseStep s s') (hv : s.versions.get? k = some v)
    (hready : v.state = .ready) (hd : s.deployments.get? k = some d) :
    s'.deployments.get? k = some d := by
  cases h with
  | same h => rw [h, hd]
  | created w hw hnew h => rw [h, ReleaseStore.addVersion, hd]
  | progress k₀ w w' hp =>
    rw [hp.otherDeployed, hd]
    rintro rfl
    -- the machine has no step out of Ready
    cases hp.found.symm.trans hv
    have hadm := hp.admission
    rw [hready] at hadm
    cases hadm

/-- A Version that was not there before is Uploaded. -/
theorem ReleaseStep.fresh (h : ReleaseStep s s') (hold : s.versions.get? k = none)
    (hv : s'.versions.get? k = some v') : NewVersion v' := by
  cases h with
  | same h =>
    rw [h, hold] at hv
    cases hv
  | created w hw hnew h =>
    rw [h] at hv
    rcases GoMap.get?_set_cases hv with ⟨-, rfl⟩ | ⟨-, hv⟩
    · exact hw
    · cases hold.symm.trans hv
  | progress k₀ w w' hp =>
    rw [hp.versions] at hv
    rcases GoMap.get?_set_cases hv with ⟨rfl, -⟩ | ⟨-, hv⟩
    · cases hold.symm.trans hp.found
    · cases hold.symm.trans hv

theorem releaseStep_reachable {s : Stores} (h : s.Reachable) (command : Command) :
    ReleaseStep s.releases (storesMachine.step s command).2.releases := by
  rcases step_commit s command with hsame | ⟨reply, s', he, hc⟩
  · exact .same (by rw [hsame])
  · rw [he]
    exact (releaseStep hc (releaseInv_reachable h)).2

/-- A report for another attempt, or at another revision, is refused. -/
theorem stale_report {s : Stores} (h : s.Reachable)
    (hstale : s.releases.validationIDByVersion.get? command.versionID ≠
        some command.report.validationID ∨
      ∀ v, s.releases.versions.get? command.versionID = some v →
        v.resourceRevision ≠ command.expectedResourceRevision) :
    ∃ e, storesMachine.step s (.completeValidation command) = (.error e, s) := by
  have hinv := releaseInv_reachable h
  have hno : ∀ v, ¬ ConsumesReport s.releases command v := by
    intro v hc
    rcases hstale with hid | hrev
    · obtain ⟨id, hpending⟩ := Option.isSome_iff_exists.mp
        ((hinv.pending command.versionID).mpr ⟨v, hc.found, hc.validating⟩)
      have hcur := hc.current
      rw [(hinv.versions _ v hc.found).1, hpending] at hcur
      exact hid (by rw [hpending, ← hcur]; rfl)
    · exact hrev v hc.found hc.revision
  rcases step_cases s (.completeValidation command) with herr | ⟨reply, s', -, hs⟩
  · exact herr
  · cases hs with
    | committed _ _ _ hc =>
      cases hc with
      | validationFailed _ v hc => exact absurd hc (hno v)
      | validationPassed _ v d hc => exact absurd hc.toConsumesReport (hno v)

/--
**Version admission.** After every sequence of commands: a pending attempt, a Deployment and a
validation error stand exactly with the Validating, Ready and Failed Versions; one more command
changes a Version by at most one step of the admission machine and leaves its other fields alone;
the counters are exact and bounded; a stale report changes nothing; and the policy digest of a
Deployment is that of the policy its Version has under it.
-/
theorem version_admission (commands : List Command) :
    let s := storesMachine.run newStores commands
    let r := s.releases
    (∀ k v, r.versions.get? k = some v → v.versionID = k ∧
      ((r.validationIDByVersion.get? k).isSome ↔ v.state = .validating) ∧
      ((r.deployments.get? k).isSome ↔ v.state = .ready) ∧
      (v.validationError.isSome ↔ v.state = .failed)) ∧
    (∀ k, r.versions.get? k = none →
      r.validationIDByVersion.get? k = none ∧ r.deployments.get? k = none) ∧
    (∀ command, let r' := (storesMachine.step s command).2.releases
      (∀ k v, r.versions.get? k = some v → ∃ v', r'.versions.get? k = some v' ∧
        SameVersion v v' ∧ (v' = v ∨ Admission v.state v'.state)) ∧
      (∀ k v', r.versions.get? k = none → r'.versions.get? k = some v' →
        v'.state = .uploaded)) ∧
    (∀ f, r.versionCount f = r.versions.count (fun _ v => v.functionID == f) ∧
      r.versionCount f ≤ defaultMaxVersionsPerFunction) ∧
    (∀ command : CompleteValidationCommand,
      (r.validationIDByVersion.get? command.versionID ≠ some command.report.validationID ∨
        ∀ v, r.versions.get? command.versionID = some v →
          v.resourceRevision ≠ command.expectedResourceRevision) →
      ∃ e, storesMachine.step s (.completeValidation command) = (.error e, s)) ∧
    (∀ k d, r.deployments.get? k = some d → ∃ v, r.versions.get? k = some v ∧
      (effectivePolicy v d).digest = .ok d.effectivePolicyDigest) := by
  intro s r
  have hr : s.Reachable := Machine.Reachable.init.run commands
  have h : ReleaseInv r := releaseInv_reachable hr
  refine ⟨?_, ?_, ?_, fun f => ⟨h.counted f, h.bounded f⟩, fun command => stale_report hr, ?_⟩
  · intro k v hv
    obtain ⟨hid, hval⟩ := h.versions k v hv
    refine ⟨hid, ?_, ?_, Version.validationError_iff hval⟩
    · rw [h.pending, hv]
      simp
    · rw [h.deployed, hv]
      simp
  · intro k hk
    rw [← Option.not_isSome_iff_eq_none, ← Option.not_isSome_iff_eq_none, h.pending, h.deployed, hk]
    simp
  · intro command r'
    have hstep := releaseStep_reachable hr command
    exact ⟨fun k v hv => hstep.version hv, fun k v' hold hv => (hstep.fresh hold hv).state⟩
  · intro k d hd
    obtain ⟨v, hv, -⟩ := (h.deployed k).mp (Option.isSome_iff_exists.mpr ⟨d, hd⟩)
    exact ⟨v, hv, (h.deployments k d v hd hv).policy⟩

end MiniCloud.ControlPlane
