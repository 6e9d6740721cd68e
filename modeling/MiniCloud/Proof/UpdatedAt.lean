import MiniCloud.Proof.Revisions

/-!
# Update times

Publishing a Route, consuming a report and cancelling an Assignment compare the command's time
with the stored one. Changing a lifecycle, rotating a token and starting a validation do not: what
validation asks of the new value is only that it is not updated before it was created. So those
three can move `updated_at` back, and they do exactly when the command's time is the earlier one.
-/

namespace MiniCloud.ControlPlane

open Lib Problem Digest Model

/-- Every stored resource is still stored, updated no earlier. -/
def NeverBack (s s' : Stores) : Prop :=
  ∀ ref x, s.find ref = some x →
    ∃ x', s'.find ref = some x' ∧ x.updatedAt.instant ≤ x'.updatedAt.instant

/-- The command is not one of the three that would move an update time back: a lifecycle change,
a rotation or a validation start that is in turn, with a time before the stored one. -/
def Timely (s : Stores) : Command → Prop
  | .setFunctionLifecycle command => ∀ f,
    s.catalog.functionsByID.get? command.functionID = some f →
    f.resourceRevision = command.expectedResourceRevision → f.lifecycle ≠ command.lifecycle →
    f.updatedAt.instant ≤ command.updatedAt.instant
  | .rotateInvocationToken command => ∀ tid t,
    s.catalog.triggerIDByFunc.get? command.functionID = some tid →
    s.catalog.triggersByID.get? tid = some t →
    t.resourceRevision = command.expectedResourceRevision →
    t.tokenVerifierDigest ≠ some command.tokenVerifierDigest →
    t.updatedAt.instant ≤ command.updatedAt.instant
  | .startValidation command => ∀ v,
    s.releases.versions.get? command.versionID = some v →
    v.resourceRevision = command.expectedResourceRevision → v.state = .uploaded →
    v.updatedAt.instant ≤ command.updatedAt.instant
  | _ => True

theorem neverBack_refl (s : Stores) : NeverBack s s := fun _ x hx => ⟨x, hx, le_refl _⟩

variable {s s' : Stores} {command : Command} {reply : Reply}

section

variable (hr : s.Reachable) (hc : Commit s command reply s')
include hr hc

/-- An update moves the one time it writes. -/
theorem neverBack_update (hu : command.isUpdate = true) {ref : ResourceRef} {x x' : Resource}
    (hup : command.updates s = some ref) (hupd : Updated s s' ref x x') :
    NeverBack s s' ↔ x.updatedAt.instant ≤ x'.updatedAt.instant := by
  constructor
  · intro h
    obtain ⟨y, hy, hle⟩ := h ref x hupd.before
    obtain rfl : x' = y := Option.some.inj (hupd.after.symm.trans hy)
    exact hle
  · intro hle ref' y hy
    by_cases href : ref' = ref
    · subst href
      obtain rfl : x = y := Option.some.inj (hupd.before.symm.trans hy)
      exact ⟨x', hupd.after, hle⟩
    · refine ⟨y, ?_, le_refl _⟩
      rw [commit_frame hr hc, hy]
      rw [writes_update s hu, hup]
      simpa using href

theorem neverBack_create (hu : command.isUpdate = false) : NeverBack s s' := by
  intro ref x hx
  refine ⟨x, ?_, le_refl _⟩
  rw [commit_frame hr hc, hx]
  intro href
  rw [commit_creates hc hu ref href] at hx
  cases hx

/-- **One commit** moves no time back exactly when the command is timely. -/
theorem neverBack_commit :
    NeverBack s s' ↔ Timely s command := by
  have hcat := catalogInv_reachable hr
  have hrel := releaseInv_reachable hr
  have hcommit := hc
  cases hc with
  | functionCreated | versionCreated | assignmentInstalled =>
    exact iff_of_true (neverBack_create hr hcommit rfl) trivial
  | lifecycleSet command f hc hne hv =>
    have hupd := updated_function (g := relifedFunction f command) hcat hc.found rfl s.routes
      (revision_succ (Function.validate_metadata hv) rfl)
    rw [neverBack_update hr hcommit rfl rfl hupd]
    constructor
    · intro hle f' hf' _ _
      cases hc.found.symm.trans hf'
      exact hle
    · intro h
      exact h f hc.found hc.revision hne
  | tokenRotated command tid t hc =>
    rw [neverBack_update hr hcommit rfl (updates_rotate hc) (updated_trigger hc)]
    constructor
    · intro hle tid' t' htid ht _ _
      obtain rfl : tid = tid' := Option.some.inj (hc.indexed.symm.trans htid)
      obtain rfl : t = t' := Option.some.inj (hc.found.symm.trans ht)
      exact hle
    · intro h
      exact h tid t hc.indexed hc.found hc.revision hc.fresh
  | validationStarted command v hc =>
    rw [neverBack_update hr hcommit rfl rfl (updated_version (progress_start hrel hc) rfl)]
    constructor
    · intro hle v' hv' _ _
      cases hc.found.symm.trans hv'
      exact hle
    · intro h
      exact h v hc.found hc.revision hc.uploaded
  | validationFailed command v hc hrep hv =>
    rw [neverBack_update hr hcommit rfl rfl (updated_version (progress_fail hrel hc hv) rfl)]
    exact iff_of_true hc.later trivial
  | validationPassed command v d hc =>
    rw [neverBack_update hr hcommit rfl rfl (updated_version (progress_pass hrel hc) rfl)]
    exact iff_of_true hc.later trivial
  | routePublished command f hc =>
    have hupd := updated_function (g := routedFunction f command) hcat hc.found rfl
      (s.routes.putRoute (routedFunction f command).id command.route)
      (toNat_succ (succ_ne_zero hc.unexhausted.2))
    rw [neverBack_update hr hcommit rfl rfl hupd]
    exact iff_of_true hc.later trivial
  | assignmentCancelled command r hc =>
    rw [neverBack_update hr hcommit rfl rfl (updated_record hc)]
    exact iff_of_true hc.later trivial

end

/-- One successful command moves no time back exactly when it is timely. -/
theorem neverBack_success (hr : s.Reachable) (hs : Success s command reply s') :
    NeverBack s s' ↔ Timely s command := by
  cases hs with
  | kept command f h heq =>
    refine iff_of_true (neverBack_refl s) ?_
    intro f' hf' _ hne
    cases h.found.symm.trans hf'
    exact absurd heq hne
  | committed _ _ _ hc => exact neverBack_commit hr hc

/--
**When update times never go back.** In every run whose commands are all timely, no step moves the
update time of a stored Function, Trigger, Version or Assignment back. And in every reachable state
a command that succeeds keeps this exactly when it is timely.
-/
theorem updatedAt_never_back (commands : List Command) :
    ((∀ e ∈ storesMachine.events newStores commands, Timely e.pre e.input) →
      ∀ e ∈ storesMachine.events newStores commands, NeverBack e.pre e.post) ∧
    ∀ command reply s',
      storesMachine.step (storesMachine.run newStores commands) command = (.ok reply, s') →
      (NeverBack (storesMachine.run newStores commands) s' ↔
        Timely (storesMachine.run newStores commands) command) := by
  refine ⟨?_, ?_⟩
  · intro htimely e he
    have ht := htimely e he
    obtain ⟨hr, heq⟩ := Machine.event_reachable .init he
    have hpost : e.post = (storesMachine.step e.pre e.input).2 := by
      rw [heq]
      rfl
    rw [hpost]
    rcases step_cases e.pre e.input with ⟨err, hstep⟩ | ⟨reply, s', hstep, hs⟩
    · rw [hstep]
      exact neverBack_refl _
    · rw [hstep]
      exact (neverBack_success hr hs).mpr ht
  · intro command reply s' hstep
    have hr : Stores.Reachable (storesMachine.run newStores commands) :=
      Machine.Reachable.init.run commands
    rcases step_cases (storesMachine.run newStores commands) command with
      ⟨err, hstep'⟩ | ⟨reply', s'', hstep', hs⟩
    · cases hstep.symm.trans hstep'
    · cases hstep.symm.trans hstep'
      exact neverBack_success hr hs

/-! ## A lifecycle change that goes back -/

def sampleMetadata (id : GoString) : Metadata where
  id := id
  ns := Model.defaultNamespace
  createdAt := ⟨1, .utc⟩
  updatedAt := ⟨1, .utc⟩
  createdRaftIndex := 1
  resourceRevision := 1

/-- A new public Function and its Trigger, created at instant 1. -/
def sampleCreate : CreateFunctionCommand where
  ifNoneMatch := true
  appliedIndex := 1
  function := { sampleMetadata "fn-1" with
    name := "hello", description := "", activeRouteRevision := 0, labels := ∅,
    lifecycle := .active }
  trigger := { sampleMetadata "tr-1" with
    functionID := "fn-1", enabled := true, authPolicy := .public, tokenVerifierDigest := none }

/-- Disabled at instant 10, restored at instant 5: both succeed, and the update time is 5. -/
theorem updatedAt_goes_back :
    ¬ ∀ commands command reply s',
      storesMachine.step (storesMachine.run newStores commands) command = (.ok reply, s') →
      NeverBack (storesMachine.run newStores commands) s' := by
  intro h
  have hback := h
    [.createFunction sampleCreate,
      .setFunctionLifecycle ⟨"fn-1", 1, .disabled, ⟨10, .utc⟩, 2⟩]
    (.setFunctionLifecycle ⟨"fn-1", 2, .active, ⟨5, .utc⟩, 3⟩) _ _ rfl
  obtain ⟨x', hx', hle⟩ := hback (.function "fn-1") _ rfl
  obtain rfl := Option.some.inj hx'
  exact absurd hle (by decide)

end MiniCloud.ControlPlane
