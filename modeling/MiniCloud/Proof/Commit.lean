import MiniCloud.ControlPlane.Stores
import MiniCloud.Lib.Words

/-!
# What a command can do

Every command either answers with an error and leaves the four stores as they were, or commits.
`Commit` lists the ways to commit, one per command (two for a consumed validation report), each
with the checks it passed and the stores it leaves. Everything proved about runs of commands is
proved by cases on `Commit`; no proof after this file unfolds a store method.
-/

namespace MiniCloud.ControlPlane

open Lib Problem Digest Model
open Op (Atomic)

/-! ## The stores after a commit -/

def Catalog.addFunction (c : Catalog) (function : Function) (trigger : HTTPTrigger) : Catalog where
  functionsByID := c.functionsByID.set function.id function
  functionIDByName := c.functionIDByName.set function.name function.id
  triggersByID := c.triggersByID.set trigger.id trigger
  triggerIDByFunc := c.triggerIDByFunc.set function.id trigger.id

def Catalog.putFunction (c : Catalog) (function : Function) : Catalog :=
  { c with functionsByID := c.functionsByID.set function.id function }

def Catalog.putTrigger (c : Catalog) (triggerID : GoString) (trigger : HTTPTrigger) : Catalog :=
  { c with triggersByID := c.triggersByID.set triggerID trigger }

def ReleaseStore.addVersion (s : ReleaseStore) (version : Version) : ReleaseStore :=
  { s with
    versions := s.versions.set version.versionID version
    versionCountByFunc := s.versionCountByFunc.set version.functionID
      (s.versionCount version.functionID + 1) }

def ReleaseStore.startVersion (s : ReleaseStore) (version : Version) (validationID : GoString) :
    ReleaseStore :=
  { s with
    versions := s.versions.set version.versionID version
    validationIDByVersion := s.validationIDByVersion.set version.versionID validationID }

def ReleaseStore.failVersion (s : ReleaseStore) (version : Version) : ReleaseStore :=
  { s with
    versions := s.versions.set version.versionID version
    validationIDByVersion := s.validationIDByVersion.delete version.versionID }

def ReleaseStore.admitVersion (s : ReleaseStore) (version : Version) (deployment : Deployment) :
    ReleaseStore :=
  { s with
    versions := s.versions.set version.versionID version
    deployments := s.deployments.set version.versionID deployment
    validationIDByVersion := s.validationIDByVersion.delete version.versionID }

def RouteStore.putRoute (s : RouteStore) (functionID : GoString) (route : Route) : RouteStore where
  routes := s.routes.set functionID route
  routeIDs := s.routeIDs.set route.id ()

def AssignmentStore.addRecord (s : AssignmentStore) (command : InstallAssignmentCommand)
    (target : AssignmentTarget) : AssignmentStore :=
  { s with
    records := s.records.set command.placement.assignmentID (candidateRecord command)
    activeCounts := s.activeCounts.set target (s.activeCount target + 1) }

def AssignmentStore.cancelRecord (s : AssignmentStore) (command : CancelAssignmentCommand)
    (record : AssignmentRecord) : AssignmentStore :=
  { s with
    records := s.records.set command.assignmentID (cancelledRecord record command)
    activeCounts := s.activeCounts.set (assignmentTargetForRecord record)
      (s.activeCount (assignmentTargetForRecord record) - 1) }

/-! ## The checks a commit passed -/

structure CreatesFunction (c : Catalog) (command : CreateFunctionCommand) : Prop where
  valid : validateCreateFunction command = .ok ()
  newID : c.functionsByID.get? command.function.id = none
  newName : c.functionIDByName.get? command.function.name = none
  newTrigger : c.triggersByID.get? command.trigger.id = none
  untriggered : c.triggerIDByFunc.get? command.function.id = none
  room : c.functionsByID.len < defaultMaxFunctions

structure ChangesLifecycle (c : Catalog) (command : SetFunctionLifecycleCommand)
    (function : Function) : Prop where
  valid : validateLifecycleCommand command = .ok ()
  found : c.functionsByID.get? command.functionID = some function
  revision : function.resourceRevision = command.expectedResourceRevision
  changeable : function.lifecycle = .active ∨ function.lifecycle = .disabled

structure RotatesToken (c : Catalog) (command : RotateInvocationTokenCommand)
    (triggerID : GoString) (trigger : HTTPTrigger) : Prop where
  valid : validateRotateInvocationToken command = .ok ()
  indexed : c.triggerIDByFunc.get? command.functionID = some triggerID
  found : c.triggersByID.get? triggerID = some trigger
  revision : trigger.resourceRevision = command.expectedResourceRevision
  policy : trigger.authPolicy = .token
  fresh : trigger.tokenVerifierDigest ≠ some command.tokenVerifierDigest
  accepted : (rotatedTrigger trigger command).validate = .ok ()

structure CreatesVersion (c : Catalog) (s : ReleaseStore) (command : CreateVersionCommand)
    (function : Function) : Prop where
  valid : validateCreateVersion command = .ok ()
  parent : c.functionsByID.get? command.version.functionID = some function
  newID : s.versions.get? command.version.versionID = none
  room : s.versionCount command.version.functionID < defaultMaxVersionsPerFunction

structure StartsValidation (s : ReleaseStore) (command : StartValidationCommand)
    (version : Version) : Prop where
  valid : validateStartValidation command = .ok ()
  found : s.versions.get? command.versionID = some version
  revision : version.resourceRevision = command.expectedResourceRevision
  uploaded : version.state = .uploaded
  accepted : (startedVersion version command).validate = .ok ()

/-- What both ways of consuming a report have passed. -/
structure ConsumesReport (s : ReleaseStore) (command : CompleteValidationCommand)
    (version : Version) : Prop where
  valid : validateCompleteValidation command = .ok ()
  found : s.versions.get? command.versionID = some version
  revision : version.resourceRevision = command.expectedResourceRevision
  validating : version.state = .validating
  current : (s.validationIDByVersion.get? version.versionID).getD "" = command.report.validationID
  report : validateReportForVersion command.report version = .ok ()
  later : version.updatedAt.instant ≤ command.updatedAt.instant

structure AdmitsVersion (s : ReleaseStore) (command : CompleteValidationCommand)
    (version : Version) (deployment : Deployment) : Prop extends
    ConsumesReport s command version where
  passed : command.report.valid = true
  carried : command.deployment = some deployment
  initial : validateInitialDeployment deployment
    { version with
      updatedAt := command.updatedAt
      resourceRevision := version.resourceRevision + 1 }
    command.appliedIndex command.updatedAt = .ok ()
  accepted : (readyVersion version command).validate = .ok ()

structure PublishesRoute (c : Catalog) (releases : ReleaseStore) (s : RouteStore)
    (command : PublishRouteCommand) (function : Function) : Prop where
  valid : validatePublishRoute command = .ok ()
  found : c.functionsByID.get? command.functionID = some function
  expected : command.expectedActiveRouteRevision = function.activeRouteRevision
  unexhausted : function.activeRouteRevision ≠ maxUint64 ∧ function.resourceRevision ≠ maxUint64
  revision : command.route.routeRevision = function.activeRouteRevision + 1
  later : function.updatedAt.instant ≤ command.updatedAt.instant
  unused : s.routeIDs.get? command.route.id = none
  active : command.route.enabled = true → function.lifecycle = .active
  target : command.route.enabled = true →
    validateReadyTargetLocked releases command.route function = .ok ()
  accepted : (routedFunction function command).validate = .ok ()

structure InstallsAssignment (stores : Stores) (command : InstallAssignmentCommand)
    (target : RouteTarget) (deployment : Deployment) : Prop where
  valid : validateInstallAssignment command = .ok ()
  unused : stores.assignments.records.get? command.placement.assignmentID = none
  room : stores.assignments.records.len < stores.assignments.maxAssignments
  placement : validatePlacementLocked stores.catalog stores.releases stores.routes command =
    .ok (target, deployment)
  scaling : command.expectedScalingRevision = deployment.scalingRevision
  wanted : stores.assignments.activeCount (assignmentTargetFor command.functionID target) <
    deployment.desiredReplicas

structure CancelsAssignment (s : AssignmentStore) (command : CancelAssignmentCommand)
    (record : AssignmentRecord) : Prop where
  valid : validateCancelAssignment command = .ok ()
  found : s.records.get? command.assignmentID = some record
  revision : record.resourceRevision = command.expectedResourceRevision
  assigned : record.desiredState = .assigned
  later : record.updatedAt.instant ≤ command.updatedAt.instant
  advances : record.lastAppliedIndex < command.appliedIndex
  unexhausted : record.resourceRevision ≠ maxUint64
  counted : s.activeCount (assignmentTargetForRecord record) ≠ 0

/-- **The ways to commit.** -/
inductive Commit (s : Stores) : Command → Reply → Stores → Prop
  | functionCreated (command : CreateFunctionCommand) (h : CreatesFunction s.catalog command) :
      Commit s (.createFunction command) (.created ⟨[command.function], [command.trigger]⟩)
        { s with catalog := s.catalog.addFunction command.function command.trigger }
  | lifecycleSet (command : SetFunctionLifecycleCommand) (function : Function)
      (h : ChangesLifecycle s.catalog command function) (hne : function.lifecycle ≠ command.lifecycle)
      (hv : (relifedFunction function command).validate = .ok ()) :
      Commit s (.setFunctionLifecycle command) (.function (relifedFunction function command))
        { s with catalog := s.catalog.putFunction (relifedFunction function command) }
  | tokenRotated (command : RotateInvocationTokenCommand) (triggerID : GoString)
      (trigger : HTTPTrigger) (h : RotatesToken s.catalog command triggerID trigger) :
      Commit s (.rotateInvocationToken command) (.trigger (rotatedTrigger trigger command))
        { s with catalog := s.catalog.putTrigger triggerID (rotatedTrigger trigger command) }
  | versionCreated (command : CreateVersionCommand) (function : Function)
      (h : CreatesVersion s.catalog s.releases command function) :
      Commit s (.createVersion command) (.version command.version)
        { s with releases := s.releases.addVersion command.version }
  | validationStarted (command : StartValidationCommand) (version : Version)
      (h : StartsValidation s.releases command version) :
      Commit s (.startValidation command) (.version (startedVersion version command))
        { s with releases :=
            s.releases.startVersion (startedVersion version command) command.validationID }
  | validationFailed (command : CompleteValidationCommand) (version : Version)
      (h : ConsumesReport s.releases command version) (hr : command.report.valid = false)
      (hv : (failedVersion version command).validate = .ok ()) :
      Commit s (.completeValidation command) (.admitted (failedVersion version command) none)
        { s with releases := s.releases.failVersion (failedVersion version command) }
  | validationPassed (command : CompleteValidationCommand) (version : Version)
      (deployment : Deployment) (h : AdmitsVersion s.releases command version deployment) :
      Commit s (.completeValidation command)
        (.admitted (readyVersion version command) (some deployment))
        { s with releases := s.releases.admitVersion (readyVersion version command) deployment }
  | routePublished (command : PublishRouteCommand) (function : Function)
      (h : PublishesRoute s.catalog s.releases s.routes command function) :
      Commit s (.publishRoute command)
        (.published command.route (routedFunction function command))
        { s with
          catalog := s.catalog.putFunction (routedFunction function command)
          routes := s.routes.putRoute (routedFunction function command).id command.route }
  | assignmentInstalled (command : InstallAssignmentCommand) (target : RouteTarget)
      (deployment : Deployment) (h : InstallsAssignment s command target deployment) :
      Commit s (.installAssignment command) (.assignment (candidateRecord command))
        { s with assignments :=
            s.assignments.addRecord command (assignmentTargetFor command.functionID target) }
  | assignmentCancelled (command : CancelAssignmentCommand) (record : AssignmentRecord)
      (h : CancelsAssignment s.assignments command record) :
      Commit s (.cancelAssignment command) (.assignment (cancelledRecord record command))
        { s with assignments := s.assignments.cancelRecord command record }

/-- What a command that succeeds has done. -/
inductive Success (s : Stores) : Command → Reply → Stores → Prop
  /-- The Function already has the lifecycle asked for. -/
  | kept (command : SetFunctionLifecycleCommand) (function : Function)
      (h : ChangesLifecycle s.catalog command function)
      (heq : function.lifecycle = command.lifecycle) :
      Success s (.setFunctionLifecycle command) (.function function) s
  | committed (command : Command) (reply : Reply) (s' : Stores) (h : Commit s command reply s') :
      Success s command reply s'

/-! ## The methods -/

theorem atomic_createFunction (c : Catalog) (command : CreateFunctionCommand) :
    Atomic (Catalog.createFunction command) c fun reply c' =>
      CreatesFunction c command ∧ reply = ⟨[command.function], [command.trigger]⟩ ∧
        c' = c.addFunction command.function command.trigger := by
  refine .ofExcept_bind fun _ hv => .get_bind ?_
  refine .failIf_bind fun hid => .failIf_bind fun hname => .failIf_bind fun htrigger => ?_
  refine .failIf_bind fun hun => .failIf_bind fun hroom => .set_ret ⟨⟨hv, ?_, ?_, ?_, ?_, ?_⟩, rfl, rfl⟩
  · simpa using hid
  · simpa using hname
  · simpa using htrigger
  · simpa using hun
  · simpa using hroom

theorem atomic_setFunctionLifecycle (c : Catalog) (command : SetFunctionLifecycleCommand) :
    Atomic (Catalog.setFunctionLifecycle command) c fun reply c' =>
      ∃ function, ChangesLifecycle c command function ∧
        ((function.lifecycle = command.lifecycle ∧ reply = function ∧ c' = c) ∨
          (function.lifecycle ≠ command.lifecycle ∧
            (relifedFunction function command).validate = .ok () ∧
            reply = relifedFunction function command ∧
            c' = c.putFunction (relifedFunction function command))) := by
  refine .ofExcept_bind fun _ hv => .get_bind (.orFail_bind fun function hf => ?_)
  refine .failIf_bind fun hrev => .failIf_bind fun hlife => ?_
  have hc : ChangesLifecycle c command function := by
    refine ⟨hv, hf, by simpa using hrev, ?_⟩
    simp only [Bool.and_eq_false_iff, bne_eq_false_iff_eq] at hlife
    exact hlife
  split_ifs with hsame
  · exact .ret ⟨function, hc, .inl ⟨hsame, rfl, rfl⟩⟩
  · refine .ofExcept_bind fun _ hval => .set_ret ?_
    exact ⟨function, hc, .inr ⟨hsame, wrapping_ok.mp hval, rfl, rfl⟩⟩

theorem atomic_rotateInvocationToken (c : Catalog) (command : RotateInvocationTokenCommand) :
    Atomic (Catalog.rotateInvocationToken command) c fun reply c' =>
      ∃ triggerID trigger, RotatesToken c command triggerID trigger ∧
        reply = rotatedTrigger trigger command ∧
        c' = c.putTrigger triggerID (rotatedTrigger trigger command) := by
  refine .ofExcept_bind fun _ hv => .get_bind (.orFail_bind fun triggerID hid => ?_)
  refine .orFail_bind fun trigger ht => .failIf_bind fun hrev => .failIf_bind fun hpol => ?_
  refine .failIf_bind fun hfresh => .ofExcept_bind fun _ hval => .set_ret ?_
  refine ⟨triggerID, trigger, ⟨hv, hid, ht, ?_, ?_, ?_, wrapping_ok.mp hval⟩, rfl, rfl⟩
  · simpa using hrev
  · simpa using hpol
  · simpa using hfresh

theorem getFunction_ok {c : Catalog} {functionID : GoString} {function : Function}
    {trigger : HTTPTrigger} (h : c.getFunction functionID = .ok (function, trigger)) :
    identifierPattern functionID = true ∧ c.functionsByID.get? functionID = some function ∧
      c.triggersByID.get? ((c.triggerIDByFunc.get? functionID).getD "") = some trigger := by
  rw [Catalog.getFunction] at h
  cases hid : identifierPattern functionID with
  | false =>
    rw [hid] at h
    cases h
  | true =>
    rw [hid] at h
    cases hf : c.functionsByID.get? functionID with
    | none =>
      rw [hf] at h
      cases h
    | some f =>
      rw [hf] at h
      cases ht : c.triggersByID.get? ((c.triggerIDByFunc.get? functionID).getD "") with
      | none =>
        simp only [ht] at h
        cases h
      | some t =>
        simp only [ht] at h
        cases h
        exact ⟨rfl, rfl, rfl⟩

theorem atomic_createVersion (c : Catalog) (s : ReleaseStore) (command : CreateVersionCommand) :
    Atomic (ReleaseStore.createVersion c command) s fun reply s' =>
      ∃ function, CreatesVersion c s command function ∧ reply = command.version ∧
        s' = s.addVersion command.version := by
  refine .ofExcept_bind fun _ hv => .ofExcept_bind fun parent hp => ?_
  refine .failIf_bind fun _ => .get_bind (.failIf_bind fun hid => .failIf_bind fun hroom => ?_)
  refine .set_ret ⟨parent.1, ⟨hv, (getFunction_ok (wrapping_ok.mp hp)).2.1, ?_, ?_⟩, rfl, rfl⟩
  · simpa using hid
  · simpa using hroom

theorem atomic_startValidation (s : ReleaseStore) (command : StartValidationCommand) :
    Atomic (ReleaseStore.startValidation command) s fun reply s' =>
      ∃ version, StartsValidation s command version ∧ reply = startedVersion version command ∧
        s' = s.startVersion (startedVersion version command) command.validationID := by
  refine .ofExcept_bind fun _ hv => .get_bind (.orFail_bind fun version hf => ?_)
  refine .failIf_bind fun hrev => .failIf_bind fun hstate => ?_
  refine .ofExcept_bind fun _ hval => .set_ret ⟨version, ⟨hv, hf, ?_, ?_, wrapping_ok.mp hval⟩, rfl, rfl⟩
  · simpa using hrev
  · simpa using hstate

theorem atomic_completeValidation (s : ReleaseStore) (command : CompleteValidationCommand) :
    Atomic (ReleaseStore.completeValidation command) s fun reply s' =>
      ∃ version,
        (ConsumesReport s command version ∧ command.report.valid = false ∧
          (failedVersion version command).validate = .ok () ∧
          reply = (failedVersion version command, none) ∧
          s' = s.failVersion (failedVersion version command)) ∨
        ∃ deployment, AdmitsVersion s command version deployment ∧
          reply = (readyVersion version command, some deployment) ∧
          s' = s.admitVersion (readyVersion version command) deployment := by
  refine .ofExcept_bind fun _ hv => .get_bind (.orFail_bind fun version hf => ?_)
  refine .failIf_bind fun hrev => .failIf_bind fun hstate => .failIf_bind fun hcur => ?_
  refine .ofExcept_bind fun _ hrep => .failIf_bind fun hlater => ?_
  have hc : ConsumesReport s command version := by
    refine ⟨hv, hf, ?_, ?_, ?_, hrep, Time.before_eq_false.mp hlater⟩
    · simpa using hrev
    · simpa using hstate
    · simpa using hcur
  split_ifs with hvalid
  · refine .ofExcept_bind fun _ hval => .set_ret ?_
    exact ⟨version, .inl ⟨hc, by simpa using hvalid, wrapping_ok.mp hval, rfl, rfl⟩⟩
  · refine .orFail_bind fun deployment hd => .ofExcept_bind fun _ hinit => ?_
    refine .ofExcept_bind fun _ hval => .set_ret ⟨version, .inr ⟨deployment, ?_, rfl, rfl⟩⟩
    exact ⟨hc, by simpa using hvalid, hd, hinit, wrapping_ok.mp hval⟩

/-! The converse for the admission commands, and below for a publication: what passes the checks goes
through. -/

variable {s : ReleaseStore} {version : Version}

theorem exec_startValidation {command : StartValidationCommand}
    (h : StartsValidation s command version) :
    Op.exec (ReleaseStore.startValidation command) s =
      (.ok (startedVersion version command),
        s.startVersion (startedVersion version command) command.validationID) := by
  unfold ReleaseStore.startValidation
  simp only [Op.exec_ofExcept_bind, h.valid, Op.exec_get_bind, Op.exec_orFail_bind, h.found,
    Op.exec_failIf_bind, h.revision, h.uploaded, bne_self_eq_false, Bool.false_eq_true, if_false,
    h.accepted, wrapping]
  rfl

theorem exec_completeValidation_failed {command : CompleteValidationCommand}
    (h : ConsumesReport s command version) (hr : command.report.valid = false)
    (hv : (failedVersion version command).validate = .ok ()) :
    Op.exec (ReleaseStore.completeValidation command) s =
      (.ok (failedVersion version command, none), s.failVersion (failedVersion version command)) := by
  have hlater : command.updatedAt.before version.updatedAt = false := Time.before_eq_false.mpr h.later
  unfold ReleaseStore.completeValidation
  simp only [Op.exec_ofExcept_bind, h.valid, Op.exec_get_bind, Op.exec_orFail_bind, h.found,
    Op.exec_failIf_bind, h.revision, h.validating, h.current, h.report, hlater, bne_self_eq_false,
    Bool.false_eq_true, if_false, hr, Bool.not_false, if_true, hv, wrapping]
  rfl

theorem exec_completeValidation_passed {command : CompleteValidationCommand}
    {deployment : Deployment} (h : AdmitsVersion s command version deployment) :
    Op.exec (ReleaseStore.completeValidation command) s =
      (.ok (readyVersion version command, some deployment),
        s.admitVersion (readyVersion version command) deployment) := by
  have hlater : command.updatedAt.before version.updatedAt = false := Time.before_eq_false.mpr h.later
  have hinitial := h.initial
  simp only [h.revision, h.validating] at hinitial
  unfold ReleaseStore.completeValidation
  simp only [Op.exec_ofExcept_bind, h.valid, Op.exec_get_bind, Op.exec_orFail_bind, h.found,
    Op.exec_failIf_bind, h.revision, h.validating, h.current, h.report, hlater, bne_self_eq_false,
    Bool.false_eq_true, if_false, h.passed, Bool.not_true, h.carried, hinitial, h.accepted, wrapping]
  rfl

theorem atomic_publish (releases : ReleaseStore) (c : Catalog) (s : RouteStore)
    (command : PublishRouteCommand) :
    Atomic (RouteStore.publish releases command) (c, s) fun reply p =>
      ∃ function, PublishesRoute c releases s command function ∧
        reply = (command.route, routedFunction function command) ∧
        p = (c.putFunction (routedFunction function command),
          s.putRoute (routedFunction function command).id command.route) := by
  refine .ofExcept_bind fun _ hv => .get_bind (.orFail_bind fun function hf => ?_)
  refine .failIf_bind fun hexp => .failIf_bind fun hmax => .failIf_bind fun hrev => ?_
  refine .failIf_bind fun hlater => .failIf_bind fun hunused => .failIf_bind fun hactive => ?_
  refine .ofExcept_bind fun _ htarget => .ofExcept_bind fun _ hval => .set_ret ?_
  refine ⟨function, ⟨hv, hf, ?_, ?_, ?_, ?_, ?_, ?_, ?_, hval⟩, rfl, rfl⟩
  · simpa using hexp
  · simpa using hmax
  · simpa using hrev
  · exact Time.before_eq_false.mp hlater
  · simpa using hunused
  · intro he
    simpa [he] using hactive
  · intro he
    simpa [he] using htarget

theorem atomic_install (stores : Stores) (command : InstallAssignmentCommand) :
    Atomic (AssignmentStore.install stores.catalog stores.releases stores.routes command)
      stores.assignments fun reply s' =>
        ∃ target deployment, InstallsAssignment stores command target deployment ∧
          reply = candidateRecord command ∧
          s' = stores.assignments.addRecord command
            (assignmentTargetFor command.functionID target) := by
  refine .ofExcept_bind fun _ hv => .get_bind (.failIf_bind fun hid => .failIf_bind fun hroom => ?_)
  refine .ofExcept_bind fun found hp => .failIf_bind fun hscale => .failIf_bind fun hwant => ?_
  refine .set_ret ⟨found.1, found.2, ⟨hv, ?_, ?_, hp, ?_, ?_⟩, rfl, rfl⟩
  · simpa using hid
  · simpa using hroom
  · simpa using hscale
  · simpa using hwant

theorem atomic_cancel (s : AssignmentStore) (command : CancelAssignmentCommand) :
    Atomic (AssignmentStore.cancel command) s fun reply s' =>
      ∃ record, CancelsAssignment s command record ∧ reply = cancelledRecord record command ∧
        s' = s.cancelRecord command record := by
  refine .ofExcept_bind fun _ hv => .get_bind (.orFail_bind fun record hf => ?_)
  refine .failIf_bind fun hrev => .failIf_bind fun hassigned => .failIf_bind fun hlater => ?_
  refine .failIf_bind fun hidx => .failIf_bind fun hmax => .failIf_bind fun hcount => .set_ret ?_
  refine ⟨record, ⟨hv, hf, ?_, ?_, Time.before_eq_false.mp hlater, ?_, ?_, ?_⟩, rfl, rfl⟩
  · simpa using hrev
  · simpa using hassigned
  · simpa using hidx
  · simpa using hmax
  · simpa using hcount

/-- **Every command is atomic.** -/
theorem atomic_run (s : Stores) (command : Command) : Atomic command.run s (Success s command) := by
  cases command with
  | createFunction command =>
    refine .map_onPart (atomic_createFunction _ command) rfl ?_
    rintro _ _ ⟨h, rfl, rfl⟩
    exact .committed _ _ _ (.functionCreated command h)
  | setFunctionLifecycle command =>
    refine .map_onPart (atomic_setFunctionLifecycle _ command) rfl ?_
    rintro _ _ ⟨function, h, ⟨heq, rfl, rfl⟩ | ⟨hne, hv, rfl, rfl⟩⟩
    · exact .kept command _ h heq
    · exact .committed _ _ _ (.lifecycleSet command function h hne hv)
  | rotateInvocationToken command =>
    refine .map_onPart (atomic_rotateInvocationToken _ command) rfl ?_
    rintro _ _ ⟨triggerID, trigger, h, rfl, rfl⟩
    exact .committed _ _ _ (.tokenRotated command triggerID trigger h)
  | createVersion command =>
    refine .get_bind (.map_onPart (atomic_createVersion _ _ command) rfl ?_)
    rintro _ _ ⟨function, h, rfl, rfl⟩
    exact .committed _ _ _ (.versionCreated command function h)
  | startValidation command =>
    refine .map_onPart (atomic_startValidation _ command) rfl ?_
    rintro _ _ ⟨version, h, rfl, rfl⟩
    exact .committed _ _ _ (.validationStarted command version h)
  | completeValidation command =>
    refine .map_onPart (atomic_completeValidation _ command) rfl ?_
    rintro _ _ ⟨version, ⟨h, hr, hv, rfl, rfl⟩ | ⟨deployment, h, rfl, rfl⟩⟩
    · exact .committed _ _ _ (.validationFailed command version h hr hv)
    · exact .committed _ _ _ (.validationPassed command version deployment h)
  | publishRoute command =>
    refine .get_bind (.map_onPart (atomic_publish _ _ _ command) rfl ?_)
    rintro _ _ ⟨function, h, rfl, rfl⟩
    exact .committed _ _ _ (.routePublished command function h)
  | installAssignment command =>
    refine .get_bind (.map_onPart (atomic_install s command) rfl ?_)
    rintro _ _ ⟨target, deployment, h, rfl, rfl⟩
    exact .committed _ _ _ (.assignmentInstalled command target deployment h)
  | cancelAssignment command =>
    refine .map_onPart (atomic_cancel _ command) rfl ?_
    rintro _ _ ⟨record, h, rfl, rfl⟩
    exact .committed _ _ _ (.assignmentCancelled command record h)

/-! ## Revisions -/

theorem succ_ne_zero {a : UInt64} (h : a ≠ maxUint64) : a + 1 ≠ 0 := by
  intro h0
  have hadd : (a + 1).toNat = (a.toNat + 1) % 2 ^ 64 := UInt64.toNat_add a 1
  have hlt := a.toNat_lt
  rw [h0] at hadd
  have hmax : a.toNat = maxUint64.toNat := by
    have hz : (0 : UInt64).toNat = 0 := rfl
    have hm : maxUint64.toNat = 2 ^ 64 - 1 := rfl
    omega
  exact h (UInt64.toNat_inj.mp hmax)

/-! ## Steps of the machine -/

/-- A refused command changes nothing; one that succeeds commits, or finds nothing to do. -/
theorem step_cases (s : Stores) (command : Command) :
    (∃ e, storesMachine.step s command = (.error e, s)) ∨
      ∃ reply s', storesMachine.step s command = (.ok reply, s') ∧
        Success s command reply s' := by
  have h := atomic_run s command
  show (∃ e, Op.exec command.run s = _) ∨ ∃ reply s', Op.exec command.run s = _ ∧ _
  rw [Atomic] at h
  rcases he : Op.exec command.run s with ⟨e | reply, s'⟩
  · rw [he] at h
    exact .inl ⟨e, by rw [show s' = s from h]⟩
  · rw [he] at h
    exact .inr ⟨reply, s', rfl, h⟩

/-- Seen from the stores, a step does nothing or is a commit. -/
theorem step_commit (s : Stores) (command : Command) :
    (storesMachine.step s command).2 = s ∨
      ∃ reply s', storesMachine.step s command = (.ok reply, s') ∧ Commit s command reply s' := by
  rcases step_cases s command with ⟨e, he⟩ | ⟨reply, s', he, hs⟩
  · exact .inl (by rw [he])
  · cases hs with
    | kept command function h heq => exact .inl (by rw [he])
    | committed _ _ _ h => exact .inr ⟨reply, s', he, h⟩

/-- **The invariant rule for the stores**: an invariant is what commits keep. -/
theorem Stores.invariant {P : Stores → Prop} (h0 : P newStores)
    (hstep : ∀ s command reply s', s.Reachable → P s → Commit s command reply s' → P s')
    {s : Stores} (h : s.Reachable) : P s := by
  refine Machine.invariant h0 ?_ h
  intro s command hr hs
  rcases step_commit s command with hsame | ⟨reply, s', he, hc⟩
  · rw [hsame]
    exact hs
  · rw [he]
    exact hstep s command reply s' hr hs hc

end MiniCloud.ControlPlane
