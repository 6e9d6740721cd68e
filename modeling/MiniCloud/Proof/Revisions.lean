import MiniCloud.Proof.AssignmentInv

/-!
# Revisions

The four kinds of resource that carry a revision, seen as one map from references to resources.
Six commands update a stored resource; each of them names it, and all but `Publish` state the
revision they expect it at. `commit_update` says what an update does to the map, `commit_frame`
what every command leaves alone, and `commit_creates` that the remaining commands only add.
-/

namespace MiniCloud.ControlPlane

open Lib Problem Digest Model

variable {s s' : Stores} {command : Command} {reply : Reply} {k : GoString} {ref : ResourceRef}
  {r : ReleaseStore}

/-! ## Resources -/

/-- The name of a stored resource. -/
inductive ResourceRef where
  | function (id : GoString)
  | trigger (id : GoString)
  | version (id : GoString)
  | assignment (id : GoString)
  deriving DecidableEq

inductive Resource where
  | function (f : Function)
  | trigger (t : HTTPTrigger)
  | version (v : Version)
  | assignment (r : AssignmentRecord)

def Resource.revision : Resource → UInt64
  | .function f => f.resourceRevision
  | .trigger t => t.resourceRevision
  | .version v => v.resourceRevision
  | .assignment r => r.resourceRevision

def Resource.updatedAt : Resource → Time
  | .function f => f.updatedAt
  | .trigger t => t.updatedAt
  | .version v => v.updatedAt
  | .assignment r => r.updatedAt

/-- What is stored under a reference. -/
def Stores.find (s : Stores) : ResourceRef → Option Resource
  | .function id => (s.catalog.functionsByID.get? id).map .function
  | .trigger id => (s.catalog.triggersByID.get? id).map .trigger
  | .version id => (s.releases.versions.get? id).map .version
  | .assignment id => (s.assignments.records.get? id).map .assignment

/-- The resource a command updates, if it is one of the six that update. A rotation names the
Function, and the catalog knows its Trigger. -/
def Command.updates (s : Stores) : Command → Option ResourceRef
  | .setFunctionLifecycle command => some (.function command.functionID)
  | .rotateInvocationToken command =>
    (s.catalog.triggerIDByFunc.get? command.functionID).map .trigger
  | .startValidation command => some (.version command.versionID)
  | .completeValidation command => some (.version command.versionID)
  | .publishRoute command => some (.function command.functionID)
  | .cancelAssignment command => some (.assignment command.assignmentID)
  | _ => none

/-- The command is one of the six that update a stored resource. -/
def Command.isUpdate : Command → Bool
  | .setFunctionLifecycle _ | .rotateInvocationToken _ | .startValidation _
  | .completeValidation _ | .publishRoute _ | .cancelAssignment _ => true
  | _ => false

/-- The resource revision a command states. -/
def Command.expectedResource : Command → Option UInt64
  | .setFunctionLifecycle command => some command.expectedResourceRevision
  | .rotateInvocationToken command => some command.expectedResourceRevision
  | .startValidation command => some command.expectedResourceRevision
  | .completeValidation command => some command.expectedResourceRevision
  | .cancelAssignment command => some command.expectedResourceRevision
  | _ => none

/-- The references a command writes. -/
def Command.writes (s : Stores) : Command → List ResourceRef
  | .createFunction command => [.function command.function.id, .trigger command.trigger.id]
  | .createVersion command => [.version command.version.versionID]
  | .installAssignment command => [.assignment command.placement.assignmentID]
  | command => (command.updates s).toList

/-! ## Commits -/

/-- A valid update has a revision that did not wrap. -/
theorem revision_succ {m : Metadata} (h : m.Valid) {a : UInt64} (hm : m.resourceRevision = a + 1) :
    m.resourceRevision.toNat = a.toNat + 1 := by
  have hne := h.resourceRevision
  rw [hm] at hne ⊢
  exact toNat_succ hne

/-- One resource replaced by its next revision. -/
structure Updated (s s' : Stores) (ref : ResourceRef) (x x' : Resource) : Prop where
  before : s.find ref = some x
  after : s'.find ref = some x'
  revision : x'.revision.toNat = x.revision.toNat + 1

/-- A Function replaced under its own id. -/
theorem updated_function (hcat : CatalogInv s.catalog) {f g : Function}
    (hf : s.catalog.functionsByID.get? k = some f) (hid : g.id = f.id) (routes : RouteStore)
    (hrev : g.resourceRevision.toNat = f.resourceRevision.toNat + 1) :
    Updated s { s with catalog := s.catalog.putFunction g, routes := routes }
      (.function k) (.function f) (.function g) := by
  have hk : g.id = k := hid.trans (hcat.functions k f hf).1
  refine ⟨?_, ?_, hrev⟩
  · rw [Stores.find, hf]
    rfl
  · rw [Stores.find, Catalog.putFunction, hk, GoMap.get?_set_self]
    rfl

theorem updated_version {v v' : Version} (hp : Progress s.releases r k v v')
    (hrev : v'.resourceRevision = v.resourceRevision + 1) :
    Updated s { s with releases := r } (.version k) (.version v) (.version v') := by
  refine ⟨?_, ?_, revision_succ (Version.validate_ok.mp hp.valid).1 hrev⟩
  · rw [Stores.find, hp.found]
    rfl
  · rw [Stores.find, hp.versions, GoMap.get?_set_self]
    rfl

theorem updated_trigger {command : RotateInvocationTokenCommand} {tid : GoString}
    {t : HTTPTrigger} (hc : RotatesToken s.catalog command tid t) :
    Updated s { s with catalog := s.catalog.putTrigger tid (rotatedTrigger t command) }
      (.trigger tid) (.trigger t) (.trigger (rotatedTrigger t command)) := by
  refine ⟨?_, ?_, revision_succ (HTTPTrigger.validate_metadata hc.accepted) rfl⟩
  · rw [Stores.find, hc.found]
    rfl
  · rw [Stores.find, Catalog.putTrigger, GoMap.get?_set_self]
    rfl

theorem updated_record {command : CancelAssignmentCommand} {r : AssignmentRecord}
    (hc : CancelsAssignment s.assignments command r) :
    Updated s { s with assignments := s.assignments.cancelRecord command r }
      (.assignment command.assignmentID) (.assignment r)
      (.assignment (cancelledRecord r command)) := by
  refine ⟨?_, ?_, toNat_succ (succ_ne_zero hc.unexhausted)⟩
  · rw [Stores.find, hc.found]
    rfl
  · rw [Stores.find, AssignmentStore.cancelRecord, GoMap.get?_set_self]
    rfl

/-- A rotation updates the Trigger the catalog has for its Function. -/
theorem updates_rotate {command : RotateInvocationTokenCommand} {tid : GoString} {t : HTTPTrigger}
    (hc : RotatesToken s.catalog command tid t) :
    (Command.rotateInvocationToken command).updates s = some (.trigger tid) := by
  rw [Command.updates, hc.indexed]
  rfl

/-- **An update** finds its resource, at the revision it states, and leaves the next revision. -/
theorem commit_update (hr : s.Reachable) (hc : Commit s command reply s')
    (hu : command.isUpdate = true) :
    ∃ ref x x', command.updates s = some ref ∧ Updated s s' ref x x' ∧
      ∀ n, command.expectedResource = some n → x.revision = n := by
  have hcat := catalogInv_reachable hr
  have hrel := releaseInv_reachable hr
  cases hc with
  | lifecycleSet command f hc hne hv =>
    have hrev : (relifedFunction f command).resourceRevision.toNat =
        f.resourceRevision.toNat + 1 := revision_succ (Function.validate_metadata hv) rfl
    exact ⟨_, .function f, _, rfl,
      updated_function (g := relifedFunction f command) hcat hc.found rfl s.routes hrev,
      fun n hn => hc.revision.trans (Option.some.inj hn)⟩
  | tokenRotated command tid t hc =>
    exact ⟨_, _, _, updates_rotate hc, updated_trigger hc,
      fun n hn => hc.revision.trans (Option.some.inj hn)⟩
  | validationStarted command v hc =>
    exact ⟨_, _, _, rfl, updated_version (progress_start hrel hc) rfl,
      fun n hn => hc.revision.trans (Option.some.inj hn)⟩
  | validationFailed command v hc hrep hv =>
    exact ⟨_, _, _, rfl, updated_version (progress_fail hrel hc hv) rfl,
      fun n hn => hc.revision.trans (Option.some.inj hn)⟩
  | validationPassed command v d hc =>
    exact ⟨_, _, _, rfl, updated_version (progress_pass hrel hc) rfl,
      fun n hn => hc.revision.trans (Option.some.inj hn)⟩
  | routePublished command f hc =>
    have hrev : (routedFunction f command).resourceRevision.toNat =
        f.resourceRevision.toNat + 1 := toNat_succ (succ_ne_zero hc.unexhausted.2)
    exact ⟨_, _, _, rfl,
      updated_function (g := routedFunction f command) hcat hc.found rfl _ hrev,
      fun n hn => by cases hn⟩
  | assignmentCancelled command r hc =>
    exact ⟨_, _, _, rfl, updated_record hc, fun n hn => hc.revision.trans (Option.some.inj hn)⟩
  | _ => cases hu

/-- The other three commands only write under references that were free. -/
theorem commit_creates (hc : Commit s command reply s') (hu : command.isUpdate = false) :
    ∀ ref ∈ command.writes s, s.find ref = none := by
  cases hc with
  | functionCreated command hc =>
    simp [Command.writes, Stores.find, hc.newID, hc.newTrigger]
  | versionCreated command f hc => simp [Command.writes, Stores.find, hc.newID]
  | assignmentInstalled command target d hc => simp [Command.writes, Stores.find, hc.unused]
  | _ => cases hu

theorem find_putFunction {g : Function} (routes : RouteStore) (h : ref ≠ .function g.id) :
    Stores.find { s with catalog := s.catalog.putFunction g, routes := routes } ref =
      s.find ref := by
  cases ref with
  | function id =>
    exact congrArg (Option.map _) (GoMap.get?_set_ne _ _ fun heq => h (by rw [heq]))
  | trigger | version | assignment => rfl

theorem find_versions {v : Version} (hv : r.versions = s.releases.versions.set k v)
    (h : ref ≠ .version k) : Stores.find { s with releases := r } ref = s.find ref := by
  cases ref with
  | version id =>
    rw [Stores.find, hv]
    exact congrArg (Option.map _) (GoMap.get?_set_ne _ _ fun heq => h (by rw [heq]))
  | function | trigger | assignment => rfl

theorem find_records {a : AssignmentStore} {r : AssignmentRecord}
    (hr : a.records = s.assignments.records.set k r) (h : ref ≠ .assignment k) :
    Stores.find { s with assignments := a } ref = s.find ref := by
  cases ref with
  | assignment id =>
    rw [Stores.find, hr]
    exact congrArg (Option.map _) (GoMap.get?_set_ne _ _ fun heq => h (by rw [heq]))
  | function | trigger | version => rfl

section

variable (hr : s.Reachable) (hc : Commit s command reply s')
include hr hc

/-- **Every command leaves alone what it does not write.** -/
theorem commit_frame (href : ref ∉ command.writes s) : s'.find ref = s.find ref := by
  have hcat := catalogInv_reachable hr
  have hrel := releaseInv_reachable hr
  cases hc with
  | functionCreated command hc =>
    simp only [Command.writes, List.mem_cons, List.not_mem_nil, or_false, not_or] at href
    cases ref with
    | function id =>
      exact congrArg (Option.map _) (GoMap.get?_set_ne _ _ fun heq => href.1 (by rw [heq]))
    | trigger id =>
      exact congrArg (Option.map _) (GoMap.get?_set_ne _ _ fun heq => href.2 (by rw [heq]))
    | version | assignment => rfl
  | lifecycleSet command f hc hne hv =>
    refine find_putFunction s.routes ?_
    rw [show (relifedFunction f command).id = command.functionID from
      (hcat.functions _ f hc.found).1]
    simpa [Command.writes, Command.updates] using href
  | tokenRotated command tid t hc =>
    simp only [Command.writes, Command.updates, hc.indexed, Option.map_some, Option.toList_some,
      List.mem_singleton] at href
    cases ref with
    | trigger id =>
      exact congrArg (Option.map _) (GoMap.get?_set_ne _ _ fun heq => href (by rw [heq]))
    | function | version | assignment => rfl
  | versionCreated command f hc =>
    exact find_versions (v := command.version) rfl (by simpa [Command.writes] using href)
  | validationStarted command v hc =>
    exact find_versions (progress_start hrel hc).versions
      (by simpa [Command.writes, Command.updates] using href)
  | validationFailed command v hc hrep hv =>
    exact find_versions (progress_fail hrel hc hv).versions
      (by simpa [Command.writes, Command.updates] using href)
  | validationPassed command v d hc =>
    exact find_versions (progress_pass hrel hc).versions
      (by simpa [Command.writes, Command.updates] using href)
  | routePublished command f hc =>
    refine find_putFunction _ ?_
    rw [show (routedFunction f command).id = command.functionID from
      (hcat.functions _ f hc.found).1]
    simpa [Command.writes, Command.updates] using href
  | assignmentInstalled command target d hc =>
    exact find_records (r := candidateRecord command) rfl
      (by simpa [Command.writes] using href)
  | assignmentCancelled command r hc =>
    exact find_records (r := cancelledRecord r command) rfl
      (by simpa [Command.writes, Command.updates] using href)

theorem commit_routes (hk : ∀ publish, command = .publishRoute publish → publish.functionID ≠ k) :
    s'.routes.routes.get? k = s.routes.routes.get? k := by
  cases hc with
  | routePublished command f hc =>
    rw [show (routedFunction f command).id = command.functionID from
      ((catalogInv_reachable hr).functions _ f hc.found).1, RouteStore.putRoute,
      GoMap.get?_set_ne _ _ (Ne.symm (hk command rfl))]
  | _ => rfl

theorem commit_deployments
    (hk : ∀ complete, command = .completeValidation complete → complete.versionID ≠ k) :
    s'.releases.deployments.get? k = s.releases.deployments.get? k := by
  cases hc with
  | validationPassed command v d hc =>
    exact (progress_pass (releaseInv_reachable hr) hc).otherDeployed k (Ne.symm (hk command rfl))
  | _ => rfl

end

/-! ## Runs -/

/-- The revision under a reference, as a number; zero when nothing is stored. -/
def revisionAt (s : Stores) (ref : ResourceRef) : Nat :=
  ((s.find ref).map fun x => x.revision.toNat).getD 0

theorem writes_update (s : Stores) (hu : command.isUpdate = true) :
    command.writes s = (command.updates s).toList := by
  cases command <;> first | rfl | cases hu

/-- What happens to one reference in a commit. -/
theorem commit_ref (hr : s.Reachable) (hc : Commit s command reply s') (ref : ResourceRef) :
    s'.find ref = s.find ref ∨ s.find ref = none ∨
      (command.isUpdate = true ∧ command.updates s = some ref ∧ ∃ x x', Updated s s' ref x x') := by
  by_cases href : ref ∈ command.writes s
  · cases hu : command.isUpdate with
    | false => exact .inr (.inl (commit_creates hc hu ref href))
    | true =>
      obtain ⟨ref', x, x', hup, hupd, -⟩ := commit_update hr hc hu
      rw [writes_update s hu, hup, Option.toList_some, List.mem_singleton] at href
      subst href
      exact .inr (.inr ⟨rfl, hup, x, x', hupd⟩)
  · exact .inl (commit_frame hr hc href)

theorem revisionAt_mono (s : Stores) (command : Command) (hr : s.Reachable) (ref : ResourceRef) :
    revisionAt s ref ≤ revisionAt (storesMachine.step s command).2 ref := by
  rcases step_commit s command with hsame | ⟨reply, s', he, hc⟩
  · rw [hsame]
  · rw [he]
    rcases commit_ref hr hc ref with hfind | hnone | ⟨-, -, x, x', hup⟩
    · rw [revisionAt, revisionAt, hfind]
    · rw [revisionAt, hnone]
      exact Nat.zero_le _
    · have hrev := hup.revision
      rw [revisionAt, revisionAt, hup.before, hup.after]
      simp only [Option.map_some, Option.getD_some]
      omega

/-- A successful, state-changing update of `ref` that stated the revision `n`. -/
def UpdatesAt (e : StoreEvent) (ref : ResourceRef) (n : UInt64) : Prop :=
  (∃ reply, e.output = .ok reply) ∧ e.post ≠ e.pre ∧ e.input.updates e.pre = some ref ∧
    e.input.expectedResource = some n

/-- A successful publication for the Function `k` that stated the route revision `n`. -/
def RoutesAt (e : StoreEvent) (k : GoString) (n : UInt64) : Prop :=
  (∃ reply, e.output = .ok reply) ∧ e.post ≠ e.pre ∧ ∃ publish, e.input = .publishRoute publish ∧
    publish.functionID = k ∧ publish.expectedActiveRouteRevision = n

theorem commit_of_change (h : (storesMachine.step s command).2 ≠ s) :
    ∃ reply, Commit s command reply (storesMachine.step s command).2 := by
  rcases step_commit s command with hsame | ⟨reply, s', he, hc⟩
  · exact absurd hsame h
  · rw [he]
    exact ⟨reply, hc⟩

theorem isUpdate_of_expected {n : UInt64} (h : command.expectedResource = some n) :
    command.isUpdate = true := by
  cases command <;> first | rfl | cases h

/-- No two updates of one resource succeed at one revision. -/
theorem updatesAt_once (commands : List Command) :
    (storesMachine.events newStores commands).Pairwise fun e e' =>
      ∀ ref n, UpdatesAt e ref n → ¬ UpdatesAt e' ref n := by
  refine List.Pairwise.imp ?_ (Machine.swap_once (N := revisionAt)
    (S := fun e ref m => ∃ n : UInt64, m = n.toNat ∧ UpdatesAt e ref n) revisionAt_mono ?_
    commands)
  · intro e e' h ref n he he'
    exact h ref n.toNat ⟨n, rfl, he⟩ ⟨n, rfl, he'⟩
  · rintro s command hr ref m ⟨n, rfl, -, hchange, hup, hexp⟩
    obtain ⟨reply, hc⟩ := commit_of_change hchange
    obtain ⟨ref', x, x', hup', hupd, hrev⟩ := commit_update hr hc (isUpdate_of_expected hexp)
    obtain rfl : ref' = ref := Option.some.inj (hup'.symm.trans hup)
    have hnext := hupd.revision
    rw [revisionAt, revisionAt, hupd.before, hupd.after]
    simp only [Option.map_some, Option.getD_some]
    rw [hrev n hexp] at hnext ⊢
    omega

theorem activeRevision_mono (s : Stores) (command : Command) (hr : s.Reachable) (k : GoString) :
    (activeRevision s k).toNat ≤ (activeRevision (storesMachine.step s command).2 k).toNat := by
  rcases publication_step hr command with ⟨-, hact, -⟩ | ⟨publish, f, -, hc, -, hact, -⟩
  · rw [hact]
  · rw [hact]
    split_ifs with hk
    · rw [hk, activeRevision_found hc.found, hc.revision,
        toNat_succ (succ_ne_zero hc.unexhausted.1)]
      omega
    · exact le_refl _

/-- A committed publication: the Function and the Route it leaves. -/
theorem commit_publish {publish : PublishRouteCommand} (hr : s.Reachable)
    (hc : Commit s (.publishRoute publish) reply s') :
    ∃ f, PublishesRoute s.catalog s.releases s.routes publish f ∧
      s'.catalog.functionsByID.get? publish.functionID = some (routedFunction f publish) ∧
      s'.routes.routes.get? publish.functionID = some publish.route := by
  cases hc with
  | routePublished _ f hc =>
    have hid : (routedFunction f publish).id = publish.functionID :=
      ((catalogInv_reachable hr).functions _ f hc.found).1
    exact ⟨f, hc, by rw [Catalog.putFunction, hid, GoMap.get?_set_self],
      by rw [RouteStore.putRoute, hid, GoMap.get?_set_self]⟩

/-- The route revision a publication leaves is the next one. -/
theorem routedFunction_revision {c : Catalog} {routes : RouteStore}
    {publish : PublishRouteCommand} {f : Function} (hc : PublishesRoute c r routes publish f) :
    (routedFunction f publish).activeRouteRevision.toNat = f.activeRouteRevision.toNat + 1 := by
  show publish.route.routeRevision.toNat = _
  rw [hc.revision, toNat_succ (succ_ne_zero hc.unexhausted.1)]

/-- No two publications for one Function succeed at one route revision. -/
theorem routesAt_once (commands : List Command) :
    (storesMachine.events newStores commands).Pairwise fun e e' =>
      ∀ k n, RoutesAt e k n → ¬ RoutesAt e' k n := by
  refine List.Pairwise.imp ?_ (Machine.swap_once (N := fun s k => (activeRevision s k).toNat)
    (S := fun e k m => ∃ n : UInt64, m = n.toNat ∧ RoutesAt e k n) activeRevision_mono ?_ commands)
  · intro e e' h k n he he'
    exact h k n.toNat ⟨n, rfl, he⟩ ⟨n, rfl, he'⟩
  · rintro s command hr k m ⟨n, rfl, -, hchange, publish, hin, rfl, rfl⟩
    obtain rfl : command = .publishRoute publish := hin
    obtain ⟨reply, hc⟩ := commit_of_change hchange
    obtain ⟨f, hp, hf', -⟩ := commit_publish hr hc
    rw [activeRevision_found hp.found, activeRevision_found hf', hp.expected,
      routedFunction_revision hp]
    exact ⟨rfl, Nat.lt_succ_self _⟩

/--
**No update is lost.** In every reachable state, a command of the six that update, if it succeeds
and changes the stores, found its resource at the revision it states; that resource's revision goes
up by one as a number, and no other Function, Trigger, Version or Assignment changes. A publication
also found the route revision it states, raises it by one and stores a Route with that revision, and
no other Route changes. A consumed report adds at most the Deployment of its own Version, which had
none.

So in every history no two successful, state-changing commands state the same revision of the same
resource, nor the same route revision of the same Function.
-/
theorem no_lost_updates (commands : List Command) :
    let s := storesMachine.run newStores commands
    let history := storesMachine.events newStores commands
    (∀ command reply s', command.isUpdate = true →
      storesMachine.step s command = (.ok reply, s') → s' ≠ s →
      (∃ ref x x', command.updates s = some ref ∧ s.find ref = some x ∧ s'.find ref = some x' ∧
        (∀ n, command.expectedResource = some n → x.revision = n) ∧
        x'.revision.toNat = x.revision.toNat + 1 ∧
        ∀ other, other ≠ ref → s'.find other = s.find other) ∧
      (∀ publish, command = .publishRoute publish → ∃ f f' route,
        s.catalog.functionsByID.get? publish.functionID = some f ∧
        s'.catalog.functionsByID.get? publish.functionID = some f' ∧
        publish.expectedActiveRouteRevision = f.activeRouteRevision ∧
        f'.activeRouteRevision.toNat = f.activeRouteRevision.toNat + 1 ∧
        s'.routes.routes.get? publish.functionID = some route ∧
        route.routeRevision = f'.activeRouteRevision) ∧
      (∀ k, (∀ publish, command = .publishRoute publish → publish.functionID ≠ k) →
        s'.routes.routes.get? k = s.routes.routes.get? k) ∧
      (∀ complete, command = .completeValidation complete →
        s.releases.deployments.get? complete.versionID = none) ∧
      (∀ k, (∀ complete, command = .completeValidation complete → complete.versionID ≠ k) →
        s'.releases.deployments.get? k = s.releases.deployments.get? k)) ∧
    (history.Pairwise fun e e' => ∀ ref n, UpdatesAt e ref n → ¬ UpdatesAt e' ref n) ∧
    (history.Pairwise fun e e' => ∀ k n, RoutesAt e k n → ¬ RoutesAt e' k n) := by
  intro s history
  have hr : s.Reachable := Machine.Reachable.init.run commands
  refine ⟨?_, updatesAt_once commands, routesAt_once commands⟩
  intro command reply s' hu hstep hchange
  have hpost : (storesMachine.step s command).2 ≠ s := by
    rw [hstep]
    exact hchange
  obtain ⟨reply', hc⟩ := commit_of_change hpost
  rw [hstep] at hc
  refine ⟨?_, ?_, fun k hk => commit_routes hr hc hk, ?_, fun k hk => commit_deployments hr hc hk⟩
  · obtain ⟨ref, x, x', hup, hupd, hexp⟩ := commit_update hr hc hu
    refine ⟨ref, x, x', hup, hupd.before, hupd.after, hexp, hupd.revision, ?_⟩
    intro other hother
    refine commit_frame hr hc ?_
    rw [writes_update s hu, hup]
    simpa using hother
  · rintro publish rfl
    obtain ⟨f, hp, hf', hroute⟩ := commit_publish hr hc
    exact ⟨f, routedFunction f publish, publish.route, hp.found, hf', hp.expected,
      routedFunction_revision hp, hroute, rfl⟩
  · rintro complete rfl
    have hrel := releaseInv_reachable hr
    cases hc with
    | validationFailed _ _ hc | validationPassed _ _ _ hc =>
      exact hrel.undeployed hc.found (by simp [hc.validating])

end MiniCloud.ControlPlane
