import MiniCloud.LocalController.System
import MiniCloud.Proof.CatalogInv
import MiniCloud.Proof.LedgerSteps

/-!
# What the phases of an operation do

Preparing draws from the sources and leaves the stores and the ledger alone. What it promises of
the plan, `Planned`, speaks of the catalog only, so it is still true when the plan is committed,
whatever admission has done in between. Committing is then one store command and one ledger
record, or neither; and the record lists the resources as the command leaves them.
-/

namespace MiniCloud.LocalController

open Lib Problem Digest Model ControlPlane Op

variable {σ : Type} (src : Sources σ)

/-! ## Preparing -/

/-- What no phase before the commit may touch. -/
def Controller.kept (c : Controller σ) : Stores × Ledger := (c.stores, c.ledger)

theorem leaves_onSources {α : Type} (m : Op GoError σ α) (context : GoString) (c : Controller σ) :
    Leaves Controller.kept (wrapped context (onSources m)) c fun _ => True :=
  .mapError (.onPart fun _ => rfl)

theorem leaves_nextCommand (c : Controller σ) :
    Leaves Controller.kept (nextCommand src) c fun _ => True := by
  refine (leaves_onSources src.next _ c).bind fun command t _ _ => ?_
  refine .failIf_bind fun _ => .failIf_bind fun _ => .get_bind ?_
  exact .failIf_bind fun _ => .failIf_bind fun _ => .set_ret rfl trivial

theorem leaves_newID (kind : GoString) (c : Controller σ) :
    Leaves Controller.kept (newID src kind) c fun _ => True := by
  refine (leaves_onSources (src.newID kind) _ c).bind fun id t _ _ => ?_
  exact .failIf_bind fun _ => .failIf_bind fun _ => .ret trivial

theorem leaves_newRouteSalt (c : Controller σ) :
    Leaves Controller.kept (newRouteSalt src) c fun _ => True :=
  (leaves_onSources src.newSalt _ c).bind fun _ _ _ _ => .failIf_bind fun _ => .ret trivial

theorem leaves_newToken (c : Controller σ) :
    Leaves Controller.kept (newToken src) c fun _ => True :=
  (leaves_onSources src.newToken _ c).bind fun _ _ _ _ => .failIf_bind fun _ => .ret trivial

theorem leaves_newInvocationToken (policy : AuthPolicy) (c : Controller σ) :
    Leaves Controller.kept (newInvocationToken src policy) c fun _ => True := by
  cases policy with
  | «public» => exact .ret trivial
  | token => exact (leaves_newToken src c).bind fun _ _ _ _ => .ret trivial
  | other text => exact .fail

theorem leaves_verifyArtifact (expected : SHA256) (c : Controller σ) :
    Leaves Controller.kept (verifyArtifact src expected) c fun _ => True := by
  refine (leaves_onSources (src.openVerified expected) _ c).bind fun opened t _ _ => ?_
  refine .orFail_bind fun file _ => .ofExcept_bind fun _ _ => ?_
  exact .failIf_bind fun _ => .ret trivial

theorem leaves_loadFunction (context functionID : GoString) (c : Controller σ) :
    Leaves Controller.kept (loadFunction context functionID) c fun found =>
      c.stores.catalog.getFunction functionID = .ok found := by
  refine .get_bind ⟨rfl, fun found h => ?_⟩
  exact wrapping_ok.mp h

/-- What a plan promises, as far as it depends on the stores. -/
inductive Planned (s : Stores) : OperationInput → Plan → Prop
  | createFunction (input : CreateFunctionInput) (prepared : PreparedFunction) :
      Planned s (.createFunction input) (.createFunction prepared)
  | setFunctionLifecycle (input : SetFunctionLifecycleInput) (command : CommandMeta)
      (function : Function) (trigger : HTTPTrigger)
      (h : s.catalog.getFunction input.functionID = .ok (function, trigger)) :
      Planned s (.setFunctionLifecycle input) (.setFunctionLifecycle input command
        (if function.lifecycle = input.lifecycle then function.resourceRevision
          else input.expectedResourceRevision + 1))
  | rotateInvocationToken (prepared : PreparedRotation) (function : Function)
      (trigger : HTTPTrigger)
      (h : s.catalog.getFunction prepared.input.functionID = .ok (function, trigger))
      (hid : prepared.triggerID = trigger.id) :
      Planned s (.rotateInvocationToken prepared.input) (.rotateInvocationToken prepared)
  | createVersion (input : CreateVersionInput) (prepared : PreparedVersion) :
      Planned s (.createVersion input) (.createVersion prepared)
  | publishRoute (prepared : PreparedRoute) (current : Function) (trigger : HTTPTrigger)
      (h : s.catalog.getFunction prepared.input.functionID = .ok (current, trigger)) :
      Planned s (.publishRoute prepared.input) (.publishRoute prepared current)

variable {s s' : Stores} {input : OperationInput} {plan : Plan}

theorem Planned.congr {t : Stores} (h : Planned s input plan) (hc : t.catalog = s.catalog) :
    Planned t input plan := by
  cases h with
  | createFunction => exact .createFunction _ _
  | setFunctionLifecycle input command function trigger h =>
    exact .setFunctionLifecycle input command function trigger (hc ▸ h)
  | rotateInvocationToken prepared function trigger h hid =>
    exact .rotateInvocationToken prepared function trigger (hc ▸ h) hid
  | createVersion => exact .createVersion _ _
  | publishRoute prepared current trigger h => exact .publishRoute prepared current trigger (hc ▸ h)

theorem leaves_prepareCreateFunction (input : CreateFunctionInput) (c : Controller σ) :
    Leaves Controller.kept (prepareCreateFunction src input) c fun _ => True := by
  refine (leaves_newInvocationToken src _ c).bind fun token t _ _ => ?_
  refine (leaves_newID src _ t).bind fun functionID t _ _ => ?_
  refine (leaves_newID src _ t).bind fun triggerID t _ _ => ?_
  exact (leaves_nextCommand src t).bind fun command t _ _ => .ret trivial

theorem leaves_prepareRotateInvocationToken (input : RotateInvocationTokenInput)
    (c : Controller σ) :
    Leaves Controller.kept (prepareRotateInvocationToken src input) c fun prepared =>
      Planned c.stores (.rotateInvocationToken input) (.rotateInvocationToken prepared) := by
  refine (leaves_loadFunction _ _ c).bind fun found t _ hfound => ?_
  refine (leaves_newToken src t).bind fun token t _ _ => ?_
  refine (leaves_nextCommand src t).bind fun command t _ _ => .ret ?_
  exact .rotateInvocationToken ⟨command, input, found.2.id, token, sum token⟩ found.1 found.2
    hfound rfl

theorem leaves_drawVersion (input : CreateVersionInput) (c : Controller σ) :
    Leaves Controller.kept (drawVersion src input) c fun drawn =>
      drawn.2.2.resourceRequest = input.resourceRequest ∧
        input.resourceRequest.timeout.tmod Duration.millisecond = 0 := by
  refine .failIf_bind fun hwhole => ?_
  refine (leaves_verifyArtifact src _ c).bind fun info t _ _ => ?_
  refine (leaves_newID src _ t).bind fun versionID t _ _ => ?_
  refine (leaves_newID src _ t).bind fun validationID t _ _ => ?_
  refine (leaves_nextCommand src t).bind fun createCommand t _ _ => .ret ⟨rfl, ?_⟩
  simpa using hwhole

theorem leaves_prepareCreateVersion (input : CreateVersionInput) (c : Controller σ) :
    Leaves Controller.kept (prepareCreateVersion src input) c fun prepared =>
      prepared.version.resourceRequest = input.resourceRequest ∧
        input.resourceRequest.timeout.tmod Duration.millisecond = 0 := by
  refine (leaves_drawVersion src input c).bind fun drawn t _ hdrawn => ?_
  exact (leaves_nextCommand src t).bind fun startCommand t _ _ => .ret hdrawn

theorem leaves_preparePublishRoute (input : PublishRouteInput) (c : Controller σ) :
    Leaves Controller.kept (preparePublishRoute src input) c fun prepared =>
      prepared.input = input := by
  refine .failIf_bind fun _ => .get_bind (.ofExcept_bind fun found _ => ?_)
  refine .ofExcept_bind fun deployment _ => ?_
  refine (leaves_newID src _ c).bind fun routeID t _ _ => ?_
  refine (leaves_newID src _ t).bind fun saltID t _ _ => ?_
  refine (leaves_newRouteSalt src t).bind fun salt t _ _ => ?_
  exact (leaves_nextCommand src t).bind fun command t _ _ => .ret rfl

/-- **Preparing** changes neither the stores nor the ledger, and its plan is good in them. -/
theorem leaves_prepare (input : OperationInput) (c : Controller σ) :
    Leaves Controller.kept (input.prepare src) c fun plan => Planned c.stores input plan := by
  cases input with
  | createFunction input =>
    exact .map ((leaves_prepareCreateFunction src input c).mono fun p _ => .createFunction input p)
  | setFunctionLifecycle input =>
    refine (leaves_nextCommand src c).bind fun command t ht _ => ?_
    have hs : t.stores = c.stores := congrArg Prod.fst ht
    refine .bind (P := fun revision =>
      Planned c.stores (.setFunctionLifecycle input) (.setFunctionLifecycle input command revision))
      ?_ fun revision t _ hplan => .ret hplan
    refine (leaves_loadFunction _ _ t).bind ?_
    rintro ⟨function, trigger⟩ t _ hfound
    rw [hs] at hfound
    have hplan := Planned.setFunctionLifecycle input command function trigger hfound
    dsimp only
    split_ifs at hplan ⊢ <;> exact .ret hplan
  | rotateInvocationToken input =>
    exact .map (leaves_prepareRotateInvocationToken src input c)
  | createVersion input =>
    exact .map ((leaves_prepareCreateVersion src input c).mono fun p _ => .createVersion input p)
  | publishRoute input =>
    refine (leaves_preparePublishRoute src input c).bind fun prepared t ht hinput => ?_
    have hs : t.stores = c.stores := congrArg Prod.fst ht
    refine (leaves_loadFunction _ _ t).bind fun found t _ hfound => .ret ?_
    subst hinput
    rw [hs] at hfound
    exact .publishRoute prepared found.1 found.2 hfound

/-! ## Applying -/

/-- The store command of a plan. -/
def Plan.storeCommand : Plan → Command
  | .createFunction prepared => .createFunction (createFunctionCommand prepared)
  | .setFunctionLifecycle input command _ =>
    .setFunctionLifecycle (setLifecycleCommand input command)
  | .rotateInvocationToken prepared => .rotateInvocationToken (rotateTokenCommand prepared)
  | .createVersion prepared => .createVersion (createVersionCommand prepared)
  | .publishRoute prepared _ => .publishRoute (publishRouteCommand prepared)

/-- The Function and its Trigger can still be read after a rotation. -/
theorem getFunction_rotated {c : Catalog} {command : RotateInvocationTokenCommand}
    {triggerID : GoString} {function : Function} {trigger found : HTTPTrigger}
    (hc : RotatesToken c command triggerID trigger)
    (hf : c.getFunction command.functionID = .ok (function, found)) :
    (c.putTrigger triggerID (rotatedTrigger trigger command)).getFunction command.functionID =
      .ok (function, rotatedTrigger trigger command) := by
  obtain ⟨hid, hfunction, -⟩ := getFunction_ok hf
  have htrigger : (c.triggerIDByFunc.get? command.functionID).getD "" = triggerID := by
    rw [hc.indexed]
    rfl
  simp only [Catalog.getFunction, Catalog.putTrigger, hid, hfunction, htrigger,
    GoMap.get?_set_self]
  rfl

/-- The command succeeds, and this is what it leaves. -/
def Performs (s : Stores) (command : Command) (s' : Stores) : Prop :=
  ∃ reply, storesMachine.step s command = (.ok reply, s') ∧ Success s command reply s'

theorem Performs.reachable {command : Command} (h : Performs s command s') (hr : s.Reachable) :
    s'.Reachable := by
  obtain ⟨reply, hstep, -⟩ := h
  have ht := Machine.Reachable.tail command hr
  rw [hstep] at ht
  exact ht

theorem atomic_performs (s : Stores) (command : Command) :
    Atomic command.run s fun _ s' => Performs s command s' :=
  (atomic_run s command).with_exec.mono fun reply _ h => ⟨reply, h⟩

/-- **Applying** a plan is its store command, all or nothing. -/
theorem atomic_apply (hp : Planned s input plan) :
    Atomic plan.apply s fun _ s' => Performs s plan.storeCommand s' := by
  cases hp with
  | createFunction input prepared =>
    have h := Atomic.of_map (atomic_performs s (.createFunction (createFunctionCommand prepared)))
    exact .map (.bind_reads (.mapError h) fun _ _ hs => ⟨_, rfl, hs⟩)
  | setFunctionLifecycle input command function trigger h =>
    have h := Atomic.of_map
      (atomic_performs s (.setFunctionLifecycle (setLifecycleCommand input command)))
    exact .map (.mapError h)
  | rotateInvocationToken prepared function trigger hfound hid =>
    have h := Atomic.of_map
      (atomic_performs s (.rotateInvocationToken (rotateTokenCommand prepared)))
    refine .map (.bind_reads (.mapError h) fun rotated t hs => ?_)
    -- the source reads the Function back, and this cannot fail
    have hread : ∃ f, t.catalog.getFunction prepared.input.functionID = .ok f := by
      obtain ⟨reply, -, hs⟩ := hs
      cases hs with
      | committed _ _ _ hc =>
        cases hc with
        | tokenRotated _ triggerID trigger hc => exact ⟨_, getFunction_rotated hc hfound⟩
    obtain ⟨f, hf⟩ := hread
    refine ⟨⟨f.1, rotated, prepared.token⟩, ?_, hs⟩
    rw [exec_get_bind, hf]
    rfl
  | createVersion input prepared =>
    have h := Atomic.of_map
      (Atomic.of_get_bind (atomic_performs s (.createVersion (createVersionCommand prepared))))
    exact .map (.get_bind (.mapError h))
  | publishRoute prepared current trigger h =>
    have h := Atomic.of_map
      (Atomic.of_get_bind (atomic_performs s (.publishRoute (publishRouteCommand prepared))))
    exact .map (.get_bind (.mapError h))

/-! ## What an outcome lists -/

/-- A listed resource is there, with the listed id and revision. -/
inductive Present (s : Stores) : AffectedResource → Prop
  | function (f : Function) (h : s.catalog.functionsByID.get? f.id = some f) :
      Present s ⟨functionKind, f.id, some f.resourceRevision, none⟩
  | httpTrigger (t : HTTPTrigger) (h : s.catalog.triggersByID.get? t.id = some t) :
      Present s ⟨httpTriggerKind, t.id, some t.resourceRevision, none⟩
  | version (v : Version) (h : s.releases.versions.get? v.versionID = some v) :
      Present s ⟨versionKind, v.versionID, some v.resourceRevision, none⟩
  | route (functionID : GoString) (route : Route)
      (h : s.routes.routes.get? functionID = some route) :
      Present s ⟨routeKind, route.id, none, some route.routeRevision⟩

/-- A lifecycle write that asks for the lifecycle the Function already has. -/
def Unchanging (s : Stores) (input : OperationInput) : Prop :=
  ∃ i function, input = .setFunctionLifecycle i ∧
    s.catalog.functionsByID.get? i.functionID = some function ∧ function.lifecycle = i.lifecycle

/-- A command that found nothing to do: the plan has listed the revision as it is. -/
theorem present_kept {command : SetFunctionLifecycleCommand} {function : Function}
    (hr : s.Reachable) (hp : Planned s input plan)
    (hcommand : plan.storeCommand = .setFunctionLifecycle command)
    (hc : ChangesLifecycle s.catalog command function)
    (heq : function.lifecycle = command.lifecycle) :
    Unchanging s input ∧ ∀ r ∈ plan.affectedResources, Present s r := by
  cases hp with
  | setFunctionLifecycle input command f trigger hf =>
    cases hcommand
    have hfound : s.catalog.functionsByID.get? input.functionID = some function := hc.found
    obtain rfl : f = function :=
      Option.some.inj ((getFunction_ok hf).2.1.symm.trans hfound)
    have hid : f.id = input.functionID := ((catalogInv_reachable hr).functions _ _ hfound).1
    have hlife : f.lifecycle = input.lifecycle := heq
    refine ⟨⟨input, f, rfl, hfound, hlife⟩, fun r hmem => ?_⟩
    rw [Plan.affectedResources, List.mem_singleton, if_pos hlife, ← hid] at hmem
    rw [hmem]
    exact .function f (hid ▸ hfound)
  | _ => cases hcommand

/-- A commit of a plan changes the stores. -/
theorem commit_changes {reply : Reply} (hr : s.Reachable)
    (hc : Commit s plan.storeCommand reply s') : s' ≠ s := by
  intro h
  cases plan with
  | createFunction prepared =>
    cases hc with
    | functionCreated _ hc =>
      have hnew := hc.newID
      rw [← h] at hnew
      simp [Catalog.addFunction] at hnew
  | setFunctionLifecycle input command revision =>
    cases hc with
    | lifecycleSet _ function hc hne hv =>
      have hid : function.id = input.functionID :=
        ((catalogInv_reachable hr).functions _ _ hc.found).1
      have hfound := hc.found
      rw [← h] at hfound
      have hset : some (relifedFunction function (setLifecycleCommand input command)) =
          some function := by
        rw [← hfound, show (setLifecycleCommand input command).functionID = function.id from hid.symm]
        exact (GoMap.get?_set_self _ _ _).symm
      exact hne (congrArg Function.lifecycle (Option.some.inj hset)).symm
  | rotateInvocationToken prepared =>
    cases hc with
    | tokenRotated _ triggerID trigger hc =>
      have hfound := hc.found
      rw [← h] at hfound
      have hset : some (rotatedTrigger trigger (rotateTokenCommand prepared)) = some trigger := by
        rw [← hfound]
        exact (GoMap.get?_set_self _ _ _).symm
      exact hc.fresh (congrArg HTTPTrigger.tokenVerifierDigest (Option.some.inj hset)).symm
  | createVersion prepared =>
    cases hc with
    | versionCreated _ function hc =>
      have hnew := hc.newID
      rw [← h] at hnew
      simp [ReleaseStore.addVersion] at hnew
  | publishRoute prepared current =>
    cases hc with
    | routePublished _ function hc =>
      have hnew := hc.unused
      rw [← h] at hnew
      simp [RouteStore.putRoute] at hnew

/-- After a commit the resources are there as the plan has listed them. -/
theorem present_committed {reply : Reply} (hr : s.Reachable) (hp : Planned s input plan)
    (hc : Commit s plan.storeCommand reply s') :
    ∀ r ∈ plan.affectedResources, Present s' r := by
  have hinv := catalogInv_reachable hr
  intro r hmem
  cases hp with
  | createFunction input prepared =>
    cases hc with
    | functionCreated _ hc =>
      simp only [Plan.affectedResources, List.mem_cons, List.not_mem_nil, or_false] at hmem
      rcases hmem with rfl | rfl
      · exact .function prepared.view.function (GoMap.get?_set_self _ _ _)
      · exact .httpTrigger prepared.view.trigger (GoMap.get?_set_self _ _ _)
  | setFunctionLifecycle input command f trigger hf =>
    cases hc with
    | lifecycleSet _ function hc hne hv =>
      have hfound : s.catalog.functionsByID.get? input.functionID = some function := hc.found
      obtain rfl : f = function := Option.some.inj ((getFunction_ok hf).2.1.symm.trans hfound)
      have hid : f.id = input.functionID := (hinv.functions _ _ hfound).1
      have hrev : f.resourceRevision = input.expectedResourceRevision := hc.revision
      have hlife : f.lifecycle ≠ input.lifecycle := hne
      rw [Plan.affectedResources, List.mem_singleton, if_neg hlife, ← hid, ← hrev] at hmem
      rw [hmem]
      exact .function (relifedFunction f (setLifecycleCommand input command))
        (GoMap.get?_set_self _ _ _)
  | rotateInvocationToken prepared function trigger h hid =>
    cases hc with
    | tokenRotated _ triggerID found hc =>
      have hindexed : s.catalog.triggerIDByFunc.get? prepared.input.functionID = some triggerID :=
        hc.indexed
      have htrigger := (getFunction_ok h).2.2
      rw [hindexed, Option.getD_some, hc.found] at htrigger
      obtain rfl := Option.some.inj htrigger
      have htid : found.id = triggerID := (hinv.triggers _ _ hc.found).1
      have hrev : found.resourceRevision = prepared.input.expectedResourceRevision := hc.revision
      rw [Plan.affectedResources, List.mem_singleton, hid, ← hrev] at hmem
      rw [hmem]
      refine .httpTrigger (rotatedTrigger found (rotateTokenCommand prepared)) ?_
      rw [show (rotatedTrigger found (rotateTokenCommand prepared)).id = triggerID from htid]
      exact GoMap.get?_set_self _ _ _
  | createVersion input prepared =>
    cases hc with
    | versionCreated _ function hc =>
      rw [Plan.affectedResources, List.mem_singleton] at hmem
      rw [hmem]
      exact .version prepared.version (GoMap.get?_set_self _ _ _)
  | publishRoute prepared current trigger h =>
    cases hc with
    | routePublished _ function hc =>
      have hfound : s.catalog.functionsByID.get? prepared.input.functionID = some function :=
        hc.found
      obtain rfl : current = function :=
        Option.some.inj ((getFunction_ok h).2.1.symm.trans hfound)
      simp only [Plan.affectedResources, List.mem_cons, List.not_mem_nil, or_false] at hmem
      rcases hmem with rfl | rfl
      · exact .route current.id prepared.route (GoMap.get?_set_self _ _ _)
      · exact .function (routedFunction current (publishRouteCommand prepared))
          (GoMap.get?_set_self _ _ _)

/-! ## Committing -/

theorem exec_capture (m : Op GoError Stores (Option View)) (s : Stores) (view : Option View) :
    exec (capture m) (s, view) =
      match exec m s with
      | (.ok v, t) => (.ok (), (t, v))
      | (.error e, t) => (.error e, (t, view)) := by
  unfold capture
  rw [exec_bind, exec_onPart]
  rcases exec m s with ⟨e | v, t⟩
  · rfl
  · rfl

/-- **What a commit can do**: the phase it leads to, and the controller it leaves. -/
inductive Commits (c : Controller σ) (operation : Operation) (request : Request) (plan : Plan) :
    Phase × Controller σ → Prop
  /-- A failure that is not terminal, or that the ledger would not take. -/
  | unrecorded (err : GoError) :
      Commits c operation request plan (.replying operation none none (some err), c)
  | failed (err : GoError) (completion : Completion) (d : SHA256)
      (hi : Insertable c.ledger completion d) (hkey : completion.key = operation.key)
      (hrequest : completion.request = request) (hout : completion.outcome = failedOutcome err)
      (result : CompletionResult) (hres : result.disposition = .applied) :
      Commits c operation request plan (.replying operation (some result) none (some err),
        { c with ledger := c.ledger.insert completion d })
  | succeeded (view : Option View) (stores : Stores) (d : SHA256)
      (hi : Insertable c.ledger (plan.completion operation.key request) d)
      (hs : Performs c.stores plan.storeCommand stores) (result : CompletionResult)
      (hres : result.disposition = .applied) :
      Commits c operation request plan (.replying operation (some result) view none,
        { c with ledger := c.ledger.insert (plan.completion operation.key request) d,
                 stores := stores })

section

variable (c : Controller σ) (operation : Operation) (request : Request) (plan : Plan)

theorem commits_failure (err : GoError) (hnew : c.ledger.records.get? operation.key = none) :
    Commits c operation request plan
      (let recorded := recordOperationFailure c.ledger (plan.completion operation.key request) err
      (.replying operation recorded.1.1 none recorded.1.2, { c with ledger := recorded.2 })) := by
  unfold recordOperationFailure
  split
  · have hstep := completes c.ledger () { plan.completion operation.key request with
      outcome := failedOutcome err } none
    rw [show Ledger.complete { plan.completion operation.key request with
      outcome := failedOutcome err } = Ledger.completeWith (τ := Unit) _ none from rfl]
    generalize exec (Ledger.completeWith _ none) (c.ledger, ()) = r at hstep
    cases hstep with
    | rejected | aborted => exact .unrecorded _
    | replayed current h hd => cases hnew.symm.trans h
    | stored t d hi ha => exact .failed err _ d hi rfl rfl rfl _ rfl
  · exact .unrecorded err

theorem commits (hnew : c.ledger.records.get? operation.key = none)
    (hp : Planned c.stores operation.input plan) :
    Commits c operation request plan (c.commit operation request plan) := by
  unfold Controller.commit
  dsimp only
  have hstep := completes c.ledger (c.stores, (none : Option View))
    (plan.completion operation.key request) (some (capture plan.apply))
  rw [show Ledger.completeAfter (plan.completion operation.key request)
    (some (capture plan.apply)) = Ledger.completeWith _ (some (capture plan.apply)) from rfl]
  generalize exec (Ledger.completeWith _ _) _ = r at hstep
  have hatomic := atomic_apply hp
  rw [Atomic] at hatomic
  cases hstep with
  | rejected e => exact commits_failure c operation request plan e hnew
  | replayed current h hd => cases hnew.symm.trans h
  | aborted m e t d hi ha hm =>
    -- the store command has failed, so the stores are as they were
    cases ha
    rw [exec_capture] at hm
    rcases he : exec plan.apply c.stores with ⟨e' | v, s'⟩
    · rw [he] at hm hatomic
      obtain rfl : s' = c.stores := hatomic
      cases hm
      exact commits_failure c operation request plan e hnew
    · rw [he] at hm
      cases hm
  | stored t d hi ha =>
    rcases ha with ⟨h, -⟩ | ⟨m, hm, hok⟩
    · cases h
    · cases hm
      rw [exec_capture] at hok
      rcases he : exec plan.apply c.stores with ⟨e | v, s'⟩
      · rw [he] at hok
        cases hok
      · rw [he] at hok hatomic
        cases hok
        exact .succeeded v s' d hi hatomic _ rfl

end

end MiniCloud.LocalController
