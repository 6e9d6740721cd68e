import MiniCloud.Proof.CatalogInv
import MiniCloud.Proof.ReleaseInv

/-!
# Functions, Routes and the Versions they serve

A Function carries the revision of its current Route; a Route carries the admission epoch, the
generation and the policy digest of the Version it sends traffic to. `RouteInv` says that the
copies agree. It is inductive because a Ready Version is never touched again: the admission
machine has no step out of Ready.
-/

namespace MiniCloud.ControlPlane

open Lib Problem Digest Model

variable {s : Stores} {f : Function} {k : GoString} {r : ReleaseStore}

/-- The target's Version is Ready, belongs to the Function, and is deployed as the target says. -/
structure TargetReady (r : ReleaseStore) (functionID : GoString) (t : RouteTarget)
    (v : Version) (d : Deployment) : Prop where
  version : r.versions.get? t.versionID = some v
  owner : v.functionID = functionID
  ready : v.state = .ready
  epoch : v.admissionEpoch = t.admissionEpoch
  deployment : r.deployments.get? t.versionID = some d
  generation : d.generation = t.deploymentGeneration
  phase : d.desiredPhase = .active
  policy : d.effectivePolicyDigest = t.effectivePolicyDigest

theorem firstTarget_of_core {r : Route} (h : r.validateCore = .ok ()) (he : r.enabled = true) :
    ∃ t, r.targets = [t] ∧ firstTarget r = .ok t := by
  obtain ⟨t, ht⟩ := Route.targets_of_core h he
  exact ⟨t, ht, by rw [firstTarget, ht]⟩

theorem validateReadyTarget_ok {route : Route} {t : RouteTarget}
    (hfirst : firstTarget route = .ok t) : validateReadyTargetLocked r route f = .ok () ↔
      ∃ v d, TargetReady r f.id t v d := by
  rw [validateReadyTargetLocked, hfirst]
  show checks _ = .ok () ↔ _
  rw [checks_ok]
  simp only [List.mem_cons, List.not_mem_nil, or_false, forall_eq_or_imp, forall_eq,
    Bool.not_eq_false', Option.any_eq_true, readyVersionFor, activeDeploymentFor,
    Bool.and_eq_true, beq_iff_eq]
  constructor
  · rintro ⟨⟨v, hv, ⟨h1, h2⟩, h3⟩, d, hd, ⟨h4, h5⟩, h6⟩
    exact ⟨v, d, hv, h1, h2, h3, hd, h4, h5, h6⟩
  · rintro ⟨v, d, h⟩
    exact ⟨⟨v, h.version, ⟨h.owner, h.ready⟩, h.epoch⟩, d, h.deployment,
      ⟨h.generation, h.phase⟩, h.policy⟩

/-- Ready Versions and their Deployments are out of every later commit's reach. -/
theorem ReleaseStep.target {r' : ReleaseStore} (h : ReleaseStep r r') {t : RouteTarget}
    {v : Version} {d : Deployment} (ht : TargetReady r k t v d) : TargetReady r' k t v d := by
  obtain ⟨v', hv', -, hmove⟩ := h.version ht.version
  have hsame : v' = v := by
    rcases hmove with rfl | hadm
    · rfl
    · rw [ht.ready] at hadm
      cases hadm
  have hd := h.deployment ht.version ht.ready ht.deployment
  exact ⟨by rw [hv', hsame], ht.owner, ht.ready, ht.epoch, hd, ht.generation, ht.phase, ht.policy⟩

structure RouteInv (s : Stores) : Prop where
  /-- A Function without Route is at route revision zero. -/
  unrouted : ∀ k f, s.catalog.functionsByID.get? k = some f → s.routes.routes.get? k = none →
    f.activeRouteRevision = 0
  /-- A stored Route is valid and is the one its Function points at. -/
  routed : ∀ k r, s.routes.routes.get? k = some r → r.validateCore = .ok () ∧
    ∃ f, s.catalog.functionsByID.get? k = some f ∧ f.activeRouteRevision = r.routeRevision
  targets : ∀ k r, s.routes.routes.get? k = some r → r.enabled = true → ∀ t ∈ r.targets,
    ∃ v d, TargetReady s.releases k t v d

theorem routeInv_new : RouteInv newStores where
  unrouted := by intro k f h; cases h
  routed := by intro k r h; cases h
  targets := by intro k r h; cases h

/-- A commit to the releases alone. -/
theorem routeInv_releases (h : RouteInv s) (hr : ReleaseStep s.releases r) :
    RouteInv { s with releases := r } where
  unrouted := h.unrouted
  routed := h.routed
  targets := by
    intro k route hk he t ht
    obtain ⟨v, d, htarget⟩ := h.targets k route hk he t ht
    exact ⟨v, d, hr.target htarget⟩

/-- A Function replaced without touching its route pointer. -/
theorem routeInv_putFunction (h : RouteInv s) {g : Function}
    (hf : s.catalog.functionsByID.get? k = some f) (hid : g.id = k)
    (hact : g.activeRouteRevision = f.activeRouteRevision) :
    RouteInv { s with catalog := s.catalog.putFunction g } where
  unrouted := by
    intro k' f' hf' hr
    rcases GoMap.get?_set_cases hf' with ⟨hk, rfl⟩ | ⟨-, hf'⟩
    · obtain rfl := hk.trans hid
      rw [hact]
      exact h.unrouted k' f hf hr
    · exact h.unrouted k' f' hf' hr
  routed := by
    intro k' r hr
    obtain ⟨hcore, f', hf', hrev⟩ := h.routed k' r hr
    refine ⟨hcore, ?_⟩
    rw [Catalog.putFunction, hid, GoMap.get?_set]
    split_ifs with hk
    · subst hk
      cases hf.symm.trans hf'
      exact ⟨g, rfl, hact.trans hrev⟩
    · exact ⟨f', hf', hrev⟩
  targets := h.targets

theorem routeInv_addFunction (h : RouteInv s) {command : CreateFunctionCommand}
    (hc : CreatesFunction s.catalog command) :
    RouteInv { s with catalog := s.catalog.addFunction command.function command.trigger } where
  unrouted := by
    intro k f hf hr
    rcases GoMap.get?_set_cases hf with ⟨-, rfl⟩ | ⟨-, hf⟩
    · exact (validateCreateFunction_ok hc.valid).unrouted
    · exact h.unrouted k f hf hr
  routed := by
    intro k r hr
    obtain ⟨hcore, f, hf, hrev⟩ := h.routed k r hr
    exact ⟨hcore, f, GoMap.get?_set_new hc.newID hf, hrev⟩
  targets := h.targets

theorem validatePublishRoute_ok {command : PublishRouteCommand}
    (h : validatePublishRoute command = .ok ()) :
    command.route.functionID = command.functionID ∧ command.route.validateCore = .ok () := by
  simp only [validatePublishRoute, seq_ok, checks_ok] at h
  obtain ⟨hid, -, hcore, -⟩ := h
  simp at hid
  exact ⟨hid.1.2, hcore⟩

theorem routeInv_publish (hcat : CatalogInv s.catalog) (h : RouteInv s)
    {command : PublishRouteCommand} (hc : PublishesRoute s.catalog s.releases s.routes command f) :
    RouteInv { s with
      catalog := s.catalog.putFunction (routedFunction f command)
      routes := s.routes.putRoute (routedFunction f command).id command.route } := by
  have hid : (routedFunction f command).id = command.functionID := (hcat.functions _ f hc.found).1
  have hcore := (validatePublishRoute_ok hc.valid).2
  refine ⟨?_, ?_, ?_⟩
  · intro k g hg hr
    rw [Catalog.putFunction, hid, GoMap.get?_set] at hg
    rw [RouteStore.putRoute, hid, GoMap.get?_set] at hr
    split_ifs at hg hr with hk
    exact h.unrouted k g hg hr
  · intro k r hr
    rw [RouteStore.putRoute, hid, GoMap.get?_set] at hr
    rw [Catalog.putFunction, hid, GoMap.get?_set]
    split_ifs at hr ⊢ with hk
    · cases hr
      exact ⟨hcore, _, rfl, rfl⟩
    · exact h.routed k r hr
  · intro k r hr he t ht
    rw [RouteStore.putRoute, hid, GoMap.get?_set] at hr
    split_ifs at hr with hk
    · cases hr
      obtain ⟨t', htargets, hfirst⟩ := firstTarget_of_core hcore he
      rw [htargets, List.mem_singleton] at ht
      subst ht
      have hready := (validateReadyTarget_ok hfirst).mp (hc.target he)
      rw [show f.id = command.functionID from hid, ← hk] at hready
      exact hready
    · exact h.targets k r hr he t ht

theorem routeInv_step {s' : Stores} {command : Command} {reply : Reply} (hr : s.Reachable)
    (hc : Commit s command reply s') (h : RouteInv s) : RouteInv s' := by
  have hcat := catalogInv_reachable hr
  have hrel := (releaseStep hc (releaseInv_reachable hr)).2
  cases hc with
  | functionCreated command hc => exact routeInv_addFunction h hc
  | lifecycleSet command f hc hne hv =>
    exact routeInv_putFunction h hc.found (hcat.functions _ f hc.found).1 rfl
  | tokenRotated | assignmentInstalled | assignmentCancelled =>
    exact ⟨h.unrouted, h.routed, h.targets⟩
  | routePublished command f hc => exact routeInv_publish hcat h hc
  | versionCreated | validationStarted | validationFailed | validationPassed =>
    exact routeInv_releases h hrel

theorem routeInv_reachable (h : s.Reachable) : RouteInv s :=
  Stores.invariant (P := RouteInv) routeInv_new (fun _ _ _ _ hr ih hc => routeInv_step hr hc ih) h

/-! ## Serving states -/

/-- A loop whose body never fails returns. -/
theorem mapM_ok {α β : Type} {f : α → Except GoError β} {l : List α}
    (h : ∀ a ∈ l, ∃ b, f a = .ok b) : ∃ bs, l.mapM f = .ok bs := by
  induction l with
  | nil => exact ⟨[], rfl⟩
  | cons a l ih =>
    obtain ⟨b, hb⟩ := h a List.mem_cons_self
    obtain ⟨bs, hbs⟩ := ih fun a ha => h a (List.mem_cons_of_mem _ ha)
    exact ⟨b :: bs, by rw [List.mapM_cons, hb, hbs]; rfl⟩

theorem servingState_ok (hcat : CatalogInv s.catalog) (h : RouteInv s)
    (hf : s.catalog.functionsByID.get? k = some f) :
    ∃ state, servingState s.catalog s.releases s.routes f = .ok state := by
  obtain ⟨rfl, -⟩ := hcat.functions k f hf
  obtain ⟨tid, htid⟩ := Option.isSome_iff_exists.mp ((hcat.indexed f.id).mpr (by rw [hf]; rfl))
  obtain ⟨t, ht, -⟩ := hcat.linked f.id tid htid
  rw [servingState, htid]
  simp only [orError, ht, bind, Except.bind]
  cases hr : s.routes.routes.get? f.id with
  | none =>
    simp only [h.unrouted f.id f hf hr]
    exact ⟨_, rfl⟩
  | some route =>
    obtain ⟨hcore, f', hf', hrev⟩ := h.routed f.id route hr
    cases hf.symm.trans hf'
    simp only [hcore, hrev, wrapping, bne_self_eq_false]
    cases he : route.enabled with
    | false => exact ⟨_, rfl⟩
    | true =>
      -- the invariant hands over the target's Version and Deployment
      obtain ⟨target, htargets, hfirst⟩ := firstTarget_of_core hcore he
      obtain ⟨v, d, hready⟩ := h.targets f.id route hr he target (by rw [htargets]; simp)
      have hval := (validateReadyTarget_ok hfirst).mpr ⟨v, d, hready⟩
      simp only [hval, hfirst, hready.version, hready.deployment]
      exact ⟨_, rfl⟩

theorem servingStates_ok (hcat : CatalogInv s.catalog) (h : RouteInv s) :
    ∃ states, servingStates s.catalog s.releases s.routes = .ok states := by
  obtain ⟨states, hstates⟩ := mapM_ok (l := s.catalog.functionsByID.toList)
    (f := fun p => servingState s.catalog s.releases s.routes p.2)
    fun p hp => servingState_ok hcat h (GoMap.mem_toList.mp hp)
  have hdef : servingStates s.catalog s.releases s.routes =
      (s.catalog.functionsByID.toList.mapM
        fun p => servingState s.catalog s.releases s.routes p.2).bind fun states =>
          .ok (sortFunc (fun a b => compareFunction a.function b.function) states) := rfl
  exact ⟨_, by rw [hdef, hstates]; rfl⟩

/-! ## Publications -/

/-- The Route an event published, with its Function. -/
def publication (e : StoreEvent) : Option (GoString × Route) :=
  match e.input, e.output with
  | .publishRoute command, .ok (.published route _) => some (command.functionID, route)
  | _, _ => none

/-- The Routes published for one Function, oldest first. -/
def publishedRoutes (history : List StoreEvent) (functionID : GoString) : List Route :=
  ((history.filterMap publication).filter fun p => p.1 == functionID).map Prod.snd

/-- The route revision a Function points at; zero when there is no such Function. -/
def activeRevision (s : Stores) (functionID : GoString) : UInt64 :=
  ((s.catalog.functionsByID.get? functionID).map Function.activeRouteRevision).getD 0

theorem activeRevision_putFunction (s : Stores) (g : Function) (k : GoString) (routes : RouteStore) :
    activeRevision { s with catalog := s.catalog.putFunction g, routes := routes } k =
      if k = g.id then g.activeRouteRevision else activeRevision s k := by
  rw [activeRevision, Catalog.putFunction, GoMap.get?_set]
  split_ifs <;> rfl

theorem activeRevision_found (hf : s.catalog.functionsByID.get? k = some f) :
    activeRevision s k = f.activeRouteRevision := by
  rw [activeRevision, hf]
  rfl

/-- What one step publishes, and what it does to the route pointers and the used ids. -/
theorem publication_step (hr : s.Reachable) (command : Command) :
    (publication (storesMachine.event s command) = none ∧
      (∀ k, activeRevision (storesMachine.step s command).2 k = activeRevision s k) ∧
      (storesMachine.step s command).2.routes.routeIDs = s.routes.routeIDs) ∨
    ∃ publish f, command = .publishRoute publish ∧
      PublishesRoute s.catalog s.releases s.routes publish f ∧
      publication (storesMachine.event s command) = some (publish.functionID, publish.route) ∧
      (∀ k, activeRevision (storesMachine.step s command).2 k =
        if k = publish.functionID then publish.route.routeRevision else activeRevision s k) ∧
      (storesMachine.step s command).2.routes.routeIDs =
        s.routes.routeIDs.set publish.route.id () := by
  have hcat := catalogInv_reachable hr
  rcases step_cases s command with ⟨e, he⟩ | ⟨reply, s', he, hs⟩
  · left
    refine ⟨?_, fun k => by rw [he], by rw [he]⟩
    simp only [Machine.event, he, publication]
  simp only [Machine.event, he]
  cases hs with
  | kept command f h heq => exact .inl ⟨rfl, fun _ => rfl, rfl⟩
  | committed _ _ _ hc =>
    cases hc with
    | functionCreated command hc =>
      refine .inl ⟨rfl, ?_, rfl⟩
      intro k
      rw [activeRevision, Catalog.addFunction, GoMap.get?_set]
      split_ifs with hk
      · rw [activeRevision, hk, hc.newID]
        exact (validateCreateFunction_ok hc.valid).unrouted
      · rfl
    | lifecycleSet command f hc hne hv =>
      refine .inl ⟨rfl, ?_, rfl⟩
      intro k
      rw [activeRevision_putFunction s _ k s.routes]
      split_ifs with hk
      · have hid : f.id = command.functionID := (hcat.functions _ f hc.found).1
        rw [hk, show (relifedFunction f command).id = command.functionID from hid,
          activeRevision_found hc.found]
        rfl
      · rfl
    | routePublished command f hc =>
      have hid : (routedFunction f command).id = command.functionID :=
        (hcat.functions _ f hc.found).1
      refine .inr ⟨command, f, rfl, hc, rfl, ?_, rfl⟩
      intro k
      rw [activeRevision_putFunction, hid]
      rfl
    | _ => exact .inl ⟨rfl, fun _ => rfl, rfl⟩

theorem publishedRoutes_append (history : List StoreEvent) (e : StoreEvent) (k : GoString) :
    publishedRoutes (history ++ [e]) k = publishedRoutes history k ++
      match publication e with
      | none => []
      | some p => if p.1 = k then [p.2] else [] := by
  cases hp : publication e with
  | none => simp [publishedRoutes, hp]
  | some p => by_cases hk : p.1 = k <;> simp [publishedRoutes, hp, hk]

/-- The publications of one Function are numbered from one up to its current revision. -/
theorem publishedRoutes_revisions (commands : List Command) (k : GoString) :
    (publishedRoutes (storesMachine.events newStores commands) k).map
        (fun r => r.routeRevision.toNat) =
      List.range' 1 (activeRevision (storesMachine.run newStores commands) k).toNat := by
  refine Machine.trace (P := fun history s => (publishedRoutes history k).map
    (fun r => r.routeRevision.toNat) = List.range' 1 (activeRevision s k).toNat) rfl ?_ commands
  intro history s command hr ih
  rcases publication_step hr command with ⟨hnone, hact, -⟩ | ⟨publish, f, -, hc, hsome, hact, -⟩
  · rw [publishedRoutes_append, hnone, hact]
    simpa using ih
  · rw [publishedRoutes_append, hsome, hact]
    by_cases hk : k = publish.functionID
    · subst hk
      have hcur := activeRevision_found hc.found
      have hnext : publish.route.routeRevision.toNat = f.activeRouteRevision.toNat + 1 := by
        rw [hc.revision, toNat_succ (succ_ne_zero hc.unexhausted.1)]
      rw [hcur] at ih
      simp only [if_true, List.map_append, ih, List.map_cons, List.map_nil, hnext,
        List.range'_concat]
      congr 2
      omega
    · simp only [if_neg hk, if_neg (Ne.symm hk), List.append_nil]
      exact ih

/-- No Route id is published twice, by whatever Function. -/
theorem published_ids (commands : List Command) :
    (((storesMachine.events newStores commands).filterMap publication).map
      fun p => p.2.id).Nodup := by
  -- every published id is on record as used
  suffices h : (((storesMachine.events newStores commands).filterMap publication).map
        fun p => p.2.id).Nodup ∧
      ∀ p ∈ (storesMachine.events newStores commands).filterMap publication,
        ((storesMachine.run newStores commands).routes.routeIDs.get? p.2.id).isSome from h.1
  refine Machine.trace (P := fun history s =>
      ((history.filterMap publication).map fun p => p.2.id).Nodup ∧
      ∀ p ∈ history.filterMap publication, (s.routes.routeIDs.get? p.2.id).isSome)
    ⟨List.nodup_nil, by simp⟩ ?_ commands
  rintro history s command hr ⟨hnodup, hused⟩
  rcases publication_step hr command with ⟨hnone, -, hids⟩ | ⟨publish, f, -, hc, hsome, -, hids⟩
  · simp only [List.filterMap_append, List.filterMap_cons, hnone, List.filterMap_nil,
      List.append_nil, hids]
    exact ⟨hnodup, hused⟩
  · rw [List.filterMap_append, List.filterMap_cons, hsome, hids]
    simp only [List.filterMap_nil, List.map_append, List.map_cons, List.map_nil, List.mem_append,
      List.mem_singleton]
    refine ⟨?_, ?_⟩
    · rw [List.nodup_append]
      refine ⟨hnodup, List.nodup_singleton _, ?_⟩
      intro id hid id' hid'
      obtain ⟨p, hp, rfl⟩ := List.mem_map.mp hid
      obtain rfl := List.mem_singleton.mp hid'
      intro heq
      have := hused p hp
      rw [heq, hc.unused] at this
      cases this
    · rintro p (hp | rfl)
      · rw [GoMap.get?_set]
        split_ifs
        · rfl
        · exact hused p hp
      · simp

/-- The event is a successful publication for `k` at the expected revision `r`. -/
def publishesAt (k : GoString) (r : UInt64) (e : StoreEvent) : Bool :=
  match e.input, e.output with
  | .publishRoute command, .ok _ =>
    command.functionID == k && command.expectedActiveRouteRevision == r
  | _, _ => false

theorem publishesAt_publication {command : Command} {r : UInt64}
    (h : publishesAt k r (storesMachine.event s command) = true) :
    ∃ route, publication (storesMachine.event s command) = some (k, route) ∧
      route.routeRevision = r + 1 := by
  rcases step_cases s command with ⟨e, he⟩ | ⟨reply, s', he, hs⟩
  · simp [publishesAt, Machine.event, he] at h
  · simp only [Machine.event, he] at h ⊢
    cases hs with
    | kept => cases h
    | committed _ _ _ hc =>
      cases hc with
      | routePublished command f hc =>
        simp only [publishesAt, Bool.and_eq_true, beq_iff_eq] at h
        obtain ⟨rfl, rfl⟩ := h
        exact ⟨command.route, rfl, by rw [hc.revision, hc.expected]⟩
      | _ => cases h

/-- At most one publication succeeds at one expected revision of one Function. -/
theorem publishesAt_once (commands : List Command) (k : GoString) (r : UInt64) :
    ((storesMachine.events newStores commands).filter (publishesAt k r)).length ≤ 1 := by
  have hnodup : (publishedRoutes (storesMachine.events newStores commands) k).Pairwise
      fun a b => a.routeRevision ≠ b.routeRevision := by
    have hrange : ((publishedRoutes (storesMachine.events newStores commands) k).map
        fun r => r.routeRevision.toNat).Nodup := by
      rw [publishedRoutes_revisions]
      exact List.nodup_range'
    exact (List.pairwise_map.mp hrange).imp fun hne heq => hne (by rw [heq])
  rw [publishedRoutes, List.pairwise_map, List.pairwise_filter, List.pairwise_filterMap] at hnodup
  have hpair := hnodup.filter (publishesAt k r)
  -- two of them would carry the same revision
  have hspec : ∀ e ∈ (storesMachine.events newStores commands).filter (publishesAt k r),
      ∃ route, publication e = some (k, route) ∧ route.routeRevision = r + 1 := by
    intro e he
    obtain ⟨hmem, hat⟩ := List.mem_filter.mp he
    obtain ⟨-, heq⟩ := Machine.event_reachable .init hmem
    rw [heq] at hat ⊢
    exact publishesAt_publication hat
  generalize (storesMachine.events newStores commands).filter (publishesAt k r) = l at hpair hspec
  match l with
  | [] => exact Nat.zero_le _
  | [e] => exact le_refl _
  | e :: e' :: rest =>
    obtain ⟨route, hroute, hrev⟩ := hspec e (by simp)
    obtain ⟨route', hroute', hrev'⟩ := hspec e' (by simp)
    have hne := (List.pairwise_cons.mp hpair).1 e' (by simp) _ hroute _ hroute' (by simp) (by simp)
    exact absurd (hrev.trans hrev'.symm) hne

/--
**Functions, Routes and Versions stay in step.** After every sequence of commands: a Function
points at the revision of its stored Route, and at zero exactly when it has none; every target of
an enabled Route names a Ready Version of that Function with the epoch, generation and policy
digest that are stored; the serving states can be read without any invariant error. Over the whole
history: the publications of a Function are numbered 1, 2, 3, …; no Route id is published twice;
and at most one publication succeeds at one expected revision of one Function.
-/
theorem route_aggregate (commands : List Command) :
    let s := storesMachine.run newStores commands
    let history := storesMachine.events newStores commands
    (∀ k f, s.catalog.functionsByID.get? k = some f →
      f.activeRouteRevision = ((s.routes.routes.get? k).map Route.routeRevision).getD 0 ∧
      (f.activeRouteRevision = 0 ↔ s.routes.routes.get? k = none)) ∧
    (∀ k r, s.routes.routes.get? k = some r → (s.catalog.functionsByID.get? k).isSome) ∧
    (∀ k r, s.routes.routes.get? k = some r → r.enabled = true → ∀ t ∈ r.targets,
      ∃ v d, TargetReady s.releases k t v d) ∧
    (∃ states, servingStates s.catalog s.releases s.routes = .ok states) ∧
    (∀ k, (publishedRoutes history k).map (fun r => r.routeRevision.toNat) =
      List.range' 1 (publishedRoutes history k).length) ∧
    ((history.filterMap publication).map fun p => p.2.id).Nodup ∧
    ∀ k r, (history.filter (publishesAt k r)).length ≤ 1 := by
  intro s history
  have hr : s.Reachable := Machine.Reachable.init.run commands
  have hcat := catalogInv_reachable hr
  have h := routeInv_reachable hr
  refine ⟨?_, ?_, h.targets, servingStates_ok hcat h, ?_, published_ids commands,
    publishesAt_once commands⟩
  · intro k f hf
    cases hroute : s.routes.routes.get? k with
    | none => simp [h.unrouted k f hf hroute]
    | some r =>
      obtain ⟨hcore, f', hf', hrev⟩ := h.routed k r hroute
      cases hf.symm.trans hf'
      simp [hrev, Route.routeRevision_ne_zero hcore]
  · intro k r hroute
    obtain ⟨-, f, hf, -⟩ := h.routed k r hroute
    rw [hf]
    rfl
  · intro k
    have hrev := publishedRoutes_revisions commands k
    have hlen := congrArg List.length hrev
    rw [List.length_map, List.length_range'] at hlen
    rw [hlen]
    exact hrev

end MiniCloud.ControlPlane
