import MiniCloud.Proof.AdmissionSteps
import MiniCloud.Proof.Operations
import MiniCloud.Proof.RouteInv

/-!
# Replays of a publication

The record of a publication is frozen when it commits. The Route a replay returns beside it is
read at the time of the replay, from a store that keeps one Route for each Function. The two fit
exactly as long as the Function has not been given another Route.
-/

namespace MiniCloud.LocalController

open Lib Problem Digest Model ControlPlane Op

variable {σ : Type} {src : Sources σ}

variable {d policy : SHA256} {s : Stores} {input : OperationInput} {request : Request} {plan : Plan}
  {prepared : PreparedRoute} {current : Function}

/-! ## Publications -/

def System.route (s : System σ) (functionID : GoString) : Option Route :=
  s.controller.stores.routes.routes.get? functionID

/-- The step commits a new Route of the Function. -/
structure Publishes (functionID : GoString) (e : ControllerEvent σ) : Prop where
  commit : e.input = .commit
  held : ∃ operation request plan input, e.pre.holder = some (.prepared operation request plan) ∧
    operation.input = .publishRoute input ∧ input.functionID = functionID
  mutates : Mutates e

/-- What a write does to the Route of one Function. -/
theorem performs_route {s' : Stores} (hr : s.Reachable) (hp : Planned s input plan)
    (hs : Performs s plan.storeCommand s') (functionID : GoString) :
    (s'.routes.routes.get? functionID = s.routes.routes.get? functionID ∧
        ∀ i, input = .publishRoute i → i.functionID ≠ functionID) ∨
      ∃ prepared current, plan = .publishRoute prepared current ∧
        input = .publishRoute prepared.input ∧ prepared.input.functionID = functionID ∧
        current.id = functionID ∧ s'.routes.routes.get? functionID = some prepared.route ∧
        ∀ old, s.routes.routes.get? functionID = some old →
          old.routeRevision < prepared.route.routeRevision := by
  obtain ⟨reply, -, hs⟩ := hs
  cases hp with
  | createFunction input prepared =>
    cases hs with
    | committed _ _ _ hc => cases hc with | functionCreated => exact .inl ⟨rfl, nofun⟩
  | setFunctionLifecycle input command function trigger h =>
    cases hs with
    | kept => exact .inl ⟨rfl, nofun⟩
    | committed _ _ _ hc => cases hc with | lifecycleSet => exact .inl ⟨rfl, nofun⟩
  | rotateInvocationToken prepared function trigger h hid =>
    cases hs with
    | committed _ _ _ hc => cases hc with | tokenRotated => exact .inl ⟨rfl, nofun⟩
  | createVersion input prepared =>
    cases hs with
    | committed _ _ _ hc => cases hc with | versionCreated => exact .inl ⟨rfl, nofun⟩
  | publishRoute prepared current trigger h =>
    cases hs with
    | committed _ _ _ hc =>
      cases hc with
      | routePublished _ function hc =>
        have hfound : s.catalog.functionsByID.get? prepared.input.functionID = some function :=
          hc.found
        obtain rfl : current = function :=
          Option.some.inj ((getFunction_ok h).2.1.symm.trans hfound)
        have hid : current.id = prepared.input.functionID :=
          ((catalogInv_reachable hr).functions _ _ hfound).1
        by_cases hf : prepared.input.functionID = functionID
        · subst hf
          refine .inr ⟨prepared, current, rfl, rfl, rfl, hid, ?_, ?_⟩
          · show (s.routes.routes.set current.id prepared.route).get? _ = _
            rw [hid]
            exact GoMap.get?_set_self _ _ _
          · intro old hold
            -- the old Route is the one the Function points at
            obtain ⟨-, f, hf, hactive⟩ := (routeInv_reachable hr).routed _ _ hold
            obtain rfl : f = current := Option.some.inj (hf.symm.trans hfound)
            have hrev : prepared.route.routeRevision = f.activeRouteRevision + 1 := hc.revision
            rw [hrev, ← hactive, UInt64.lt_iff_toNat_lt,
              toNat_succ (succ_ne_zero hc.unexhausted.1)]
            exact Nat.lt_succ_self _
        · refine .inl ⟨?_, ?_⟩
          · show (s.routes.routes.set current.id prepared.route).get? _ = _
            rw [hid]
            exact GoMap.get?_set_ne _ _ (Ne.symm hf)
          · rintro i heq
            cases heq
            exact hf

/-- **One step**: the Route of a Function changes exactly by a publication, to a later one. -/
theorem step_route (src : Sources σ) {s : System σ} (hi : SystemInv s) (move : Move σ) (functionID : GoString) :
    (¬ Publishes functionID ((controllerMachine src).event s move) ∧
        ((controllerMachine src).step s move).2.route functionID = s.route functionID) ∨
      (Publishes functionID ((controllerMachine src).event s move) ∧
        ∃ route, ((controllerMachine src).step s move).2.route functionID = some route ∧
          ∀ old, s.route functionID = some old → old.routeRevision < route.routeRevision) := by
  have hstep : Effect s move ((controllerMachine src).step s move).2 := effect hi move
  have hevent : (controllerMachine src).event s move =
      ⟨s, move, ((controllerMachine src).step s move).1, ((controllerMachine src).step s move).2⟩ := rfl
  rw [hevent]
  generalize ((controllerMachine src).step s move).1 = output
  generalize ((controllerMachine src).step s move).2 = s' at hstep ⊢
  cases hstep with
  | quiet _ s' hk hh =>
    have hs : s'.controller.stores = s.controller.stores := congrArg Prod.fst hk
    exact .inl ⟨fun h => h.mutates hs, by rw [System.route, System.route, hs]⟩
  | admitted admission lastCommand sources =>
    refine .inl ⟨fun h => ?_, ?_⟩
    · cases h.commit
    · exact congrArg (fun r => RouteStore.routes r |>.get? functionID)
        (admission_frame s.controller.stores admission).2
  | committed operation request plan hheld phase c hc =>
    obtain ⟨-, -, hplan⟩ := hi.holder _ hheld
    have hsame : c.stores = s.controller.stores →
        ¬ Publishes functionID ⟨s, .commit, output, ⟨c, some phase⟩⟩ ∧
          System.route ⟨c, some phase⟩ functionID = s.route functionID :=
      fun hs => ⟨fun h => h.mutates hs, by rw [System.route, System.route, hs]⟩
    cases hc with
    | unrecorded | failed => exact .inl (hsame rfl)
    | succeeded view stores d hins hs result hres =>
      rcases performs_route hi.stores hplan hs functionID with ⟨hroute, hother⟩ | hpublished
      · refine .inl ⟨fun h => ?_, hroute⟩
        obtain ⟨operation', request', plan', input, hheld', hinput, hid⟩ := h.held
        have heq : s.holder = some (.prepared operation' request' plan') := hheld'
        cases hheld.symm.trans heq
        exact hother input hinput hid
      · obtain ⟨prepared, current, rfl, hinput, hid, -, hroute, hold⟩ := hpublished
        refine .inr ⟨⟨rfl, ⟨operation, request, _, prepared.input, hheld, hinput, hid⟩, ?_⟩,
          prepared.route, hroute, hold⟩
        -- the store has never seen this Route, so it has changed
        intro hsame
        have hsame : stores = s.controller.stores := hsame
        rw [hsame] at hroute
        exact UInt64.lt_irrefl _ (hold _ hroute)

/-- **A whole run**: the Route stays until the next publication, and is a later one after it. -/
theorem run_route {sources : σ} {s : System σ} {functionID : GoString} {route : Route}
    (hr : (controllerMachine src).Reachable (newSystem sources) s)
    (h : s.route functionID = some route) (moves : List (Move σ)) :
    ∃ current, ((controllerMachine src).run s moves).route functionID = some current ∧
      route.routeRevision ≤ current.routeRevision ∧
      ((∀ e ∈ (controllerMachine src).events s moves, ¬ Publishes functionID e) → current = route) ∧
      ((∃ e ∈ (controllerMachine src).events s moves, Publishes functionID e) →
        route.routeRevision < current.routeRevision) := by
  induction moves generalizing s route with
  | nil =>
    refine ⟨route, h, UInt64.le_refl _, fun _ => rfl, ?_⟩
    rintro ⟨e, he, -⟩
    cases he
  | cons move moves ih =>
    have hr' := hr.tail move
    rcases step_route src (systemInv_reachable hr) move functionID with
      ⟨hnot, hsame⟩ | ⟨hpub, new, hnew, hlater⟩
    · obtain ⟨current, hcurrent, hle, hnone, hsome⟩ := ih hr' (hsame.trans h)
      refine ⟨current, hcurrent, hle, fun hall => ?_, ?_⟩
      · exact hnone fun e he => hall e (List.mem_cons_of_mem _ he)
      · rintro ⟨e, he, hp⟩
        rcases List.mem_cons.mp he with rfl | he
        · exact (hnot hp).elim
        · exact hsome ⟨e, he, hp⟩
    · obtain ⟨current, hcurrent, hle, -, -⟩ := ih hr' hnew
      have hlt : route.routeRevision < current.routeRevision := UInt64.lt_of_lt_of_le (hlater _ h) hle
      refine ⟨current, hcurrent, UInt64.le_of_lt hlt, fun hall => ?_, fun _ => hlt⟩
      exact (hall _ List.mem_cons_self hpub).elim

/-! ## What a record lists -/

/-- The record lists this Route, by id and revision. -/
def Lists (r : Record) (route : Route) : Prop :=
  (⟨routeKind, route.id, none, some route.routeRevision⟩ : AffectedResource) ∈
    r.outcome.affectedResources

theorem mem_cloned {r : Record} (ho : r.outcome = cloneOutcome plan.outcome)
    {x : AffectedResource} : x ∈ r.outcome.affectedResources ↔ x ∈ plan.affectedResources := by
  rw [ho]
  exact mem_sortFunc

theorem planned_publication (h : Planned s input (.publishRoute prepared current)) :
    input = .publishRoute prepared.input := by
  cases h
  rfl

/-- Only a publication lists a Route. -/
theorem lists_publication {x : AffectedResource} (hp : Planned s input plan)
    (hx : x ∈ plan.affectedResources) (hk : x.kind = routeKind) :
    ∃ prepared current, plan = .publishRoute prepared current ∧
      input = .publishRoute prepared.input ∧
      x = ⟨routeKind, prepared.route.id, none, some prepared.route.routeRevision⟩ := by
  have hkinds : functionKind ≠ routeKind ∧ httpTriggerKind ≠ routeKind ∧ versionKind ≠ routeKind := by
    decide
  cases hp with
  | createFunction input prepared =>
    simp only [Plan.affectedResources, List.mem_cons, List.not_mem_nil, or_false] at hx
    rcases hx with rfl | rfl
    · exact (hkinds.1 hk).elim
    · exact (hkinds.2.1 hk).elim
  | setFunctionLifecycle input command function trigger h =>
    rw [Plan.affectedResources, List.mem_singleton] at hx
    subst hx
    exact (hkinds.1 hk).elim
  | rotateInvocationToken prepared function trigger h hid =>
    rw [Plan.affectedResources, List.mem_singleton] at hx
    subst hx
    exact (hkinds.2.1 hk).elim
  | createVersion input prepared =>
    rw [Plan.affectedResources, List.mem_singleton] at hx
    subst hx
    exact (hkinds.2.2 hk).elim
  | publishRoute prepared current trigger h =>
    simp only [Plan.affectedResources, List.mem_cons, List.not_mem_nil, or_false] at hx
    rcases hx with rfl | rfl
    · exact ⟨prepared, current, rfl, rfl, rfl⟩
    · exact (hkinds.1 hk).elim

/-- The Function a replay reads is the one that was published to. -/
theorem affectedResourceID_published {r : Record}
    (ho : r.outcome = cloneOutcome (Plan.publishRoute prepared current).outcome) :
    affectedResourceID r.outcome functionKind = .ok current.id := by
  have hlist : ∀ x ∈ r.outcome.affectedResources, x.kind = functionKind → x.id = current.id := by
    intro x hx hk
    have hx := (mem_cloned ho).mp hx
    simp only [Plan.affectedResources, List.mem_cons, List.not_mem_nil, or_false] at hx
    rcases hx with rfl | rfl
    · exact absurd hk (by show routeKind ≠ functionKind; decide)
    · rfl
  have hmem : (⟨functionKind, current.id, some (current.resourceRevision + 1), none⟩ :
      AffectedResource) ∈ r.outcome.affectedResources := by
    refine (mem_cloned ho).mpr ?_
    simp [Plan.affectedResources]
  unfold affectedResourceID
  cases hfind : r.outcome.affectedResources.find? fun x => x.kind = functionKind with
  | none =>
    have hno := List.find?_eq_none.mp hfind _ hmem
    simp at hno
  | some x =>
    have hk : x.kind = functionKind := by simpa using List.find?_some hfind
    simp only [hlist x (List.mem_of_find?_eq_some hfind) hk]

/-! ## Requests -/

theorem validOperationRequest_ok {request' : Request}
    (h : validOperationRequest request = .ok request') : request' = request := by
  obtain ⟨_, -, h⟩ := bind_ok.mp h
  cases h
  rfl

theorem publishRouteRequest_ok {input : PublishRouteInput}
    (h : publishRouteRequest input = .ok request) :
    request.method = "PUT" ∧
      request.path = functionsPath ++ "/" ++ input.functionID ++ routeSuffix := by
  obtain ⟨path, hpath, h⟩ := bind_ok.mp h
  obtain ⟨body, -, h⟩ := bind_ok.mp h
  obtain rfl := validOperationRequest_ok h
  unfold functionPath at hpath
  split at hpath
  · cases hpath
    exact ⟨rfl, rfl⟩
  · cases hpath

/-- A publication is the one write that is a `PUT`. -/
theorem request_put (h : input.request = .ok request)
    (hm : Text.toUpper request.method = Text.toUpper "PUT") :
    ∃ published, input = .publishRoute published := by
  have hpost : Text.toUpper "POST" ≠ Text.toUpper "PUT" := by decide
  have hpatch : Text.toUpper "PATCH" ≠ Text.toUpper "PUT" := by decide
  cases input with
  | createFunction input =>
    obtain ⟨body, -, h⟩ := bind_ok.mp h
    obtain rfl := validOperationRequest_ok h
    exact (hpost hm).elim
  | setFunctionLifecycle input =>
    obtain ⟨path, -, h⟩ := bind_ok.mp h
    obtain ⟨body, -, h⟩ := bind_ok.mp h
    obtain rfl := validOperationRequest_ok h
    exact (hpatch hm).elim
  | rotateInvocationToken input =>
    obtain ⟨path, -, h⟩ := bind_ok.mp h
    obtain rfl := validOperationRequest_ok h
    exact (hpost hm).elim
  | createVersion input =>
    obtain ⟨path, -, h⟩ := bind_ok.mp h
    obtain ⟨body, -, h⟩ := bind_ok.mp h
    obtain rfl := validOperationRequest_ok h
    exact (hpost hm).elim
  | publishRoute input => exact ⟨input, rfl⟩

/-- A write with the digest of a publication is a publication to the same Function, unless
SHA-256 collides on the two requests. -/
theorem publication_of_digest {recorded : OperationInput} {input : PublishRouteInput}
    {a b : Request} (ha : recorded.request = .ok a) (hb : publishRouteRequest input = .ok b)
    (hda : a.digest = .ok d) (hdb : b.digest = .ok d)
    (hcollision : ∀ p q, a.hashed = some p → b.hashed = some q → sum p = sum q → p = q) :
    ∃ published, recorded = .publishRoute published ∧ published.functionID = input.functionID := by
  have hagree := (digest_eq_iff hda hdb hcollision).mp rfl
  obtain ⟨hmethod, hpath⟩ := publishRouteRequest_ok hb
  obtain ⟨published, rfl⟩ := request_put ha (hmethod ▸ hagree.method)
  obtain ⟨-, hpath'⟩ := publishRouteRequest_ok ha
  have hsame := hagree.path
  rw [hpath, hpath'] at hsame
  exact ⟨published, rfl, List.append_cancel_left (List.append_cancel_right hsame)⟩

/-! ## The answer -/

/-- The lock is held by a publication that will be answered by a Succeeded record. -/
structure ReplaysRoute (s : System σ) (operation : Operation) (input : PublishRouteInput)
    (result : CompletionResult) : Prop where
  holder : ∃ view, s.holder = some (.replying operation (some result) view none)
  asks : operation.input = .publishRoute input
  replay : result.disposition ≠ .applied
  succeeded : result.record.outcome.status = .succeeded

/-- The answer carries a Route, and it is the one the record lists. -/
def AnswersListed (s : System σ) (result : CompletionResult) : Prop :=
  ∃ route function, s.reply.1 = .answered ⟨some result, some (.route route function), none⟩ ∧
    Lists result.record route

theorem reply_replaysRoute {s : System σ} {operation : Operation} {input : PublishRouteInput}
    {result : CompletionResult} (h : ReplaysRoute s operation input result) :
    s.reply.1 = .answered (replayedRouteResult s.controller.stores result) := by
  obtain ⟨view, hholder⟩ := h.holder
  unfold System.reply
  simp only [hholder, Operation.answer, h.asks, OperationInput.result, if_neg h.replay]

/-- A replay reads the current Route of the Function, and always finds it. -/
theorem replayedRouteResult_current (hr : s.Reachable) {result : CompletionResult}
    {functionID : GoString} {route : Route}
    (hid : affectedResourceID result.record.outcome functionKind = .ok functionID)
    (hroute : s.routes.routes.get? functionID = some route) :
    ∃ function, replayedRouteResult s result =
      ⟨some result, some (.route route function), none⟩ := by
  obtain ⟨-, function, hf, -⟩ := (routeInv_reachable hr).routed _ _ hroute
  obtain ⟨trigger, hget, -⟩ := (catalogInv_reachable hr).get hf
  have hpattern : identifierPattern functionID = true := (getFunction_ok hget).1
  have hread : s.routes.get functionID = .ok route := by
    simp only [RouteStore.get, hpattern, hroute]
    rfl
  refine ⟨function, ?_⟩
  unfold replayedRouteResult
  simp only [hid, hget, hread, wrapping, bind, Except.bind]

/--
A replayed publication returns the Route its record lists if and only if the record was written by
a publication and the Function has not been given another Route since. Unless two different
requests have one SHA-256, the record was written by a publication to the same Function.
-/
theorem route_replay_listed (src : Sources σ) (sources : σ) (moves : List (Move σ))
    {operation : Operation} {input : PublishRouteInput} {result : CompletionResult}
    (h : ReplaysRoute ((controllerMachine src).run (newSystem sources) moves) operation input
      result) :
    ∃ before w after, ∃ recorded : Operation,
      (controllerMachine src).events (newSystem sources) moves = before ++ w :: after ∧
      recorded.key = operation.key ∧ Writes w.pre w.input w.post recorded result.record ∧
      (AnswersListed ((controllerMachine src).run (newSystem sources) moves) result ↔
        ∃ published, recorded.input = .publishRoute published ∧
          ∀ e ∈ after, ¬ Publishes published.functionID e) ∧
      ((∀ a b p q, recorded.input.request = .ok a → operation.input.request = .ok b →
          a.hashed = some p → b.hashed = some q → sum p = sum q → p = q) →
        ∃ published, recorded.input = .publishRoute published ∧
          published.functionID = input.functionID) := by
  generalize hfinal : (controllerMachine src).run (newSystem sources) moves = final at h ⊢
  have hreach : (controllerMachine src).Reachable (newSystem sources) final :=
    hfinal ▸ Machine.Reachable.init.run moves
  have hi := systemInv_reachable hreach
  obtain ⟨view, hholder⟩ := h.holder
  have hreplayed : Replayed final.controller.ledger operation result none :=
    (hi.holder _ hholder).2 result rfl h.replay
  -- the step that wrote the record, and the run after it
  obtain ⟨before, w, after, recorded, hevents, hkey, hw, -⟩ :=
    (history sources moves).2 operation.key result.record (hfinal ▸ hreplayed.found)
  obtain ⟨is₁, i, is₂, hmoves, -, hwe, hafter⟩ := Machine.events_split hevents
  have hrun : final = (controllerMachine src).run w.post is₂ := by
    rw [← hfinal, hmoves, Machine.run_append, hwe]
    rfl
  have hwr := (Machine.Reachable.init.run is₁).post hwe
  obtain ⟨plan, hplan, hout, hperforms⟩ := hw.planned h.succeeded
  have hpre : w.pre.controller.stores.Reachable := by
    rw [hwe]
    exact (systemInv_reachable (Machine.Reachable.init.run is₁)).stores
  have hcurrent : ∀ prepared current, plan = .publishRoute prepared current →
      ∃ route function, final.reply.1 = .answered ⟨some result, some (.route route function), none⟩ ∧
        ((∀ e ∈ after, ¬ Publishes prepared.input.functionID e) → route = prepared.route) ∧
        ((∃ e ∈ after, Publishes prepared.input.functionID e) →
          prepared.route.routeRevision < route.routeRevision) := by
    rintro prepared current rfl
    rcases performs_route hpre hplan hperforms prepared.input.functionID with
      ⟨-, hother⟩ | ⟨_, _, heq, -, -, hid, hroute, -⟩
    · exact (hother _ (planned_publication hplan) rfl).elim
    · cases heq
      obtain ⟨route, hfound, -, hsame, hlater⟩ := run_route hwr hroute is₂
      rw [← hrun] at hfound
      rw [← hafter] at hsame hlater
      obtain ⟨function, hanswer⟩ := replayedRouteResult_current hi.stores
        ((affectedResourceID_published hout).trans (congrArg _ hid)) hfound
      exact ⟨route, function, (reply_replaysRoute h).trans (congrArg _ hanswer), hsame, hlater⟩
  refine ⟨before, w, after, recorded, hevents, hkey, hw, ⟨?_, ?_⟩, ?_⟩
  · rintro ⟨route, function, hreply, hlists⟩
    obtain ⟨prepared, current, heq, hinput, hlisted⟩ :=
      lists_publication hplan ((mem_cloned hout).mp hlists) rfl
    obtain ⟨route', function', hreply', -, hlater⟩ := hcurrent prepared current heq
    cases hreply.symm.trans hreply'
    refine ⟨prepared.input, hinput, fun e he hpub => ?_⟩
    have hlt := hlater ⟨e, he, hpub⟩
    injection hlisted with _ _ _ hrev
    rw [Option.some.inj hrev] at hlt
    exact UInt64.lt_irrefl _ hlt
  · rintro ⟨published, hpublished, hnone⟩
    rw [hpublished] at hplan
    cases hplan with
    | publishRoute prepared current trigger hf =>
      obtain ⟨route, function, hreply, hsame, -⟩ := hcurrent prepared current rfl
      refine ⟨route, function, hreply, (mem_cloned hout).mpr ?_⟩
      rw [hsame hnone]
      simp [Plan.affectedResources]
  · intro hcollision
    obtain ⟨b, hb, hdb⟩ := hreplayed.asked
    obtain ⟨a, ha, hda⟩ := hw.asked
    have hb' : publishRouteRequest input = .ok b := by
      rw [h.asks] at hb
      exact hb
    exact publication_of_digest ha hb' hda hdb fun p q => hcollision a b p q ha hb

/-! ## A stale replay -/

/-- The lock is held by a replay whose answer is not the Route its record lists. -/
def System.answersStale (s : System σ) : Bool :=
  match s.holder with
  | some (.replying ⟨_, .publishRoute _⟩ (some result) _ none) =>
    result.disposition = .replay && result.record.outcome.status = .succeeded &&
      match s.reply.1 with
      | .answered ⟨_, some (.route route _), _⟩ =>
        !result.record.outcome.affectedResources.contains
          ⟨routeKind, route.id, none, some route.routeRevision⟩
      | _ => true
  | _ => false

theorem stale_of_answersStale {s : System σ} (h : s.answersStale = true) :
    ∃ operation input result,
      ReplaysRoute s operation input result ∧ ¬ AnswersListed s result := by
  unfold System.answersStale at h
  split at h
  · rename_i key input result view hholder
    simp only [Bool.and_eq_true, decide_eq_true_eq] at h
    obtain ⟨⟨hreplay, hstatus⟩, hroute⟩ := h
    refine ⟨_, input, result, ⟨⟨view, hholder⟩, rfl, by rw [hreplay]; nofun, hstatus⟩, ?_⟩
    rintro ⟨route, function, hreply, hlists⟩
    rw [hreply] at hroute
    exact absurd (List.contains_iff_mem.mpr hlists) (by simpa using hroute)
  · cases h

def sampleBlob : SHA256 := scheme ++ List.replicate 64 0x30

def sampleVersionInput : CreateVersionInput where
  functionID := "function-0"
  artifactDigest := sampleBlob
  manifestDigest := sampleBlob
  toolchain := ⟨"go", "1", "local"⟩
  resourceRequest := ⟨1000000000, 64, 1, 1024, 1024⟩
  requestedCapabilities := none

def sampleVersionCreation : Operation := ⟨sampleKey "op-3", .createVersion sampleVersionInput⟩

def samplePublication (n : UInt64) : PublishRouteInput := ⟨"function-0", "version-3", n⟩

def sampleTime : Time := ⟨1, .utc⟩

def samplePrepared : PreparedVersion where
  createCommand := ⟨6, sampleTime⟩
  startCommand := ⟨7, sampleTime⟩
  validationID := "validation-4"
  version := { createdMetadata "version-3" Model.defaultNamespace ⟨6, sampleTime⟩ with
    functionID := sampleVersionInput.functionID
    versionID := "version-3"
    artifactDigest := sampleBlob
    manifestDigest := sampleBlob
    artifactSize := 1
    abi := abiWASICommandV1
    hostAPIProfile := hostAPIProfileNone
    runtimeFeatureProfile := WasmProfile.featureProfile
    toolchain := sampleVersionInput.toolchain
    admissionEpoch := 1
    resourceRequest := sampleVersionInput.resourceRequest
    requestedCapabilities := []
    state := .uploaded
    validationError := none }

def sampleStarted : Version :=
  startedVersion samplePrepared.version (startValidationCommand samplePrepared.version samplePrepared)

def sampleReport : Validator.Report where
  schemaVersion := Validator.schemaVersion
  validationID := samplePrepared.validationID
  valid := true
  code := Validator.codeOK
  reason := "ok"
  message := "ok"
  artifactDigest := sampleBlob
  artifactSize := 1
  runtimeName := WasmProfile.runtimeName
  runtimeVersion := WasmProfile.runtimeVersion
  runtimeFeatureProfile := WasmProfile.featureProfile
  runtimeEngine := WasmProfile.engineCompiler
  imports := some []
  exports := some []
  compileNanoseconds := 0

def sampleDeployment (policy : SHA256) : Deployment :=
  { createdMetadata "deployment-7" Model.defaultNamespace ⟨9, sampleTime⟩ with
    versionID := "version-3"
    generation := 1
    scalingRevision := 1
    resourceLimits := initialLimits sampleStarted
    grantedCapabilities := []
    effectivePolicyDigest := policy
    minReplicas := 1
    maxReplicas := 1
    desiredReplicas := 1
    readyReplicas := 0
    targetConcurrency := 1
    scalingMode := .manual
    idleTimeout := 0
    desiredPhase := .active }

def sampleCompletion (policy : SHA256) : CompleteValidationCommand :=
  completeValidationCommand sampleStarted sampleReport (some (sampleDeployment policy))
    ⟨9, sampleTime⟩

def sampleUploaded : ReleaseStore := newReleaseStore.addVersion samplePrepared.version

def sampleCatalog : Catalog := (exec samplePlan.apply newStores).2.catalog

def samplePolicy : SHA256 := (initialPolicy sampleStarted).digest.toOption.getD []

/-- Creating the Version, and admitting it. -/
def sampleAdmissionMoves (policy : SHA256) : List (Move ℕ) :=
  [.call none sampleVersionCreation, .prepare, .commit, .reply,
    .admission (.start (startValidationCommand samplePrepared.version samplePrepared))
      ⟨7, sampleTime⟩ 7,
    .admission (.complete (sampleCompletion policy)) ⟨17, sampleTime⟩ 17]

def samplePublish (id : GoString) (n : UInt64) : Operation :=
  ⟨sampleKey id, .publishRoute (samplePublication n)⟩

/-- Two publications, and a call that replays the first. -/
def sampleReplayMoves (policy : SHA256) : List (Move ℕ) :=
  sampleCreationMoves ++ (sampleAdmissionMoves policy ++
    ([.call none (samplePublish "op-4" 0), .prepare, .commit, .reply] ++
      ([.call none (samplePublish "op-5" 1), .prepare, .commit, .reply] ++
        [.call none (samplePublish "op-4" 0)])))

/-- The replay reads the first publication's record next to the second one's Route. -/
theorem sampleReplay_stale : ((controllerMachine sampleSources).run (newSystem 0)
    (sampleReplayMoves samplePolicy)).answersStale = true := by
  decide +kernel

/-- A publication's replay returns another Route than its record lists. -/
theorem route_replay_stale : ∃ moves operation input result,
    ReplaysRoute ((controllerMachine sampleSources).run (newSystem 0) moves) operation input result ∧
      ¬ AnswersListed ((controllerMachine sampleSources).run (newSystem 0) moves) result := by
  obtain ⟨operation, input, result, h, hstale⟩ := stale_of_answersStale sampleReplay_stale
  exact ⟨_, operation, input, result, h, hstale⟩

theorem route_replay_listed_sample : ∃ moves operation input result,
    ReplaysRoute ((controllerMachine sampleSources).run (newSystem 0) moves) operation input result ∧
    ∃ before w after, ∃ recorded : Operation,
      (controllerMachine sampleSources).events (newSystem 0) moves = before ++ w :: after ∧
      recorded.key = operation.key ∧ Writes w.pre w.input w.post recorded result.record ∧
      (AnswersListed ((controllerMachine sampleSources).run (newSystem 0) moves) result ↔
        ∃ published, recorded.input = .publishRoute published ∧
          ∀ e ∈ after, ¬ Publishes published.functionID e) := by
  obtain ⟨operation, input, result, h, -⟩ := stale_of_answersStale sampleReplay_stale
  obtain ⟨before, w, after, recorded, hevents, hkey, hw, hiff, -⟩ :=
    route_replay_listed sampleSources 0 (sampleReplayMoves samplePolicy) h
  exact ⟨_, _, _, _, h, before, w, after, recorded, hevents, hkey, hw, hiff⟩

end MiniCloud.LocalController
