import MiniCloud.Discovery.Builder
import MiniCloud.Proof.Snapshot

/-!
# What a build yields

`build_ok` says when `Build` succeeds and with which result, as a closed form of the input; the
loop with its accumulator does not show any more. Three facts carry it. The tests that exclude a
candidate are together the conjunction `Includable` (`exclusionReasons_nil`). What the builder
includes passes the separately written tests of `Snapshot.Validate`, so the last validation cannot
fail. And the orders the builder sorts by tell apart whatever distinct keys tell apart, so the
order of the input is lost.
-/

namespace MiniCloud.Discovery

open Lib Problem Digest Model ServingAuth

/-! ## Orders -/

instance : Std.TransCmp compareRouteTargets :=
  inferInstanceAs (Std.TransCmp
    (compareLex (compareOn RouteTarget.versionID) (compareOn RouteTarget.deploymentGeneration)))

instance : Std.TransCmp compareEndpointIdentity :=
  inferInstanceAs (Std.TransCmp (compareLex (compareOn AssignmentIdentity.versionID) <|
    compareLex (compareOn AssignmentIdentity.deploymentGeneration) <|
    compareLex (compareOn AssignmentIdentity.assignmentID) <|
    compareLex (compareOn fun a => a.worker.workerID) <|
    compareLex (compareOn fun a => a.worker.bootID) (compareOn fun a => a.worker.sessionEpoch)))

instance : Std.TransCmp compareEndpoints :=
  transCmp_comap compareEndpointIdentity Endpoint.assignment

instance : Std.TransCmp compareCandidates :=
  transCmp_comap compareEndpointIdentity EndpointCandidate.assignment

theorem compareRouteTargets_eq {a b : RouteTarget} (h : compareRouteTargets a b = .eq) :
    a.versionID = b.versionID ∧ a.deploymentGeneration = b.deploymentGeneration := by
  simp only [compareRouteTargets, compareLex, compareOn, Ordering.then_eq_eq,
    Std.LawfulEqOrd.compare_eq_iff_eq] at h
  exact h

theorem compareEndpointIdentity_eq {a b : AssignmentIdentity}
    (h : compareEndpointIdentity a b = .eq) : a.assignmentID = b.assignmentID := by
  simp only [compareEndpointIdentity, compareLex, compareOn, Ordering.then_eq_eq,
    Std.LawfulEqOrd.compare_eq_iff_eq] at h
  exact h.2.2.1

/-! ## Targets -/

theorem totalWeight_perm {l l' : List RouteTarget} (h : l.Perm l') :
    totalWeight l = totalWeight l' := by
  have hcomm : RightCommutative fun (total : UInt32) (t : RouteTarget) =>
      total + t.weightBasisPoints := ⟨fun _ _ _ => by ac_rfl⟩
  exact h.foldl_eq 0

theorem route_keys_nodup {r : Route} {functionID : GoString} (h : r.validate functionID = .ok ()) :
    (r.targets.map RouteTarget.key).Nodup := by
  cases hpresent : r.present with
  | false =>
    rw [route_absent h hpresent]
    exact List.nodup_nil
  | true => exact ((route_published hpresent).mp h).distinct

/-- The validator of a Route does not look at the order of its targets. -/
theorem route_validate_perm {r : Route} {functionID : GoString} {targets : List RouteTarget}
    (hperm : r.targets.Perm targets) (h : r.validate functionID = .ok ()) :
    ({ r with targets := targets } : Route).validate functionID = .ok () := by
  by_cases hpresent : r.present = true
  · have hr := (route_published hpresent).mp h
    have hempty : targets ≠ [] ↔ r.targets ≠ [] :=
      not_congr ⟨fun hnil => (hnil ▸ hperm).eq_nil, fun hnil => (hnil ▸ hperm).nil_eq.symm⟩
    refine (route_published (r := { r with targets := targets }) hpresent).mpr
      { hr with
        bounded := hperm.length_eq ▸ hr.bounded
        enabled := hr.enabled.trans hempty.symm
        affinity := hr.affinity
        targets := fun t ht => hr.targets t (hperm.mem_iff.mpr ht)
        distinct := (hperm.map _).nodup_iff.mp hr.distinct
        weights := fun hne => (totalWeight_perm hperm).symm.trans (hr.weights (hempty.mp hne)) }
  · have hnil : r.targets = [] := by rw [route_absent h (Bool.eq_false_iff.mpr hpresent)]
    have htargets : targets = r.targets := (hnil ▸ hperm).nil_eq.symm.trans hnil.symm
    rw [htargets]
    exact h

/-- Targets with distinct keys are told apart by version and generation. -/
theorem target_unique {targets : List RouteTarget} (hnd : (targets.map RouteTarget.key).Nodup)
    {t u : RouteTarget} (ht : t ∈ targets) (hu : u ∈ targets) (hversion : t.versionID = u.versionID)
    (hgeneration : t.deploymentGeneration = u.deploymentGeneration) : t = u :=
  List.inj_on_of_nodup_map hnd ht hu
    (by rw [RouteTarget.key, RouteTarget.key, hversion, hgeneration])

/-- The target an Assignment was placed for. -/
structure Fits (t : RouteTarget) (a : AssignmentIdentity) : Prop where
  version : t.versionID = a.versionID
  generation : t.deploymentGeneration = a.deploymentGeneration
  epoch : t.admissionEpoch = a.admissionEpoch
  policy : t.effectivePolicyDigest = a.policyDigest

theorem routeMismatchReasons_nil {targets : List RouteTarget} {a : AssignmentIdentity}
    (hnd : (targets.map RouteTarget.key).Nodup) :
    routeMismatchReasons targets a = [] ↔ ∃ t ∈ targets, Fits t a := by
  simp only [routeMismatchReasons]
  constructor
  · intro h
    split at h
    · cases h
    · split at h
      · cases h
      · rename_i t hfind
        obtain ⟨hmem, hversion⟩ := List.mem_filter.mp (List.mem_of_find?_eq_some hfind)
        have hgeneration := List.find?_some hfind
        obtain ⟨hepoch, hpolicy⟩ := List.append_eq_nil_iff.mp h
        exact ⟨t, hmem, of_decide_eq_true hversion, of_decide_eq_true hgeneration,
          by_contra fun hne => by simp [hne] at hepoch,
          by_contra fun hne => by simp [hne] at hpolicy⟩
  · rintro ⟨t, hmem, hfit⟩
    have hlisted : t ∈ targets.filter fun t => t.versionID = a.versionID :=
      List.mem_filter.mpr ⟨hmem, decide_eq_true hfit.version⟩
    rw [if_neg (List.ne_nil_of_mem hlisted)]
    split
    · rename_i hnone
      exact absurd (decide_eq_true hfit.generation) (List.find?_eq_none.mp hnone t hlisted)
    · rename_i u hfind
      obtain ⟨humem, hversion⟩ := List.mem_filter.mp (List.mem_of_find?_eq_some hfind)
      have hgeneration : u.deploymentGeneration = a.deploymentGeneration := by
        simpa using List.find?_some hfind
      -- distinct keys make the first match the target itself
      have hsame : u = t := target_unique hnd humem hmem
        ((of_decide_eq_true hversion).trans hfit.version.symm)
        (hgeneration.trans hfit.generation.symm)
      rw [hsame]
      simp [hfit.epoch, hfit.policy]

/-! ## Criteria -/

/-- The snapshot the candidates are compared with: its targets stand in order. -/
def Input.sorted (input : Input) : Snapshot :=
  { input.snapshot with
    route := { input.route with targets := sortFunc compareRouteTargets input.route.targets } }

/-- Everything a candidate must satisfy to become an endpoint. -/
structure Includable (input : Input) (c : EndpointCandidate) : Prop where
  active : input.function.lifecycle = .active
  enabled : input.trigger.enabled = true
  routed : input.route.present = true ∧ input.route.enabled = true
  identity : c.assignment.validate = .ok ()
  assigned : c.desiredState = .assigned
  authorized : ∃ authorization, c.authorization = some authorization ∧
    authorization.validate hardMaxTTL = .ok () ∧
    authorization.fence = ⟨c.assignment, input.discoveryEpoch⟩
  normal : c.assignment.mode = .normal
  worker : c.worker.validate = .ok ()
  session : c.worker.session = c.assignment.worker
  schedulable : c.worker.intent = .schedulable
  ready : c.worker.state = .ready
  notDraining : c.worker.drain = .notDraining
  replica : c.replicaReady = true
  target : ∃ t ∈ input.route.targets, Fits t c.assignment
  address : validEndpointAddress c.address = true

@[simp] theorem excludedIf_nil {bad : Bool} {reason : ExclusionReason} :
    excludedIf bad reason = [] ↔ bad = false := by
  cases bad <;> simp [excludedIf]

variable {c : EndpointCandidate} {acc : Collected} {count : Nat}

theorem authorizationReasons_nil {epoch : UInt64} :
    authorizationReasons epoch c = [] ↔ ∃ authorization, c.authorization = some authorization ∧
      authorization.validate hardMaxTTL = .ok () ∧
      authorization.fence = ⟨c.assignment, epoch⟩ := by
  unfold authorizationReasons
  cases c.authorization with
  | none => simp
  | some authorization =>
    simp [InvocationFence.ext_iff, isOk_iff, and_assoc]

/-- A candidate without a reason against it is one that satisfies every criterion. -/
theorem exclusionReasons_nil {input : Input}
    (hnd : (input.route.targets.map RouteTarget.key).Nodup) :
    exclusionReasons input.sorted c = [] ↔ Includable input c := by
  have hperm := sortFunc_perm compareRouteTargets input.route.targets
  have htarget : routeMismatchReasons input.sorted.route.targets c.assignment = [] ↔
      ∃ t ∈ input.route.targets, Fits t c.assignment := by
    refine (routeMismatchReasons_nil ((hperm.map _).nodup_iff.mpr hnd)).trans ?_
    exact exists_congr fun t => and_congr_left fun _ => hperm.mem_iff
  simp only [exclusionReasons, List.append_eq_nil_iff, excludedIf_nil, authorizationReasons_nil,
    htarget, bne_eq_false_iff_eq, Bool.not_eq_false', Bool.or_eq_false_iff, isOk_iff]
  constructor
  · rintro ⟨⟨⟨⟨⟨⟨⟨⟨⟨⟨⟨⟨⟨⟨h1, h2⟩, h3⟩, h4⟩, h5⟩, h6⟩, h7⟩, h8⟩, h9⟩, h10⟩, h11⟩, h12⟩, h13⟩, h14⟩,
      h15⟩
    exact ⟨h1, h2, h3, h4, h5, h6, h7, h8, h9, h10, h11, h12, h13, h14, h15⟩
  · intro h
    exact ⟨⟨⟨⟨⟨⟨⟨⟨⟨⟨⟨⟨⟨⟨h.active, h.enabled⟩, h.routed⟩, h.identity⟩, h.assigned⟩, h.authorized⟩,
      h.normal⟩, h.worker⟩, h.session⟩, h.schedulable⟩, h.ready⟩, h.notDraining⟩, h.replica⟩,
      h.target⟩, h.address⟩

/-! ## The loop over the candidates -/

/-- The Assignment ids of candidates. -/
def ids (l : List EndpointCandidate) : List GoString := l.map fun c => c.assignment.assignmentID

/-- Those of the candidates that become endpoints. -/
def includedIn (s : Snapshot) (l : List EndpointCandidate) : List EndpointCandidate :=
  l.filter fun c => exclusionReasons s c == []

def decisionOn (s : Snapshot) (c : EndpointCandidate) : CandidateDecision where
  assignmentID := c.assignment.assignmentID
  included := exclusionReasons s c == []
  reasons := exclusionReasons s c

/-- The accumulator after a run of candidates. -/
def Collected.add (s : Snapshot) (acc : Collected) (l : List EndpointCandidate) : Collected where
  seen := (ids l).reverse ++ acc.seen
  decisions := acc.decisions ++ l.map (decisionOn s)
  endpoints := acc.endpoints ++ (includedIn s l).map EndpointCandidate.endpoint

variable {b : Builder} {s : Snapshot}

theorem includedIn_append (l l' : List EndpointCandidate) :
    includedIn s (l ++ l') = includedIn s l ++ includedIn s l' := List.filter_append l l'

theorem includedIn_singleton (c : EndpointCandidate) :
    includedIn s [c] = if exclusionReasons s c = [] then [c] else [] := by
  by_cases h : exclusionReasons s c = [] <;> simp [includedIn, h]

@[simp] theorem Collected.add_nil (acc : Collected) : acc.add s [] = acc := by
  simp [Collected.add, ids, includedIn]

theorem Collected.add_append (acc : Collected) (l l' : List EndpointCandidate) :
    acc.add s (l ++ l') = (acc.add s l).add s l' := by
  simp [Collected.add, ids, includedIn_append]

theorem Collected.add_length (acc : Collected) (l : List EndpointCandidate) :
    (acc.add s l).endpoints.length = acc.endpoints.length + (includedIn s l).length := by
  rw [Collected.add, List.length_append, List.length_map]

theorem collectOne_ok {acc' : Collected} :
    b.collectOne s acc c = .ok acc' ↔
      identifierPattern c.assignment.assignmentID = true ∧
      c.assignment.assignmentID ∉ acc.seen ∧
      (exclusionReasons s c = [] → acc.endpoints.length < b.maxEndpoints) ∧
      acc' = acc.add s [c] := by
  have hseen : acc.seen.contains c.assignment.assignmentID = false ↔
      c.assignment.assignmentID ∉ acc.seen := by
    rw [← Bool.not_eq_true, List.contains_iff_mem]
  simp only [Builder.collectOne, after_ok, checks_ok, List.forall_mem_cons, mustNot_fails,
    Bool.not_eq_false', hseen, List.not_mem_nil, false_imp_iff, implies_true, and_true, and_assoc]
  refine and_congr_right fun _ => and_congr_right fun _ => ?_
  by_cases hincluded : exclusionReasons s c = []
  · by_cases hfull : b.maxEndpoints ≤ acc.endpoints.length
    · simp [hincluded, hfull]
    · simp only [hincluded, beq_self_eq_true, if_true, hfull, if_false, Except.ok.injEq,
        true_imp_iff, not_le.mp hfull, true_and, Collected.add, decisionOn, includedIn_singleton,
        ids, List.map_cons, List.map_nil]
      exact eq_comm
  · have hbeq : (exclusionReasons s c == []) = false := beq_eq_false_iff_ne.mpr hincluded
    simp only [hbeq, Bool.false_eq_true, if_false, Except.ok.injEq, hincluded, false_imp_iff,
      true_and, Collected.add, decisionOn, includedIn_singleton, ids, List.map_cons, List.map_nil,
      List.append_nil]
    exact eq_comm

/-- There is room for one more endpoint, or none is added. -/
theorem room_iff (hroom : acc.endpoints.length ≤ b.maxEndpoints) :
    (exclusionReasons s c = [] → acc.endpoints.length < b.maxEndpoints) ↔
      (acc.add s [c]).endpoints.length ≤ b.maxEndpoints := by
  rw [Collected.add_length, includedIn_singleton]
  by_cases h : exclusionReasons s c = []
  · simp only [h, true_imp_iff, if_true, List.length_singleton]
    omega
  · simp only [h, false_imp_iff, if_false, List.length_nil, true_iff]
    omega

/-- The whole loop: it fails on a bad or repeated identifier and on an endpoint beyond the bound. -/
theorem collect_ok {l : List EndpointCandidate} {acc' : Collected}
    (hroom : acc.endpoints.length ≤ b.maxEndpoints) :
    l.foldlM (b.collectOne s) acc = .ok acc' ↔
      (∀ c ∈ l, identifierPattern c.assignment.assignmentID = true) ∧
      (ids l).Nodup ∧ (∀ c ∈ l, c.assignment.assignmentID ∉ acc.seen) ∧
      (acc.add s l).endpoints.length ≤ b.maxEndpoints ∧ acc' = acc.add s l := by
  induction l generalizing acc with
  | nil =>
    simp only [List.foldlM_nil, Collected.add_nil, ids, List.map_nil, List.nodup_nil,
      List.not_mem_nil, false_imp_iff, implies_true, true_and, hroom]
    exact ⟨fun h => (Except.ok.inj h).symm, fun h => by rw [h]; rfl⟩
  | cons c rest ih =>
    have hadd : acc.add s (c :: rest) = (acc.add s [c]).add s rest := acc.add_append [c] rest
    have hseen : (acc.add s [c]).seen = c.assignment.assignmentID :: acc.seen := rfl
    rw [List.foldlM_cons, bind_ok]
    constructor
    · rintro ⟨mid, hmid, hrest⟩
      obtain ⟨hid, hnew, hfull, rfl⟩ := collectOne_ok.mp hmid
      obtain ⟨hids, hnd, hother, hfit, rfl⟩ := (ih ((room_iff hroom).mp hfull)).mp hrest
      simp only [hseen, List.mem_cons, not_or] at hother
      refine ⟨List.forall_mem_cons.mpr ⟨hid, hids⟩, List.nodup_cons.mpr ⟨fun hmem => ?_, hnd⟩,
        List.forall_mem_cons.mpr ⟨hnew, fun x hx => (hother x hx).2⟩, hadd ▸ hfit, hadd.symm⟩
      obtain ⟨x, hx, heq⟩ := List.mem_map.mp hmem
      exact (hother x hx).1 heq
    · rintro ⟨hids, hnd, hother, hfit, rfl⟩
      obtain ⟨hid, hids⟩ := List.forall_mem_cons.mp hids
      obtain ⟨hnew, hother⟩ := List.forall_mem_cons.mp hother
      obtain ⟨hfirst, hnd⟩ := List.nodup_cons.mp hnd
      rw [hadd] at hfit
      have hmid : ((acc.add s [c]).endpoints.length : Int) ≤ b.maxEndpoints := by
        rw [Collected.add_length (acc.add s [c])] at hfit
        omega
      refine ⟨_, collectOne_ok.mpr ⟨hid, hnew, (room_iff hroom).mpr hmid, rfl⟩,
        (ih hmid).mpr ⟨hids, hnd, fun x hx => ?_, hfit, hadd⟩⟩
      rw [hseen, List.mem_cons, not_or]
      exact ⟨fun heq => hfirst (List.mem_map.mpr ⟨x, hx, heq⟩), hother x hx⟩

/-! ## The whole build -/

open scoped Classical in
/-- Valid projections, and candidates with proper distinct identifiers whose endpoints fit. -/
structure Input.Proper (input : Input) (b : Builder) : Prop where
  header : input.snapshot.validateHeader = .ok ()
  function : input.function.validate = .ok ()
  trigger : input.trigger.validate input.function.id = .ok ()
  route : input.route.validate input.function.id = .ok ()
  identified : ∀ c ∈ input.candidates, identifierPattern c.assignment.assignmentID = true
  distinct : (ids input.candidates).Nodup
  fits : (input.candidates.filter fun c => Includable input c).length ≤ b.maxEndpoints

/-- The inputs a builder accepts. -/
structure Input.Admitted (input : Input) (b : Builder) : Prop extends input.Proper b where
  few : input.candidates.length ≤ hardMaxEndpoints

/-- The snapshot before its checksum. -/
def Input.product (input : Input) : Snapshot :=
  { input.sorted with
    endpoints := some <| sortFunc compareEndpoints <|
      (includedIn input.sorted (sortFunc compareCandidates input.candidates)).map
        EndpointCandidate.endpoint }

def Input.result (input : Input) : Result where
  snapshot := input.product.stamped
  candidates := (sortFunc compareCandidates input.candidates).map (decisionOn input.sorted)

section Products

variable {input : Input}

theorem mem_includedIn {l : List EndpointCandidate}
    (hroute : input.route.validate input.function.id = .ok ()) :
    c ∈ includedIn input.sorted l ↔ c ∈ l ∧ Includable input c := by
  rw [includedIn, List.mem_filter, beq_iff_eq, exclusionReasons_nil (route_keys_nodup hroute)]

open scoped Classical in
theorem includedIn_eq (l : List EndpointCandidate)
    (hroute : input.route.validate input.function.id = .ok ()) :
    includedIn input.sorted l = l.filter fun c => Includable input c := by
  refine List.filter_congr fun c _ => ?_
  rw [Bool.eq_iff_iff, beq_iff_eq, decide_eq_true_iff]
  exact exclusionReasons_nil (route_keys_nodup hroute)

theorem mem_product {e : Endpoint} (hroute : input.route.validate input.function.id = .ok ()) :
    e ∈ input.product.endpointList ↔
      ∃ c ∈ input.candidates, Includable input c ∧ e = c.endpoint := by
  have hlist : e ∈ input.product.endpointList ↔ e ∈ sortFunc compareEndpoints
      ((includedIn input.sorted (sortFunc compareCandidates input.candidates)).map
        EndpointCandidate.endpoint) := Iff.rfl
  rw [hlist, mem_sortFunc, List.mem_map]
  simp only [mem_includedIn hroute, mem_sortFunc, and_assoc, eq_comm]

/-- The identifiers of the endpoints are some of the identifiers of the candidates. -/
theorem product_ids_nodup (hdistinct : (ids input.candidates).Nodup) :
    (input.product.endpointList.map fun e => e.assignment.assignmentID).Nodup := by
  have hcandidates : (ids (sortFunc compareCandidates input.candidates)).Nodup :=
    ((sortFunc_perm _ _).map _).nodup_iff.mpr hdistinct
  have hincluded : (ids (includedIn input.sorted
      (sortFunc compareCandidates input.candidates))).Nodup :=
    hcandidates.sublist (List.filter_sublist.map _)
  have hperm := (sortFunc_perm compareEndpoints ((includedIn input.sorted
    (sortFunc compareCandidates input.candidates)).map EndpointCandidate.endpoint)).map
      fun e => e.assignment.assignmentID
  refine hperm.nodup_iff.mpr ?_
  rw [List.map_map]
  exact hincluded

theorem includable_endpoint_valid (h : Includable input c) :
    c.endpoint.validate = .ok () := by
  simp [Endpoint.validate, EndpointCandidate.endpoint, checks_ok, h.normal, h.address,
    isOk_iff.mpr h.identity]

/-- What the builder puts together passes every test of `Snapshot.Validate`. -/
theorem Input.Admitted.wellFormed {b : Builder} (h : input.Admitted b) :
    input.product.WellFormed where
  header := h.header
  function := h.function
  named := rfl
  trigger := h.trigger
  route := route_validate_perm (sortFunc_perm _ _).symm h.route
  bounded := by
    have hperm := sortFunc_perm compareEndpoints ((includedIn input.sorted
      (sortFunc compareCandidates input.candidates)).map EndpointCandidate.endpoint)
    calc input.product.endpointList.length
        = (includedIn input.sorted (sortFunc compareCandidates input.candidates)).length :=
          hperm.length_eq.trans (List.length_map _)
      _ ≤ (sortFunc compareCandidates input.candidates).length := List.length_filter_le _ _
      _ = input.candidates.length := (sortFunc_perm _ _).length_eq
      _ ≤ hardMaxEndpoints := h.few
  explicit := rfl
  targets := isSortedFunc_sortFunc compareRouteTargets _
  ordered := isSortedFunc_sortFunc compareEndpoints _
  serving := fun hne => by
    obtain ⟨e, he⟩ := List.exists_mem_of_ne_nil _ hne
    obtain ⟨c, -, hc, -⟩ := (mem_product h.route).mp he
    have hserving : input.product.serving =
        (input.function.lifecycle == .active && input.trigger.enabled && input.route.present &&
          input.route.enabled) := rfl
    simp [hserving, hc.active, hc.enabled, hc.routed.1, hc.routed.2]
  endpoints := by
    refine validateEndpoints_ok.mpr ⟨fun e he => ?_, product_ids_nodup h.distinct,
      fun _ _ => List.not_mem_nil⟩
    obtain ⟨c, -, hc, rfl⟩ := (mem_product h.route).mp he
    have hperm := sortFunc_perm compareRouteTargets input.route.targets
    have hkeys : ((sortFunc compareRouteTargets input.route.targets).map RouteTarget.key).Nodup :=
      (hperm.map _).nodup_iff.mpr (route_keys_nodup h.route)
    refine ⟨includable_endpoint_valid hc, (routeMismatchReasons_nil hkeys).mpr ?_⟩
    obtain ⟨t, ht, hfit⟩ := hc.target
    exact ⟨t, hperm.mem_iff.mpr ht, hfit⟩

end Products

/-- The loop over the candidates of an input. -/
theorem collect_input {input : Input} {collected : Collected}
    (hroute : input.route.validate input.function.id = .ok ()) :
    (sortFunc compareCandidates input.candidates).foldlM (b.collectOne input.sorted)
        ⟨[], [], []⟩ = .ok collected ↔
      (∀ c ∈ input.candidates, identifierPattern c.assignment.assignmentID = true) ∧
      (ids input.candidates).Nodup ∧
      (open scoped Classical in
        (input.candidates.filter fun c => Includable input c).length ≤ b.maxEndpoints) ∧
      collected = Collected.add input.sorted ⟨[], [], []⟩
        (sortFunc compareCandidates input.candidates) := by
  classical
  have hperm := sortFunc_perm compareCandidates input.candidates
  have hlength : (includedIn input.sorted (sortFunc compareCandidates input.candidates)).length =
      (input.candidates.filter fun c => Includable input c).length := by
    rw [includedIn_eq _ hroute]
    exact (hperm.filter _).length_eq
  have hids : (ids (sortFunc compareCandidates input.candidates)).Nodup ↔
      (ids input.candidates).Nodup := (hperm.map _).nodup_iff
  rw [collect_ok (le_trans (by decide) b.positive), Collected.add_length, hlength, hids]
  simp only [mem_sortFunc, List.not_mem_nil, not_false_eq_true, implies_true, true_and,
    List.length_nil, Nat.zero_add]

/-- When a build succeeds, and with what: the last validation does not show. -/
theorem build_ok {input : Input} {result : Result} :
    b.build input = .ok result ↔ input.Admitted b ∧ result = input.result := by
  have hfew : checks [⟨decide (hardMaxEndpoints < input.candidates.length), GoError.problem
      ⟨.overloaded, "endpoint candidate limit exceeded", ""⟩⟩] = .ok () ↔
      input.candidates.length ≤ hardMaxEndpoints := by simp [checks_ok]
  obtain ⟨checksum, hchecksum, -⟩ := calculateChecksum_exists input.product
  have hstamped : input.product.stamped = { input.product with checksum := checksum } := by
    rw [Snapshot.stamped, hchecksum]
    rfl
  have hresult : input.result = ⟨{ input.product with checksum := checksum },
      (sortFunc compareCandidates input.candidates).map (decisionOn input.sorted)⟩ := by
    rw [Input.result, hstamped]
  have hvalid : input.Admitted b →
      ({ input.product with checksum := checksum } : Snapshot).validate = .ok () := fun h =>
    hstamped ▸ h.wellFormed.stamped
  constructor
  · intro h
    obtain ⟨hchecks, h⟩ := after_ok.mp h
    obtain ⟨hheader, h⟩ := after_ok.mp h
    obtain ⟨hfunction, h⟩ := after_ok.mp h
    obtain ⟨htrigger, h⟩ := after_ok.mp h
    obtain ⟨hroute, h⟩ := after_ok.mp h
    obtain ⟨collected, hcollect, h⟩ := bind_ok.mp h
    obtain ⟨hidentified, hdistinct, hfits, rfl⟩ := (collect_input hroute).mp hcollect
    obtain ⟨checksum', hchecksum', h⟩ := bind_ok.mp h
    obtain rfl : checksum' = checksum := Except.ok.inj (hchecksum'.symm.trans hchecksum)
    have hadmitted : input.Admitted b := ⟨⟨hheader, hfunction, htrigger, hroute, hidentified,
      hdistinct, hfits⟩, hfew.mp hchecks⟩
    refine ⟨hadmitted, ?_⟩
    rw [hresult]
    exact (Except.ok.inj (after_ok.mp h).2).symm
  · rintro ⟨hadmitted, rfl⟩
    refine after_ok.mpr ⟨hfew.mpr hadmitted.few, after_ok.mpr ⟨hadmitted.header, after_ok.mpr
      ⟨hadmitted.function, after_ok.mpr ⟨hadmitted.trigger, after_ok.mpr ⟨hadmitted.route,
      bind_ok.mpr ⟨_, (collect_input hadmitted.route).mpr ⟨hadmitted.identified,
        hadmitted.distinct, hadmitted.fits, rfl⟩, bind_ok.mpr ⟨checksum, hchecksum,
        after_ok.mpr ⟨mapError_ok.mpr (hvalid hadmitted), ?_⟩⟩⟩⟩⟩⟩⟩⟩
    rw [hresult]
    rfl

/-! ## Order -/

section Order

variable {input : Input} {candidates : List EndpointCandidate} {targets : List RouteTarget}

/-- The same input with its candidates and targets in another order. -/
def Input.reordered (input : Input) (candidates : List EndpointCandidate)
    (targets : List RouteTarget) : Input :=
  { input with candidates := candidates, route := { input.route with targets := targets } }

theorem candidate_unique (hdistinct : (ids input.candidates).Nodup) {c' : EndpointCandidate}
    (hc : c ∈ input.candidates) (hc' : c' ∈ input.candidates)
    (h : c.assignment.assignmentID = c'.assignment.assignmentID) : c = c' :=
  List.inj_on_of_nodup_map hdistinct hc hc' h

theorem includable_reordered (htargets : input.route.targets.Perm targets) :
    Includable (input.reordered candidates targets) c ↔ Includable input c := by
  have hmem : (∃ t ∈ targets, Fits t c.assignment) ↔
      ∃ t ∈ input.route.targets, Fits t c.assignment :=
    exists_congr fun t => and_congr_left fun _ => htargets.mem_iff.symm
  constructor
  · intro h
    exact ⟨h.active, h.enabled, h.routed, h.identity, h.assigned, h.authorized, h.normal, h.worker,
      h.session, h.schedulable, h.ready, h.notDraining, h.replica, hmem.mp h.target, h.address⟩
  · intro h
    exact ⟨h.active, h.enabled, h.routed, h.identity, h.assigned, h.authorized, h.normal, h.worker,
      h.session, h.schedulable, h.ready, h.notDraining, h.replica, hmem.mpr h.target, h.address⟩

section

variable (h : input.Admitted b) (hcandidates : input.candidates.Perm candidates)
  (htargets : input.route.targets.Perm targets)
include h hcandidates htargets

theorem Input.Admitted.reordered :
    (input.reordered candidates targets).Admitted b where
  header := h.header
  function := h.function
  trigger := h.trigger
  route := route_validate_perm htargets h.route
  identified := fun c hc => h.identified c (hcandidates.mem_iff.mpr hc)
  distinct := (hcandidates.map _).nodup_iff.mp h.distinct
  fits := by
    classical
    have hsame : (candidates.filter fun c => Includable (input.reordered candidates targets) c) =
        candidates.filter fun c => Includable input c :=
      List.filter_congr fun c _ => decide_eq_decide.mpr (includable_reordered htargets)
    show ((candidates.filter fun c =>
      Includable (input.reordered candidates targets) c).length : Int) ≤ b.maxEndpoints
    rw [hsame, ← (hcandidates.filter _).length_eq]
    exact h.fits
  few := hcandidates.length_eq ▸ h.few

/-- Nothing of the order of candidates and targets survives the build. -/
theorem Input.Admitted.result_reordered :
    (input.reordered candidates targets).result = input.result := by
  have htargets' : sortFunc compareRouteTargets targets =
      sortFunc compareRouteTargets input.route.targets :=
    (sortFunc_eq_of_perm htargets fun t ht u hu heq =>
      have hkey := compareRouteTargets_eq heq
      target_unique (route_keys_nodup h.route) ht hu hkey.1 hkey.2).symm
  have hcandidates' : sortFunc compareCandidates candidates =
      sortFunc compareCandidates input.candidates :=
    (sortFunc_eq_of_perm hcandidates fun c hc c' hc' (heq : compareCandidates c c' = .eq) =>
      candidate_unique h.distinct hc hc' (compareEndpointIdentity_eq heq)).symm
  have hsorted : (input.reordered candidates targets).sorted = input.sorted := by
    simp only [Input.sorted, Input.reordered, Input.snapshot, htargets']
  simp only [Input.result, Input.product, hsorted]
  simp only [Input.reordered, hcandidates']

end

end Order

/-! ## The builder's contract -/

/-- A build with at most the v1 number of candidates succeeds, its endpoints are the candidates
that satisfy every criterion, every decision says so, and the order of the input does not show. -/
theorem build_exact (b : Builder) (input : Input) (h : input.Proper b)
    (hfew : input.candidates.length ≤ hardMaxEndpoints) :
    ∃ result, b.build input = .ok result ∧ result.snapshot.validate = .ok () ∧
      (∀ e, e ∈ result.snapshot.endpointList ↔
        ∃ c ∈ input.candidates, Includable input c ∧ e = c.endpoint) ∧
      result.snapshot.endpointList.Nodup ∧
      (result.candidates.map CandidateDecision.assignmentID).Perm (ids input.candidates) ∧
      (∀ c ∈ input.candidates, ∀ d ∈ result.candidates,
        d.assignmentID = c.assignment.assignmentID →
          (d.included = true ↔ c.endpoint ∈ result.snapshot.endpointList) ∧
          (d.reasons = [] ↔ c.endpoint ∈ result.snapshot.endpointList)) ∧
      ∀ candidates targets, input.candidates.Perm candidates →
        input.route.targets.Perm targets →
        b.build (input.reordered candidates targets) = .ok result := by
  have hadmitted : input.Admitted b := ⟨h, hfew⟩
  have hperm := sortFunc_perm compareCandidates input.candidates
  have hlist : input.result.snapshot.endpointList = input.product.endpointList := rfl
  refine ⟨input.result, build_ok.mpr ⟨hadmitted, rfl⟩, hadmitted.wellFormed.stamped, ?_, ?_, ?_,
    ?_, ?_⟩
  · intro e
    rw [hlist]
    exact mem_product h.route
  · exact (product_ids_nodup h.distinct).of_map _
  · rw [Input.result, List.map_map]
    exact hperm.map _
  · intro c hc d hd hid
    obtain ⟨c', hc', rfl⟩ := List.mem_map.mp hd
    -- distinct identifiers make it the decision on this very candidate
    obtain rfl : c' = c := candidate_unique h.distinct (hperm.mem_iff.mp hc') hc hid
    have hpresent : c'.endpoint ∈ input.product.endpointList ↔ Includable input c' := by
      rw [mem_product h.route]
      constructor
      · rintro ⟨c'', hc'', hin, heq⟩
        have hsame : c'.assignment.assignmentID = c''.assignment.assignmentID :=
          congrArg (fun e => e.assignment.assignmentID) heq
        rwa [candidate_unique h.distinct hc hc'' hsame]
      · exact fun hin => ⟨c', hc, hin, rfl⟩
    have hreasons := exclusionReasons_nil (c := c') (route_keys_nodup h.route)
    rw [hlist, hpresent, ← hreasons]
    exact ⟨beq_iff_eq, Iff.rfl⟩
  · intro candidates targets hcandidates htargets
    exact build_ok.mpr ⟨hadmitted.reordered hcandidates htargets,
      (hadmitted.result_reordered hcandidates htargets).symm⟩

/-! ## A sample input -/

def sampleBuilder : Builder := ⟨1000, by decide, by decide⟩

def samplePolicy : SHA256 :=
  "sha256:1111111111111111111111111111111111111111111111111111111111111111"

def sampleIdentity (assignmentID versionID : GoString) : AssignmentIdentity where
  worker := ⟨"worker-1", "boot-1", 1⟩
  assignmentID := assignmentID
  versionID := versionID
  admissionEpoch := 1
  deploymentGeneration := 1
  policyDigest := samplePolicy
  mode := .normal

def sampleWorker : Scheduler.WorkerSnapshot where
  session := ⟨"worker-1", "boot-1", 1⟩
  runtime := {
    name := WasmProfile.runtimeName
    version := WasmProfile.runtimeVersion
    engine := WasmProfile.engineCompiler
    goos := "linux"
    goarch := "amd64"
    abi := abiWASICommandV1
    hostAPI := hostAPIProfileNone
    featureProfile := WasmProfile.featureProfile
    memoryMiB := 64 }
  intent := .schedulable
  state := .ready
  drain := .notDraining
  capacity := ⟨1024, 64, 8, 1⟩
  labels := ∅
  cache := ⟨∅, ∅⟩

def sampleCandidate (assignmentID versionID : GoString) (replicaReady : Bool) :
    EndpointCandidate where
  assignment := sampleIdentity assignmentID versionID
  desiredState := .assigned
  worker := sampleWorker
  replicaReady := replicaReady
  authorization := some ⟨⟨sampleIdentity assignmentID versionID, 1⟩, .liveOnly, 0⟩
  address := "10.0.0.7:8080"

/-- Two targets against their order, and of two candidates one that is not ready yet. -/
def sampleInput : Input where
  discoveryEpoch := 1
  servingSequence := 1
  generatedAt := ⟨1, .utc⟩
  function := ⟨"function-1", "hello", 1, .active⟩
  trigger := ⟨"trigger-1", "function-1", 1, true, .public, none⟩
  route := {
    present := true
    functionID := "function-1"
    resourceRevision := 1
    routeRevision := 1
    enabled := true
    targets := [⟨"version-2", 1, 1, samplePolicy, 6000⟩, ⟨"version-1", 1, 1, samplePolicy, 4000⟩]
    affinity := .requestID
    affinityHeader := []
    hashVersion := hashVersionSHA256BPSV1
    saltID := "salt-1"
    salt := List.replicate 16 0 }
  candidates := [sampleCandidate "assignment-2" "version-2" false,
    sampleCandidate "assignment-1" "version-1" true]

theorem sampleInput_proper : sampleInput.Proper sampleBuilder where
  header := rfl
  function := rfl
  trigger := rfl
  route := rfl
  identified := by decide
  distinct := by decide
  fits := by
    refine le_trans (Int.ofNat_le.mpr (List.length_filter_le _ _)) ?_
    decide

theorem sampleCandidate_includable :
    Includable sampleInput (sampleCandidate "assignment-1" "version-1" true) where
  active := rfl
  enabled := rfl
  routed := ⟨rfl, rfl⟩
  identity := rfl
  assigned := rfl
  authorized := ⟨_, rfl, rfl, rfl⟩
  normal := rfl
  worker := rfl
  session := rfl
  schedulable := rfl
  ready := rfl
  notDraining := rfl
  replica := rfl
  target := ⟨_, List.mem_cons_of_mem _ List.mem_cons_self, rfl, rfl, rfl, rfl⟩
  address := rfl

/-- The sample at a sequence of the Watch. -/
def sampleAt (sequence : UInt64) : Input := { sampleInput with servingSequence := sequence }

theorem sampleAt_admitted {sequence : UInt64} (h : sequence ≠ 0) :
    (sampleAt sequence).Admitted sampleBuilder where
  header := by
    rw [Snapshot.validateHeader, checks_ok]
    simp only [List.forall_mem_cons, mustNot_fails, beq_eq_false_iff_ne]
    exact ⟨rfl, rfl, (by decide : (1 : UInt64) ≠ 0), h, rfl, List.forall_mem_nil _⟩
  function := rfl
  trigger := rfl
  route := rfl
  identified := sampleInput_proper.identified
  distinct := sampleInput_proper.distinct
  fits := by
    refine le_trans (Int.ofNat_le.mpr (List.length_filter_le _ _)) ?_
    show (2 : Int) ≤ 1000
    decide
  few := by
    show 2 ≤ 1000
    decide

/-- The theorem at the sample: the ready candidate is the endpoint, in any order of the targets. -/
theorem build_exact_sample : ∃ result, sampleBuilder.build sampleInput = .ok result ∧
    (sampleCandidate "assignment-1" "version-1" true).endpoint ∈ result.snapshot.endpointList ∧
    sampleBuilder.build (sampleInput.reordered sampleInput.candidates.reverse
      sampleInput.route.targets.reverse) = .ok result := by
  obtain ⟨result, hbuild, -, hendpoints, -, -, -, horder⟩ :=
    build_exact sampleBuilder sampleInput sampleInput_proper (by decide)
  exact ⟨result, hbuild,
    (hendpoints _).mpr ⟨_, List.mem_cons_of_mem _ List.mem_cons_self, sampleCandidate_includable,
      rfl⟩,
    horder _ _ (List.reverse_perm _).symm (List.reverse_perm _).symm⟩

/-- So many candidates, told apart by their number. -/
def crowd (count : Nat) : List EndpointCandidate :=
  (List.range count).map fun n => sampleCandidate (Text.decimal n) "version-1" true

theorem crowd_distinct (count : Nat) : (ids (crowd count)).Nodup := by
  rw [ids, crowd, List.map_map]
  exact List.nodup_range.map fun _ _ h => Text.decimal_injective h

theorem crowd_identified (hcount : count ≤ 10000) :
    ∀ c ∈ crowd count, identifierPattern c.assignment.assignmentID = true := by
  intro c hc
  obtain ⟨n, hn, rfl⟩ := List.mem_map.mp hc
  have hspells := Text.spells_decimal n
  have hlength : (Text.decimal n).length ≤ 4 :=
    Text.length_decimal (k := 3) (lt_of_lt_of_le (List.mem_range.mp hn) hcount)
  have hpos : 1 ≤ (Text.decimal n).length := List.length_pos_of_ne_nil hspells.nonempty
  have hbytes : (Text.decimal n).all isIdByte = true := by
    rw [List.all_eq_true]
    intro byte hbyte
    have hdigit := List.all_eq_true.mp hspells.digits byte hbyte
    simp [isIdByte, hdigit]
  have hid : (sampleCandidate (Text.decimal n) "version-1" true).assignment.assignmentID =
    Text.decimal n := rfl
  simp only [hid, identifierPattern, Text.matchClass, hbytes, Bool.and_true, Bool.and_eq_true,
    decide_eq_true_eq]
  omega

/-- A disabled Function with so many candidates. -/
def crowdedInput (count : Nat) : Input :=
  { sampleInput with
    function := ⟨"function-1", "hello", 1, .disabled⟩
    candidates := crowd count }

theorem crowdedInput_not_includable (count : Nat) (c : EndpointCandidate) :
    ¬ Includable (crowdedInput count) c := by
  intro h
  have hactive := h.active
  cases hactive

theorem crowdedInput_proper (hcount : count ≤ 10000) :
    (crowdedInput count).Proper sampleBuilder where
  header := rfl
  function := rfl
  trigger := rfl
  route := rfl
  identified := crowd_identified hcount
  distinct := crowd_distinct count
  fits := by
    rw [List.filter_eq_nil_iff.mpr fun c _ => by simp [crowdedInput_not_includable count c]]
    decide

theorem crowdedInput_refused (hcount : hardMaxEndpoints < count) :
    sampleBuilder.build (crowdedInput count) =
      .error (.problem ⟨.overloaded, "endpoint candidate limit exceeded", ""⟩) := by
  have hmany : hardMaxEndpoints < (crowdedInput count).candidates.length := by
    show hardMaxEndpoints < (crowd count).length
    rwa [crowd, List.length_map, List.length_range]
  have hchecks : checks [⟨decide (hardMaxEndpoints < (crowdedInput count).candidates.length),
      GoError.problem ⟨.overloaded, "endpoint candidate limit exceeded", ""⟩⟩] =
      .error (.problem ⟨.overloaded, "endpoint candidate limit exceeded", ""⟩) := by
    simp [checks, hmany]
  rw [Builder.build, hchecks]
  rfl

/-- No candidate of the crowd is included, and still their number alone fails the build. -/
theorem build_refuses_crowd : (crowdedInput 1001).Proper sampleBuilder ∧
    sampleBuilder.build (crowdedInput 1001) =
      .error (.problem ⟨.overloaded, "endpoint candidate limit exceeded", ""⟩) :=
  ⟨crowdedInput_proper (by omega), crowdedInput_refused (by decide)⟩

end MiniCloud.Discovery
