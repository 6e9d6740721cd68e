import MiniCloud.Discovery.Snapshot

/-!
# Valid snapshots

`validate_ok` turns the validator into the list of facts it tests, and every later proof about an
accepted snapshot starts from that list. The checksum covers every other field and always exists:
each object names its members once and each number is a machine integer. So a snapshot that passes
the other tests becomes valid by being given its checksum.
-/

namespace MiniCloud.Discovery

open Lib Problem Digest Model ServingAuth

/-! ## What is accepted -/

/-- What `Snapshot.Validate` tests before it looks at the checksum. -/
structure Snapshot.WellFormed (s : Snapshot) : Prop where
  header : s.validateHeader = .ok ()
  function : s.function.validate = .ok ()
  named : s.functionID = s.function.id
  trigger : s.trigger.validate s.functionID = .ok ()
  route : s.route.validate s.functionID = .ok ()
  bounded : s.endpointList.length ≤ hardMaxEndpoints
  explicit : s.endpoints.isNone = false
  targets : isSortedFunc compareRouteTargets s.route.targets = true
  ordered : isSortedFunc compareEndpoints s.endpointList = true
  serving : s.endpointList ≠ [] → s.serving = true
  endpoints : s.validateEndpoints [] s.endpointList = .ok ()

theorem validate_ok {s : Snapshot} :
    s.validate = .ok () ↔
      s.WellFormed ∧ encodedPattern s.checksum = true ∧ calculateChecksum s = .ok s.checksum := by
  simp only [Snapshot.validate, seq_ok]
  simp only [bind_ok, checks_ok, List.forall_mem_cons, mustNot_fails, List.not_mem_nil,
    false_imp_iff, implies_true, and_true, bne_eq_false_iff_eq, decide_eq_false_iff_not,
    Nat.not_lt, Bool.not_eq_false', Bool.and_eq_false_iff]
  constructor
  · rintro ⟨hheader, hfunction, hnamed, htrigger, hroute,
      ⟨hbounded, hexplicit, htargets, hordered, hserving⟩, hendpoints, hpattern, want, hwant, heq⟩
    refine ⟨⟨hheader, hfunction, hnamed, htrigger, hroute, hbounded, hexplicit, htargets, hordered,
      fun hne => hserving.resolve_left hne, hendpoints⟩, hpattern, ?_⟩
    rw [heq]
    exact hwant
  · rintro ⟨h, hpattern, hwant⟩
    refine ⟨h.header, h.function, h.named, h.trigger, h.route,
      ⟨h.bounded, h.explicit, h.targets, h.ordered, ?_⟩, h.endpoints, hpattern, _, hwant, rfl⟩
    by_cases hne : s.endpointList = []
    · exact .inl hne
    · exact .inr (h.serving hne)

theorem validateEndpoints_cons {s : Snapshot} {seen : List GoString} {e : Endpoint}
    {rest : List Endpoint} :
    s.validateEndpoints seen (e :: rest) = .ok () ↔
      e.validate = .ok () ∧
      (e.assignment.assignmentID ∉ seen ∧
        routeMismatchReasons s.route.targets e.assignment = []) ∧
      s.validateEndpoints (e.assignment.assignmentID :: seen) rest = .ok () := by
  refine (seq_ok (a := e.validate)).trans (and_congr_right fun _ => seq_ok.trans ?_)
  simp only [checks_ok, List.forall_mem_cons, mustNot_fails, decide_eq_false_iff_not,
    bne_eq_false_iff_eq, List.not_mem_nil, false_imp_iff, implies_true, and_true]

/-- The loop over the endpoints, with the ids it has seen. -/
theorem validateEndpoints_ok {s : Snapshot} {seen : List GoString} {l : List Endpoint} :
    s.validateEndpoints seen l = .ok () ↔
      (∀ e ∈ l, e.validate = .ok () ∧ routeMismatchReasons s.route.targets e.assignment = []) ∧
      (l.map fun e => e.assignment.assignmentID).Nodup ∧
      ∀ e ∈ l, e.assignment.assignmentID ∉ seen := by
  induction l generalizing seen with
  | nil =>
    refine iff_of_true rfl ⟨List.forall_mem_nil _, List.nodup_nil, List.forall_mem_nil _⟩
  | cons e rest ih =>
    simp only [validateEndpoints_cons, ih, List.forall_mem_cons]
    simp only [List.map_cons, List.nodup_cons, List.mem_cons, not_or, List.mem_map, not_exists,
      not_and]
    constructor
    · rintro ⟨hvalid, ⟨hnew, hroute⟩, hrest, hnd, hseen⟩
      exact ⟨⟨⟨hvalid, hroute⟩, hrest⟩, ⟨fun x hx => (hseen x hx).1, hnd⟩, hnew,
        fun x hx => (hseen x hx).2⟩
    · rintro ⟨⟨⟨hvalid, hroute⟩, hrest⟩, ⟨hfirst, hnd⟩, hnew, hseen⟩
      exact ⟨hvalid, ⟨hnew, hroute⟩, hrest, hnd, fun x hx => ⟨hfirst x hx, hseen x hx⟩⟩

/-! ## Routes -/

/-- A valid Route without content has no revision, and nothing but its Function. -/
theorem route_absent {r : Route} {functionID : GoString} (h : r.validate functionID = .ok ())
    (habsent : r.present = false) :
    r = ⟨false, functionID, 0, 0, false, [], .other "", [], [], [], []⟩ := by
  obtain ⟨_, _, _, _, _, _, _, _, _, _, _⟩ := r
  obtain ⟨hid, hblank⟩ := seq_ok.mp h
  cases habsent
  simp only [Bool.not_false, if_true, checks_ok, List.mem_singleton, forall_eq, mustNot_fails,
    Route.isBlank, Bool.not_eq_false', Bool.and_eq_true, beq_iff_eq, Bool.not_eq_true', and_assoc,
    bne_eq_false_iff_eq] at hid hblank
  simpa [hid] using hblank

/-- What the validator tests of a Route that is present. -/
structure Route.Published (r : Route) (functionID : GoString) : Prop where
  functionID : r.functionID = functionID
  resource : r.resourceRevision ≠ 0
  revision : r.routeRevision ≠ 0
  bounded : r.targets.length ≤ maxRouteTargets
  enabled : r.enabled = true ↔ r.targets ≠ []
  hashVersion : r.hashVersion = hashVersionSHA256BPSV1
  saltID : identifierPattern r.saltID = true
  salt : r.salt.length = 16
  affinity : r.validateAffinity = .ok ()
  targets : ∀ t ∈ r.targets, validateTarget t = .ok ()
  distinct : (r.targets.map RouteTarget.key).Nodup
  weights : r.targets ≠ [] → totalWeight r.targets = totalRouteWeightBasisPoints

theorem route_published {r : Route} {functionID : GoString} (hpresent : r.present = true) :
    r.validate functionID = .ok () ↔ r.Published functionID := by
  have henabled : (r.enabled == (r.targets == [])) = false ↔
      (r.enabled = true ↔ r.targets ≠ []) := by
    cases r.enabled <;> simp
  have hweights :
      (r.targets != [] && totalWeight r.targets != totalRouteWeightBasisPoints) = false ↔
      (r.targets ≠ [] → totalWeight r.targets = totalRouteWeightBasisPoints) := by
    rw [Bool.and_eq_false_iff, bne_eq_false_iff_eq, bne_eq_false_iff_eq, or_iff_not_imp_left]
  simp only [Route.validate, hpresent, Bool.not_true, Bool.false_eq_true, if_false, seq_ok,
    checks_ok, List.forall_mem_cons, mustNot_fails, checkEach_ok, bne_eq_false_iff_eq,
    Bool.or_eq_false_iff, beq_eq_false_iff_ne, Bool.not_eq_false', decide_eq_false_iff_not,
    Nat.not_lt, henabled, hweights, List.not_mem_nil, false_imp_iff, not_false_eq_true,
    implies_true, and_true, true_and]
  constructor
  · rintro ⟨hid, ⟨⟨hresource, hrevision⟩, hbounded, henabled, ⟨hhash, hsaltID⟩, hsalt⟩, haffinity,
      ⟨htargets, hdistinct⟩, hweights⟩
    exact ⟨hid, hresource, hrevision, hbounded, henabled, hhash, hsaltID, hsalt, haffinity,
      htargets, hdistinct, hweights⟩
  · intro h
    exact ⟨h.functionID, ⟨⟨h.resource, h.revision⟩, h.bounded, h.enabled, ⟨h.hashVersion, h.saltID⟩,
      h.salt⟩, h.affinity, ⟨h.targets, h.distinct⟩, h.weights⟩

/-! ## The checksum exists -/

theorem accepted_omitEmpty {key : GoString} {value : Option GoString} :
    ∀ m ∈ omitEmpty key value, m.2.Accepted := by
  intro m hm
  obtain ⟨text, -, rfl⟩ := List.mem_map.mp hm
  exact Json.accepted_ofGoString text

theorem accepted_function (f : Function) : f.toJSON.Accepted :=
  Json.accepted_record rfl (by simp)

theorem accepted_trigger (t : HTTPTrigger) : t.toJSON.Accepted := by
  simp only [HTTPTrigger.toJSON, Json.accepted_obj, List.forall_mem_append, List.forall_mem_cons,
    Json.accepted_ofGoString, Json.accepted_ofUInt64, Json.accepted_bool, List.not_mem_nil,
    false_imp_iff, implies_true, true_and]
  refine ⟨?_, accepted_omitEmpty⟩
  cases t.tokenVerifierDigest <;> simp only [omitEmpty, Option.toList, List.map_nil, List.map_cons,
    List.append_nil, List.cons_append, List.nil_append] <;> decide

theorem accepted_target (t : RouteTarget) : (targetJSON t).Accepted :=
  Json.accepted_record rfl (by simp)

theorem accepted_route (r : Route) : r.toJSON.Accepted := by
  have htargets : (Json.arr (r.targets.map targetJSON)).Accepted := by
    rw [Json.accepted_arr, List.forall_mem_map]
    exact fun t _ => accepted_target t
  simp only [Route.toJSON, Json.ofBytes, Json.accepted_obj, List.forall_mem_append,
    List.forall_mem_cons, Json.accepted_ofGoString, Json.accepted_ofUInt64, Json.accepted_bool,
    Json.accepted_str, htargets, List.not_mem_nil, false_imp_iff, implies_true, true_and, and_true]
  refine ⟨?_, accepted_omitEmpty⟩
  by_cases hheader : r.affinityHeader = []
  · simp only [hheader, if_true, omitEmpty, Option.toList_none, List.map_nil, List.append_nil,
      List.cons_append, List.nil_append, List.map_cons]
    decide
  · simp only [hheader, if_false, omitEmpty, Option.toList_some, List.map_cons, List.map_nil,
      List.cons_append, List.nil_append]
    decide

theorem accepted_endpoint (e : Endpoint) : e.canonical.Accepted :=
  Json.accepted_record rfl (by simp)

theorem accepted_snapshot (s : Snapshot) : s.canonical.Accepted :=
  Json.accepted_record rfl
    (by simp [accepted_function, accepted_trigger, accepted_route, accepted_endpoint])

theorem calculateChecksum_exists (s : Snapshot) :
    ∃ d, calculateChecksum s = .ok d ∧ encodedPattern d = true :=
  canonicalJSON_exists (by decide) (by decide) (accepted_snapshot s)

/-- The snapshot with its own checksum. -/
def Snapshot.stamped (s : Snapshot) : Snapshot :=
  { s with checksum := (calculateChecksum s).toOption.getD [] }

theorem Snapshot.WellFormed.stamped {s : Snapshot} (h : s.WellFormed) :
    s.stamped.validate = .ok () := by
  obtain ⟨d, hd, hpattern⟩ := calculateChecksum_exists s
  have hstamped : s.stamped = { s with checksum := d } := by rw [Snapshot.stamped, hd]; rfl
  have hendpoints := validateEndpoints_ok.mp h.endpoints
  rw [hstamped]
  exact validate_ok.mpr ⟨⟨h.header, h.function, h.named, h.trigger, h.route, h.bounded, h.explicit,
    h.targets, h.ordered, h.serving, validateEndpoints_ok.mpr hendpoints⟩, hpattern, hd⟩

end MiniCloud.Discovery
