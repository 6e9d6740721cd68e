import MiniCloud.Proof.Builder
import MiniCloud.Proof.RequestDigest

/-!
# What the checksum of a snapshot separates

The checksum hashes one canonical JSON text. Valid snapshots have only texts that survive the
encoder, a UTC time is written so that it can be read back, and an omitted member can only be the
empty one; so the text determines every field but one kind. RFC 8785 writes each number through a
double, so the machine integers of a snapshot are seen rounded, as those of a request are.
-/

namespace MiniCloud.Discovery

open Lib Problem Digest Model ServingAuth

open ControlPlane (SameDouble SameDoubleRevision)

variable {functionID s : GoString} {R : Json.Num → Json.Num → Prop} {t : HTTPTrigger} {r : Route}
  {a b : Snapshot}

/-! ## Agreement -/

section Agreement

variable (num : UInt64 → UInt64 → Prop)

/-- Two Functions agree, their revisions compared by `num`. -/
structure Function.Agree (f g : Function) : Prop where
  id : f.id = g.id
  name : f.name = g.name
  revision : num f.resourceRevision g.resourceRevision
  lifecycle : f.lifecycle = g.lifecycle

structure HTTPTrigger.Agree (t u : HTTPTrigger) : Prop where
  id : t.id = u.id
  functionID : t.functionID = u.functionID
  revision : num t.resourceRevision u.resourceRevision
  enabled : t.enabled = u.enabled
  authPolicy : t.authPolicy = u.authPolicy
  verifier : t.tokenVerifierDigest = u.tokenVerifierDigest

structure TargetsAgree (t u : RouteTarget) : Prop where
  version : t.versionID = u.versionID
  epoch : num t.admissionEpoch u.admissionEpoch
  generation : num t.deploymentGeneration u.deploymentGeneration
  policy : t.effectivePolicyDigest = u.effectivePolicyDigest
  weight : t.weightBasisPoints = u.weightBasisPoints

structure Route.Agree (r q : Route) : Prop where
  present : r.present = q.present
  functionID : r.functionID = q.functionID
  resource : num r.resourceRevision q.resourceRevision
  revision : num r.routeRevision q.routeRevision
  enabled : r.enabled = q.enabled
  targets : List.Forall₂ (TargetsAgree num) r.targets q.targets
  affinity : r.affinity = q.affinity
  header : r.affinityHeader = q.affinityHeader
  hashVersion : r.hashVersion = q.hashVersion
  saltID : r.saltID = q.saltID
  salt : r.salt = q.salt

structure Endpoint.Agree (e e' : Endpoint) : Prop where
  id : e.assignment.assignmentID = e'.assignment.assignmentID
  version : e.assignment.versionID = e'.assignment.versionID
  epoch : num e.assignment.admissionEpoch e'.assignment.admissionEpoch
  generation : num e.assignment.deploymentGeneration e'.assignment.deploymentGeneration
  policy : e.assignment.policyDigest = e'.assignment.policyDigest
  mode : e.assignment.mode = e'.assignment.mode
  worker : e.assignment.worker.workerID = e'.assignment.worker.workerID
  boot : e.assignment.worker.bootID = e'.assignment.worker.bootID
  session : num e.assignment.worker.sessionEpoch e'.assignment.worker.sessionEpoch
  address : e.address = e'.address
  state : e.state = e'.state

/-- Two snapshots agree in everything but the checksum. -/
structure Snapshot.Agree (a b : Snapshot) : Prop where
  schemaVersion : a.schemaVersion = b.schemaVersion
  functionID : a.functionID = b.functionID
  epoch : num a.discoveryEpoch b.discoveryEpoch
  sequence : num a.servingSequence b.servingSequence
  instant : a.generatedAt.instant = b.generatedAt.instant
  function : a.function.Agree num b.function
  trigger : a.trigger.Agree num b.trigger
  route : a.route.Agree num b.route
  endpoints : List.Forall₂ (Endpoint.Agree num) a.endpointList b.endpointList

end Agreement

/-- Equal in every field but the checksum; of the time only the instant counts. -/
def Snapshot.SameContent (a b : Snapshot) : Prop :=
  a.generatedAt.instant = b.generatedAt.instant ∧
    { a with generatedAt := b.generatedAt, checksum := b.checksum } = b

theorem forall₂_iff_eq {α : Type} {r : α → α → Prop} (hr : ∀ {x y}, r x y ↔ x = y)
    {l l' : List α} : List.Forall₂ r l l' ↔ l = l' := by
  have heq : r = (· = ·) := funext fun x => funext fun y => propext hr
  rw [heq, List.forall₂_eq_eq_eq]

theorem forall₂_congr_mem {α : Type} {r q : α → α → Prop} {l l' : List α}
    (h : ∀ a ∈ l, ∀ b ∈ l', r a b ↔ q a b) : List.Forall₂ r l l' ↔ List.Forall₂ q l l' := by
  rw [List.forall₂_iff_zip, List.forall₂_iff_zip]
  refine and_congr_right fun _ => forall_congr' fun a => forall_congr' fun b =>
    forall_congr' fun hmem => ?_
  have hboth := List.of_mem_zip hmem
  exact h a hboth.1 b hboth.2

/-! ## Texts the encoder keeps -/

/-- What the encoder writes for a text is the text. -/
def Kept (s : GoString) : Prop := Text.sanitize s = s

instance : DecidablePred Kept := fun s => inferInstanceAs (Decidable (Text.sanitize s = s))

theorem kept_ascii (h : ∀ b ∈ s, b < 0x80) : Kept s :=
  Text.sanitize_valid (Text.validUTF8_ascii h)

theorem idByte_ascii (b : UInt8) : isIdByte b = true → b < 0x80 := by
  revert b
  exact Text.forall_byte (by decide +kernel)

theorem kept_identifier (h : identifierPattern s = true) : Kept s := by
  simp only [identifierPattern, Text.matchClass, Bool.and_eq_true, List.all_eq_true] at h
  exact kept_ascii fun b hb => idByte_ascii b (h.2 b hb)

theorem nameByte_ascii (b : UInt8) : (Text.isLower b || Text.isDigit b || Text.oneOf "-" b) = true →
    b < 0x80 := by
  revert b
  exact Text.forall_byte (by decide +kernel)

theorem kept_name (h : functionNamePattern s = true) : Kept s := by
  cases s with
  | nil => rfl
  | cons head tail =>
    simp only [functionNamePattern, Text.matchHeadTail, Bool.and_eq_true, List.all_eq_true] at h
    refine kept_ascii (List.forall_mem_cons.mpr ⟨nameByte_ascii head ?_, fun b hb =>
      nameByte_ascii b (h.2 b hb)⟩)
    simp [h.1.1]

theorem equiv_kept {t : GoString} (hs : Kept s) (ht : Kept t) :
    Json.Equiv R (.ofGoString s) (.ofGoString t) ↔ s = t := by
  rw [Json.ofGoString, Json.ofGoString, Json.equiv_str, hs, ht]

/-- The comparison of numbers that canonical texts make. -/
def doubles (n m : Json.Num) : Prop := n.double = m.double

theorem equiv_uint64 {n m : UInt64} :
    Json.Equiv doubles (.ofNat n.toNat) (.ofNat m.toNat) ↔ SameDoubleRevision n m := by
  simp only [Json.ofNat, Json.equiv_num, doubles, Json.Num.double, Json.value_decimal]
  rfl

/-- A 32-bit integer has a double of its own. -/
theorem equiv_uint32 {n m : UInt32} :
    Json.Equiv doubles (.ofNat n.toNat) (.ofNat m.toNat) ↔ n = m := by
  have hexact : ∀ k : UInt32, Double.round (k.toNat : ℚ) = some (k.toNat : ℚ) := fun k =>
    Double.round_natCast (le_of_lt (k.toNat_lt.trans (by norm_num)))
  simp only [Json.ofNat, Json.equiv_num, doubles, Json.Num.double, Json.value_decimal, hexact,
    Option.some.injEq, Nat.cast_inj, UInt32.toNat_inj]

/-! ## Functions and triggers -/

/-- An enumeration in which the texts tell apart the values `known` holds of. -/
theorem equiv_enum {α : Type} {text : α → GoString} {x y : α} (hx : Kept (text x))
    (hy : Kept (text y)) (hinj : text x = text y → x = y) :
    Json.Equiv R (.ofGoString (text x)) (.ofGoString (text y)) ↔ x = y := by
  rw [equiv_kept hx hy]
  exact ⟨hinj, congrArg text⟩

theorem lifecycle_kept {x : FunctionLifecycle} (h : x.valid = true) : Kept x.text := by
  cases x with
  | other text => cases h
  | _ => decide

theorem lifecycle_injective {x y : FunctionLifecycle} (hx : x.valid = true) (hy : y.valid = true)
    (h : x.text = y.text) : x = y := by
  cases x with
  | other text => cases hx
  | _ =>
    cases y with
    | other text => cases hy
    | _ => first | rfl | exact absurd h (by decide)

/-- What the validator of a Function tests. -/
structure Function.Valid (f : Function) : Prop where
  id : identifierPattern f.id = true
  name : functionNamePattern f.name = true
  revision : f.resourceRevision ≠ 0
  lifecycle : f.lifecycle.valid = true

theorem function_validate_ok {f : Function} : f.validate = .ok () ↔ f.Valid := by
  simp only [Function.validate, checks_ok, List.forall_mem_cons, mustNot_fails,
    Bool.or_eq_false_iff, Bool.not_eq_false', beq_eq_false_iff_ne, List.not_mem_nil, false_imp_iff,
    implies_true, and_true]
  constructor
  · rintro ⟨⟨h1, h2⟩, h3, h4⟩
    exact ⟨h1, h2, h3, h4⟩
  · intro h
    exact ⟨⟨h.id, h.name⟩, h.revision, h.lifecycle⟩

theorem equiv_function {f g : Function} (hf : f.validate = .ok ()) (hg : g.validate = .ok ()) :
    Json.Equiv doubles f.toJSON g.toJSON ↔ f.Agree SameDoubleRevision g := by
  have hf := function_validate_ok.mp hf
  have hg := function_validate_ok.mp hg
  refine Iff.trans (Json.equiv_record_iff rfl rfl) ?_
  rw [Json.equivMembers_cons, Json.equivMembers_cons, Json.equivMembers_cons,
    Json.equivMembers_cons, equiv_kept (kept_identifier hf.id) (kept_identifier hg.id),
    equiv_kept (kept_name hf.name) (kept_name hg.name), equiv_uint64,
    equiv_enum (lifecycle_kept hf.lifecycle) (lifecycle_kept hg.lifecycle)
      (lifecycle_injective hf.lifecycle hg.lifecycle)]
  constructor
  · rintro ⟨h1, h2, h3, h4, _⟩
    exact ⟨h1, h2, h3, h4⟩
  · intro h
    exact ⟨h.id, h.name, h.revision, h.lifecycle, .nil⟩

/-- A policy the validator knows, and a verifier where it wants one. -/
theorem validateAuth_ok (h : t.validateAuth = .ok ()) :
    (t.authPolicy = .public ∨ t.authPolicy = .token) ∧
      ∀ d, t.tokenVerifierDigest = some d → encodedPattern d = true := by
  unfold HTTPTrigger.validateAuth at h
  cases hpolicy : t.authPolicy with
  | «public» =>
    rw [hpolicy] at h
    refine ⟨.inl rfl, fun d hd => ?_⟩
    rw [hd] at h
    cases h
  | token =>
    rw [hpolicy] at h
    refine ⟨.inr rfl, fun d hd => ?_⟩
    simp only [hd, checks_ok, List.mem_singleton, forall_eq, mustNot_fails,
      Bool.not_eq_false'] at h
    exact h
  | other text =>
    rw [hpolicy] at h
    cases h

/-- What the validator of a trigger tests. -/
structure HTTPTrigger.Valid (t : HTTPTrigger) (functionID : GoString) : Prop where
  id : identifierPattern t.id = true
  functionID : t.functionID = functionID
  revision : t.resourceRevision ≠ 0
  auth : t.validateAuth = .ok ()

theorem trigger_validate_ok : t.validate functionID = .ok () ↔ t.Valid functionID := by
  simp only [HTTPTrigger.validate, seq_ok, checks_ok, List.forall_mem_cons, mustNot_fails,
    Bool.or_eq_false_iff, Bool.not_eq_false', beq_eq_false_iff_ne, bne_eq_false_iff_eq,
    List.not_mem_nil, false_imp_iff, implies_true, and_true]
  constructor
  · rintro ⟨⟨⟨h1, h2⟩, h3⟩, h4⟩
    exact ⟨h1, h2, h3, h4⟩
  · intro h
    exact ⟨⟨⟨h.id, h.functionID⟩, h.revision⟩, h.auth⟩

theorem policy_kept {x : AuthPolicy} (h : x = .public ∨ x = .token) : Kept x.text := by
  rcases h with rfl | rfl <;> decide

theorem policy_injective {x y : AuthPolicy} (hx : x = .public ∨ x = .token)
    (hy : y = .public ∨ y = .token) (h : x.text = y.text) : x = y := by
  rcases hx with rfl | rfl <;> rcases hy with rfl | rfl <;>
    first | rfl | exact absurd h (by decide)

/-- Objects that differ only in whether they have an optional text. -/
theorem equiv_omitEmpty {key : GoString} {ms ms' ns ns' : List (GoString × Json Json.Num)}
    {x y : Option GoString} (hnames : ms.map Prod.fst = ms'.map Prod.fst)
    (hnames' : ns.map Prod.fst = ns'.map Prod.fst)
    (hnodup : (ms.map Prod.fst ++ key :: ns.map Prod.fst).Nodup) (hx : ∀ s, x = some s → Kept s)
    (hy : ∀ s, y = some s → Kept s) :
    Json.Equiv R (.obj (ms ++ omitEmpty key x ++ ns)) (.obj (ms' ++ omitEmpty key y ++ ns')) ↔
      Json.EquivMembers R ms ms' ∧ x = y ∧ Json.EquivMembers R ns ns' := by
  have hms : ms.length = ms'.length := by simpa using congrArg List.length hnames
  have hns : ns.length = ns'.length := by simpa using congrArg List.length hnames'
  -- with the text on one side only the objects differ in length
  have hone : ∀ s : GoString, (omitEmpty key (some s)).length = 1 := fun _ => rfl
  have hnone : (omitEmpty key none).length = 0 := rfl
  cases x with
  | none =>
    cases y with
    | none =>
      simp only [omitEmpty, Option.toList_none, List.map_nil, List.append_nil, true_and]
      refine (Json.equiv_obj_iff ?_ ?_).trans (Json.equivMembers_append hms)
      · rw [List.map_append, List.map_append, hnames, hnames']
      · rw [List.map_append]
        exact hnodup.sublist ((List.sublist_cons_self _ _).append_left _)
    | some s =>
      refine iff_of_false (fun h => ?_) (by simp)
      have hlength := h.obj_length
      simp only [List.length_append, hone, hnone] at hlength
      omega
  | some s =>
    cases y with
    | none =>
      refine iff_of_false (fun h => ?_) (by simp)
      have hlength := h.obj_length
      simp only [List.length_append, hone, hnone] at hlength
      omega
    | some t =>
      simp only [omitEmpty, Option.toList_some, List.map_cons, List.map_nil, List.append_assoc,
        List.singleton_append, Option.some.injEq]
      refine (Json.equiv_obj_iff ?_ ?_).trans ((Json.equivMembers_append hms).trans ?_)
      · simp only [List.map_append, List.map_cons, hnames, hnames']
      · simpa only [List.map_append, List.map_cons] using hnodup
      · rw [Json.equivMembers_cons, equiv_kept (hx s rfl) (hy t rfl)]

theorem equiv_trigger {u : HTTPTrigger} {functionID' : GoString}
    (hid : identifierPattern functionID = true) (hid' : identifierPattern functionID' = true)
    (ht : t.validate functionID = .ok ()) (hu : u.validate functionID' = .ok ()) :
    Json.Equiv doubles t.toJSON u.toJSON ↔ t.Agree SameDoubleRevision u := by
  have ht := trigger_validate_ok.mp ht
  have hu := trigger_validate_ok.mp hu
  obtain ⟨hpolicy, hverifier⟩ := validateAuth_ok ht.auth
  obtain ⟨hpolicy', hverifier'⟩ := validateAuth_ok hu.auth
  have hkept : Kept t.functionID := kept_identifier (ht.functionID ▸ hid)
  have hkept' : Kept u.functionID := kept_identifier (hu.functionID ▸ hid')
  simp only [HTTPTrigger.toJSON]
  rw [← List.append_nil (_ ++ omitEmpty _ t.tokenVerifierDigest),
    ← List.append_nil (_ ++ omitEmpty _ u.tokenVerifierDigest)]
  refine Iff.trans (equiv_omitEmpty rfl rfl ?_ (fun d hd => ControlPlane.sanitize_digest
    (hverifier d hd)) fun d hd => ControlPlane.sanitize_digest (hverifier' d hd)) ?_
  · simp only [List.map_cons, List.map_nil]
    decide
  simp only [Json.equivMembers_cons, Json.equivMembers_nil, and_true,
    equiv_kept (kept_identifier ht.id) (kept_identifier hu.id), equiv_kept hkept hkept',
    equiv_uint64, Json.equiv_bool, equiv_enum (policy_kept hpolicy) (policy_kept hpolicy')
      (policy_injective hpolicy hpolicy')]
  constructor
  · rintro ⟨⟨h1, h2, h3, h4, h5⟩, h6⟩
    exact ⟨h1, h2, h3, h4, h5, h6⟩
  · intro h
    exact ⟨⟨h.id, h.functionID, h.revision, h.enabled, h.authPolicy⟩, h.verifier⟩

/-! ## Routes -/

theorem equiv_target {t u : RouteTarget} (ht : validateTarget t = .ok ())
    (hu : validateTarget u = .ok ()) :
    Json.Equiv doubles (targetJSON t) (targetJSON u) ↔ TargetsAgree SameDoubleRevision t u := by
  have htexts : ∀ {t : RouteTarget}, validateTarget t = .ok () →
      Kept t.versionID ∧ Kept t.effectivePolicyDigest := by
    intro t h
    simp only [validateTarget, checks_ok, List.forall_mem_cons, mustNot_fails,
      Bool.or_eq_false_iff, Bool.not_eq_false'] at h
    exact ⟨kept_identifier h.1.1.1.1.1, ControlPlane.sanitize_digest h.2.1⟩
  refine Iff.trans (Json.equiv_record_iff rfl rfl) ?_
  rw [Json.equivMembers_cons, Json.equivMembers_cons, Json.equivMembers_cons,
    Json.equivMembers_cons, Json.equivMembers_cons, equiv_kept (htexts ht).1 (htexts hu).1,
    equiv_uint64, equiv_uint64, equiv_kept (htexts ht).2 (htexts hu).2, equiv_uint32]
  constructor
  · rintro ⟨h1, h2, h3, h4, h5, _⟩
    exact ⟨h1, h2, h3, h4, h5⟩
  · intro h
    exact ⟨h.version, h.epoch, h.generation, h.policy, h.weight, .nil⟩

/-- The texts of a valid Route. -/
structure Route.Texts (r : Route) : Prop where
  functionID : Kept r.functionID
  targets : ∀ t ∈ r.targets, validateTarget t = .ok ()
  affinity : r.affinity ∈ [AffinitySource.requestID, .idempotencyKey, .header, .other ""]
  header : Kept r.affinityHeader
  hashVersion : Kept r.hashVersion
  saltID : Kept r.saltID
  salt : r.salt.length = if r.present then 16 else 0

theorem affinity_texts (h : r.validateAffinity = .ok ()) :
    r.affinity ∈ [AffinitySource.requestID, .idempotencyKey, .header, .other ""] ∧
      Kept r.affinityHeader := by
  unfold Route.validateAffinity at h
  split at h
  · rename_i haffinity
    simp only [checks_ok, List.mem_singleton, forall_eq, mustNot_fails, bne_eq_false_iff_eq] at h
    rw [haffinity, h]
    exact ⟨by decide, rfl⟩
  · rename_i haffinity
    simp only [checks_ok, List.mem_singleton, forall_eq, mustNot_fails, bne_eq_false_iff_eq] at h
    rw [haffinity, h]
    exact ⟨by decide, rfl⟩
  · rename_i haffinity
    simp only [checks_ok, List.mem_singleton, forall_eq, mustNot_fails, Bool.or_eq_false_iff,
      Bool.not_eq_false'] at h
    rw [haffinity]
    exact ⟨by decide, Text.sanitize_valid h.1⟩
  · cases h

theorem route_texts (hid : identifierPattern functionID = true)
    (h : r.validate functionID = .ok ()) : r.Texts := by
  by_cases hpresent : r.present = true
  · have hr := (route_published hpresent).mp h
    obtain ⟨haffinity, hheader⟩ := affinity_texts hr.affinity
    exact ⟨kept_identifier (hr.functionID ▸ hid), hr.targets, haffinity, hheader,
      hr.hashVersion ▸ (by decide : Kept hashVersionSHA256BPSV1), kept_identifier hr.saltID,
      by rw [if_pos hpresent]; exact hr.salt⟩
  · rw [route_absent h (Bool.eq_false_iff.mpr hpresent)]
    exact ⟨kept_identifier hid, List.forall_mem_nil _,
      (by decide : AffinitySource.other "" ∈
        [AffinitySource.requestID, .idempotencyKey, .header, .other ""]), rfl, rfl, rfl, rfl⟩

theorem affinity_kept {x : AffinitySource}
    (h : x ∈ [AffinitySource.requestID, .idempotencyKey, .header, .other ""]) : Kept x.text := by
  revert x
  decide

theorem affinity_injective {x y : AffinitySource}
    (hx : x ∈ [AffinitySource.requestID, .idempotencyKey, .header, .other ""])
    (hy : y ∈ [AffinitySource.requestID, .idempotencyKey, .header, .other ""])
    (h : x.text = y.text) : x = y := by
  have hpairs : ∀ x ∈ [AffinitySource.requestID, .idempotencyKey, .header, .other ""],
      ∀ y ∈ [AffinitySource.requestID, .idempotencyKey, .header, .other ""],
        x.text = y.text → x = y := by decide
  exact hpairs x hx y hy h

/-- The affinity header as an optional text. -/
theorem header_option {t : GoString} :
    ((if s = [] then none else some s) = if t = [] then none else some t) ↔ s = t := by
  by_cases hs : s = [] <;> by_cases ht : t = [] <;> simp [hs, ht, eq_comm]

theorem equiv_route {q : Route} {functionID' : GoString}
    (hid : identifierPattern functionID = true) (hid' : identifierPattern functionID' = true)
    (hr : r.validate functionID = .ok ()) (hq : q.validate functionID' = .ok ()) :
    Json.Equiv doubles r.toJSON q.toJSON ↔ r.Agree SameDoubleRevision q := by
  have hr := route_texts hid hr
  have hq := route_texts hid' hq
  have hheader : ∀ {x : Route}, x.Texts → ∀ s,
      (if x.affinityHeader = [] then none else some x.affinityHeader) = some s → Kept s := by
    intro x hx s hs
    split_ifs at hs
    exact Option.some.inj hs ▸ hx.header
  have htargets : Json.Equiv doubles (.arr (r.targets.map targetJSON))
      (.arr (q.targets.map targetJSON)) ↔
      List.Forall₂ (TargetsAgree SameDoubleRevision) r.targets q.targets := by
    rw [Json.equiv_arr_map]
    exact forall₂_congr_mem fun t ht u hu => equiv_target (hr.targets t ht) (hq.targets u hu)
  have hsalt : r.present = q.present → (Json.Equiv doubles (.ofBytes r.salt) (.ofBytes q.salt) ↔
      r.salt = q.salt) := by
    intro hpresent
    rw [Json.ofBytes, Json.ofBytes, Json.equiv_str]
    refine ⟨Json.base64_injective ?_, congrArg _⟩
    rw [hr.salt, hq.salt, hpresent]
  refine Iff.trans (equiv_omitEmpty rfl rfl ?_ (hheader hr) (hheader hq)) ?_
  · simp only [List.map_cons, List.map_nil]
    decide
  simp only [Json.equivMembers_cons, Json.equivMembers_nil, and_true, Json.equiv_bool,
    equiv_kept hr.functionID hq.functionID, equiv_uint64, htargets, header_option,
    equiv_kept hr.hashVersion hq.hashVersion, equiv_kept hr.saltID hq.saltID,
    equiv_enum (affinity_kept hr.affinity) (affinity_kept hq.affinity)
      (affinity_injective hr.affinity hq.affinity)]
  constructor
  · rintro ⟨⟨h1, h2, h3, h4, h5, h6, h7⟩, h8, h9, h10, h11⟩
    exact ⟨h1, h2, h3, h4, h5, h6, h7, h8, h9, h10, (hsalt h1).mp h11⟩
  · intro h
    exact ⟨⟨h.present, h.functionID, h.resource, h.revision, h.enabled, h.targets, h.affinity⟩,
      h.header, h.hashVersion, h.saltID, (hsalt h.present).mpr h.salt⟩

/-! ## Endpoints and snapshots -/

/-- What makes an endpoint valid, as far as its text goes. -/
theorem endpoint_texts {e : Endpoint} (h : e.validate = .ok ()) :
    Kept e.assignment.assignmentID ∧ Kept e.assignment.versionID ∧ Kept e.assignment.policyDigest ∧
      e.assignment.mode = .normal ∧ Kept e.assignment.worker.workerID ∧
      Kept e.assignment.worker.bootID ∧ Kept e.address ∧ e.state = .ready := by
  simp only [Endpoint.validate, checks_ok, List.forall_mem_cons, mustNot_fails,
    Bool.not_eq_false', Bool.or_eq_false_iff, bne_eq_false_iff_eq, isOk_iff] at h
  obtain ⟨hidentity, ⟨hmode, hstate⟩, haddress, -⟩ := h
  simp only [AssignmentIdentity.validate, WorkerSession.validate, seq_ok, checks_ok,
    List.forall_mem_cons, mustNot_fails, Bool.not_eq_false'] at hidentity
  obtain ⟨⟨hworker, hboot, -⟩, hid, hversion, -, -, hpolicy, -⟩ := hidentity
  have hutf8 : Text.validUTF8 e.address = true := by
    unfold validEndpointAddress at haddress
    split_ifs at haddress with hbad
    simp only [Bool.or_eq_true, not_or, Bool.not_eq_true, Bool.not_eq_false'] at hbad
    exact hbad.1.2
  exact ⟨kept_identifier hid, kept_identifier hversion, ControlPlane.sanitize_digest hpolicy, hmode,
    kept_identifier hworker, kept_identifier hboot, Text.sanitize_valid hutf8, hstate⟩

theorem equiv_endpoint {e e' : Endpoint} (he : e.validate = .ok ()) (he' : e'.validate = .ok ()) :
    Json.Equiv doubles e.canonical e'.canonical ↔ e.Agree SameDoubleRevision e' := by
  obtain ⟨hid, hversion, hpolicy, hmode, hworker, hboot, haddress, hstate⟩ := endpoint_texts he
  obtain ⟨hid', hversion', hpolicy', hmode', hworker', hboot', haddress', hstate'⟩ :=
    endpoint_texts he'
  refine Iff.trans (Json.equiv_record_iff rfl rfl) ?_
  simp only [Json.equivMembers_cons, Json.equivMembers_nil, and_true, equiv_kept hid hid',
    equiv_kept hversion hversion', equiv_uint64, equiv_kept hpolicy hpolicy', hmode, hmode',
    equiv_kept hworker hworker', equiv_kept hboot hboot', equiv_kept haddress haddress', hstate,
    hstate']
  have hsame : ∀ {text : GoString}, Json.Equiv doubles (.ofGoString text) (.ofGoString text) :=
    Json.equiv_str.mpr rfl
  constructor
  · rintro ⟨h1, h2, h3, h4, h5, -, h6, h7, h8, h9, -⟩
    exact ⟨h1, h2, h3, h4, h5, hmode.trans hmode'.symm, h6, h7, h8, h9, hstate.trans hstate'.symm⟩
  · intro h
    exact ⟨h.id, h.version, h.epoch, h.generation, h.policy, hsame, h.worker, h.boot, h.session,
      h.address, hsame⟩

/-- What the header of a snapshot must say. -/
theorem header_ok {s : Snapshot} (h : s.validateHeader = .ok ()) :
    s.schemaVersion = servingSchemaVersion ∧ identifierPattern s.functionID = true ∧
      s.discoveryEpoch ≠ 0 ∧ s.servingSequence ≠ 0 ∧ s.generatedAt.isUTC = true := by
  simp only [Snapshot.validateHeader, checks_ok, List.forall_mem_cons, mustNot_fails,
    bne_eq_false_iff_eq, Bool.not_eq_false', beq_eq_false_iff_ne, Bool.or_eq_false_iff] at h
  exact ⟨h.1, h.2.1, h.2.2.1, h.2.2.2.1, h.2.2.2.2.1.2⟩

theorem equiv_snapshot (ha : a.WellFormed) (hb : b.WellFormed) :
    Json.Equiv doubles a.canonical b.canonical ↔ a.Agree SameDoubleRevision b := by
  obtain ⟨hschema, hid, -, -, hutc⟩ := header_ok ha.header
  obtain ⟨hschema', hid', -, -, hutc'⟩ := header_ok hb.header
  have hendpoints : Json.Equiv doubles (.arr (a.endpointList.map Endpoint.canonical))
      (.arr (b.endpointList.map Endpoint.canonical)) ↔
      List.Forall₂ (Endpoint.Agree SameDoubleRevision) a.endpointList b.endpointList := by
    rw [Json.equiv_arr_map]
    exact forall₂_congr_mem fun e he e' he' =>
      equiv_endpoint ((validateEndpoints_ok.mp ha.endpoints).1 e he).1
        ((validateEndpoints_ok.mp hb.endpoints).1 e' he').1
  have hkept : Kept servingSchemaVersion := by decide
  refine Iff.trans (Json.equiv_record_iff rfl rfl) ?_
  simp only [Json.equivMembers_cons, Json.equivMembers_nil, and_true,
    equiv_kept (hschema ▸ hkept) (hschema' ▸ hkept),
    equiv_kept (kept_identifier hid) (kept_identifier hid'), equiv_uint64,
    equiv_kept (kept_ascii (Time.format_ascii hutc)) (kept_ascii (Time.format_ascii hutc')),
    Time.format_eq_iff hutc hutc', equiv_function ha.function hb.function,
    equiv_trigger hid hid' ha.trigger hb.trigger, equiv_route hid hid' ha.route hb.route,
    hendpoints]
  constructor
  · rintro ⟨h1, h2, h3, h4, h5, h6, h7, h8, h9⟩
    exact ⟨h1, h2, h3, h4, h5, h6, h7, h8, h9⟩
  · intro h
    exact ⟨h.schemaVersion, h.functionID, h.epoch, h.sequence, h.instant, h.function, h.trigger,
      h.route, h.endpoints⟩

/-! ## When the checksum separates -/

/-- The bytes the checksum of a snapshot hashes. -/
def Snapshot.hashed (s : Snapshot) : Option GoString :=
  (Json.transform s.canonical).map (preimage servingChecksumDomain servingChecksumVersion)

theorem checksum_ok {s : Snapshot} {d : SHA256} (h : calculateChecksum s = .ok d) :
    ∃ text, Json.transform s.canonical = some text ∧
      d = sum (preimage servingChecksumDomain servingChecksumVersion text) := by
  obtain ⟨text, htext⟩ := (accepted_snapshot s).transform
  rw [calculateChecksum, canonicalJSON, if_neg (by decide), if_neg (by decide), htext] at h
  exact ⟨text, htext, (Except.ok.inj h).symm⟩

/-- Snapshots that agree up to rounding hash the same bytes. -/
theorem Snapshot.Agree.hashed (ha : a.WellFormed) (hb : b.WellFormed)
    (h : a.Agree SameDoubleRevision b) : a.hashed = b.hashed := by
  obtain ⟨text, htext⟩ := (accepted_snapshot a).transform
  obtain ⟨text', htext'⟩ := (accepted_snapshot b).transform
  have hsame : text = text' :=
    (Json.transform_eq_iff htext htext').mpr ((equiv_snapshot ha hb).mpr h)
  rw [Snapshot.hashed, Snapshot.hashed, htext, htext', hsame]

theorem checksum_hashed {s : Snapshot} (h : s.validate = .ok ()) :
    ∃ p, s.hashed = some p ∧ s.checksum = sum p := by
  obtain ⟨text, htext, hchecksum⟩ := checksum_ok (validate_ok.mp h).2.2
  exact ⟨_, by rw [Snapshot.hashed, htext, Option.map_some], hchecksum⟩

/-- Two checksums are equal exactly when the snapshots agree up to rounding their numbers. -/
theorem checksum_eq_iff (ha : a.validate = .ok ()) (hb : b.validate = .ok ())
    (hcollision : ∀ p q, a.hashed = some p → b.hashed = some q → sum p = sum q → p = q) :
    a.checksum = b.checksum ↔ a.Agree SameDoubleRevision b := by
  have hwf := (validate_ok.mp ha).1
  have hwf' := (validate_ok.mp hb).1
  obtain ⟨p, hp, hchecksum⟩ := checksum_hashed ha
  obtain ⟨q, hq, hchecksum'⟩ := checksum_hashed hb
  constructor
  · intro h
    rw [hchecksum, hchecksum'] at h
    obtain rfl := hcollision p q hp hq h
    obtain ⟨text, htext⟩ := (accepted_snapshot a).transform
    obtain ⟨text', htext'⟩ := (accepted_snapshot b).transform
    rw [Snapshot.hashed, htext, Option.map_some, Option.some.injEq] at hp
    rw [Snapshot.hashed, htext', Option.map_some, Option.some.injEq] at hq
    have hsame : text = text' := preimage_inj (hp.trans hq.symm)
    exact (equiv_snapshot hwf hwf').mp ((Json.transform_eq_iff htext htext').mp hsame)
  · intro h
    have hhashed := h.hashed hwf hwf'
    rw [hp, hq, Option.some.injEq] at hhashed
    rw [hchecksum, hchecksum', hhashed]

/-- The snapshots differ, but only in machine integers that no double tells apart. -/
def Blurred (a b : Snapshot) : Prop := a.Agree SameDoubleRevision b ∧ ¬ a.SameContent b

/--
**The checksum separates snapshots, up to doubles.** Of two valid snapshots, equal checksums mean
equal contents unless the two are blurred.
-/
theorem checksum_separates {a b : Snapshot} (ha : a.validate = .ok ()) (hb : b.validate = .ok ())
    (hcollision : ∀ p q, a.hashed = some p → b.hashed = some q → sum p = sum q → p = q) :
    (a.checksum = b.checksum → a.SameContent b) ↔ ¬ Blurred a b := by
  rw [checksum_eq_iff ha hb hcollision, Blurred, not_and_not_right]

/-! ## Two positions the checksum does not separate -/

theorem sampleAt_valid {sequence : UInt64} (h : sequence ≠ 0) :
    (sampleAt sequence).result.snapshot.validate = .ok () :=
  (sampleAt_admitted h).wellFormed.stamped

/-- Both samples hash one text. -/
theorem sampleAt_hashed : ∃ p,
    (sampleAt (2 ^ 53)).result.snapshot.hashed = some p ∧
    (sampleAt (2 ^ 53 + 1)).result.snapshot.hashed = some p ∧
    (sampleAt (2 ^ 53)).result.snapshot.checksum = sum p ∧
    (sampleAt (2 ^ 53 + 1)).result.snapshot.checksum = sum p := by
  have hvalid := sampleAt_valid (by decide : (2 ^ 53 : UInt64) ≠ 0)
  have hvalid' := sampleAt_valid (by decide : (2 ^ 53 + 1 : UInt64) ≠ 0)
  obtain ⟨p, hp, hchecksum⟩ := checksum_hashed hvalid
  obtain ⟨q, hq, hchecksum'⟩ := checksum_hashed hvalid'
  have hsame : (sampleAt (2 ^ 53)).result.snapshot.hashed =
      (sampleAt (2 ^ 53 + 1)).result.snapshot.hashed := by decide +kernel
  rw [hp, hq, Option.some.injEq] at hsame
  subst hsame
  exact ⟨p, hp, hq, hchecksum, hchecksum'⟩

theorem sampleAt_differs : ¬ (sampleAt (2 ^ 53)).result.snapshot.SameContent
    (sampleAt (2 ^ 53 + 1)).result.snapshot := by
  rintro ⟨-, hsame⟩
  have hsequence : (2 ^ 53 : UInt64) = 2 ^ 53 + 1 := congrArg Snapshot.servingSequence hsame
  exact absurd hsequence (by decide)

/-- Snapshots at the sequences `2 ^ 53` and `2 ^ 53 + 1` have one checksum. -/
theorem checksum_blurs :
    (sampleAt (2 ^ 53)).result.snapshot.validate = .ok () ∧
    (sampleAt (2 ^ 53 + 1)).result.snapshot.validate = .ok () ∧
    (sampleAt (2 ^ 53)).result.snapshot.checksum =
      (sampleAt (2 ^ 53 + 1)).result.snapshot.checksum ∧
    ¬ (sampleAt (2 ^ 53)).result.snapshot.SameContent
      (sampleAt (2 ^ 53 + 1)).result.snapshot := by
  obtain ⟨p, -, -, hchecksum, hchecksum'⟩ := sampleAt_hashed
  exact ⟨sampleAt_valid (by decide), sampleAt_valid (by decide), hchecksum.trans hchecksum'.symm,
    sampleAt_differs⟩

theorem checksum_separates_sample :
    ((sampleAt (2 ^ 53)).result.snapshot.checksum =
        (sampleAt (2 ^ 53 + 1)).result.snapshot.checksum →
      (sampleAt (2 ^ 53)).result.snapshot.SameContent
        (sampleAt (2 ^ 53 + 1)).result.snapshot) ↔
    ¬ Blurred (sampleAt (2 ^ 53)).result.snapshot (sampleAt (2 ^ 53 + 1)).result.snapshot := by
  obtain ⟨p, hp, hq, -, -⟩ := sampleAt_hashed
  refine checksum_separates (sampleAt_valid (by decide)) (sampleAt_valid (by decide)) ?_
  intro q q' hq₁ hq₂ _
  rw [hp] at hq₁
  rw [hq] at hq₂
  exact Option.some.inj (hq₁.symm.trans hq₂)

end MiniCloud.Discovery
