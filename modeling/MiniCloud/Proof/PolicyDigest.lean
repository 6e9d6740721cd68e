import MiniCloud.Model.Deployment
import MiniCloud.Proof.Checksum

/-!
# What the policy digest separates

A policy is named by the digest of its canonical text. The text keeps every field of a valid
policy but two: the admission epoch and the generation are written as JSON numbers over the whole
range of `uint64`, and RFC 8785 rounds them to doubles.
-/

namespace MiniCloud.Model

open Lib Problem Digest Discovery

open ControlPlane (SameDoubleRevision sampleDouble)

/-- Two policies agree, epochs and generations compared by `num`; capabilities are a set. -/
structure EffectivePolicy.Agree (num : UInt64 → UInt64 → Prop) (p q : EffectivePolicy) :
    Prop where
  versionID : p.versionID = q.versionID
  epoch : num p.admissionEpoch q.admissionEpoch
  generation : num p.deploymentGeneration q.deploymentGeneration
  artifactDigest : p.artifactDigest = q.artifactDigest
  artifactSize : p.artifactSize = q.artifactSize
  abi : p.abi = q.abi
  hostAPIProfile : p.hostAPIProfile = q.hostAPIProfile
  runtimeFeatureProfile : p.runtimeFeatureProfile = q.runtimeFeatureProfile
  resourceLimits : p.resourceLimits = q.resourceLimits
  maxConcurrency : p.maxConcurrency = q.maxConcurrency
  capabilities : ∀ c, c ∈ p.grantedCapabilities ↔ c ∈ q.grantedCapabilities

/-- Every string of a policy. -/
def EffectivePolicy.texts (p : EffectivePolicy) : List GoString :=
  [p.versionID, p.artifactDigest, p.abi, p.hostAPIProfile, p.runtimeFeatureProfile] ++
    p.grantedCapabilities.flatMap fun c => [c.name, c.version]

/-! ## A valid policy -/

/-- Integers that a double holds exactly. -/
def Small (n : Int) : Prop := 0 ≤ n ∧ n ≤ 2 ^ 53

/-- What `Validate` says about the numbers and the capabilities of a policy. -/
structure EffectivePolicy.Bounded (p : EffectivePolicy) : Prop where
  artifactSize : Small p.artifactSize
  timeout : Small (p.resourceLimits.timeout / Duration.millisecond)
  whole : p.resourceLimits.timeout % Duration.millisecond = 0
  input : Small p.resourceLimits.maxInputBytes
  output : Small p.resourceLimits.maxOutputBytes
  log : Small p.resourceLimits.maxLogBytes
  capabilities : p.grantedCapabilities.Nodup

theorem validateCapabilities_nodup {l : List CapabilityRequest}
    (h : validateCapabilities l = .ok ()) : l.Nodup :=
  List.Nodup.of_map _ (checkEach_ok.mp h).2.2

variable {p q : EffectivePolicy}

theorem validate_bounded (h : p.validate = .ok ()) : p.Bounded := by
  rw [EffectivePolicy.validate, seq_ok, seq_ok, seq_ok, checks_ok, checks_ok] at h
  obtain ⟨hfields, hlimits, hrest, hgranted⟩ := h
  simp only [List.forall_mem_cons, mustNot_fails] at hfields hrest
  have hsize := hfields.2.2.2.2.1
  simp only [Bool.or_eq_false_iff, decide_eq_false_iff_not, not_lt] at hsize
  simp only [maxArtifactBytes] at hsize
  simp only [ResourceLimits.validate, seq_ok, ResourceRequest.validate, checks_ok,
    List.forall_mem_cons, mustNot_fails, Bool.or_eq_false_iff, decide_eq_false_iff_not, not_lt,
    not_le] at hlimits
  obtain ⟨⟨htimeout, -, -, hinput, houtput, -⟩, hlog, -⟩ := hlimits
  have hms : ∀ n : Int, 0 < n ∧ n ≤ 30 * 1000000000 → Small (n / 1000000) := by
    intro n hn
    unfold Small
    omega
  refine ⟨?_, hms _ htimeout, by simpa using hrest.1, ?_, ?_, ?_, ?_⟩
  · unfold Small
    omega
  · unfold Small
    omega
  · unfold Small
    omega
  · unfold Small
    omega
  · -- the error of the capability check is only renamed, so a pass is its pass
    cases hcap : validateCapabilities p.grantedCapabilities with
    | ok u => exact validateCapabilities_nodup hcap
    | error err =>
      rw [hcap] at hgranted
      simp only at hgranted
      split at hgranted <;> cases hgranted

theorem accepted_small {n : Int} (h : Small n) : Json.Accepted (.ofInt n) := by
  refine Json.accepted_ofInt ?_
  unfold Small at h
  omega

theorem accepted_capability (c : CapabilityRequest) : c.toJSON.Accepted :=
  Json.accepted_record rfl (by simp)

/-- Every number of a policy is a machine integer, so its tree has a canonical text. -/
theorem accepted_policy (h : p.Bounded) : p.canonical.Accepted := by
  have hlimits : p.resourceLimits.canonical.Accepted :=
    Json.accepted_record rfl (by simp [accepted_small h.timeout, accepted_small h.input,
      accepted_small h.output, accepted_small h.log])
  exact Json.accepted_record rfl
    (by simp [accepted_small h.artifactSize, hlimits, accepted_capability])

/-! ## Equal texts -/

theorem equiv_small {n m : Int} (hn : Small n) (hm : Small m) :
    Json.Equiv doubles (.ofInt n) (.ofInt m) ↔ n = m := by
  obtain ⟨k, rfl⟩ := Int.eq_ofNat_of_zero_le hn.1
  obtain ⟨l, rfl⟩ := Int.eq_ofNat_of_zero_le hm.1
  have hexact : ∀ k : ℕ, Small k → Double.round (k : ℚ) = some (k : ℚ) := by
    intro k hk
    refine Double.round_natCast ?_
    unfold Small at hk
    omega
  have hsign : ∀ k : ℕ, decide ((k : Int) < 0) = false := by
    intro k
    simp
  simp only [Json.ofInt, hsign, Int.natAbs_natCast, Json.equiv_num, doubles, Json.Num.double,
    Json.value_decimal, hexact k hn, hexact l hm, Option.some.injEq, Nat.cast_inj]

instance : Std.TransCmp compareCapabilities :=
  inferInstanceAs (Std.TransCmp
    (compareLex (compareOn CapabilityRequest.name) (compareOn CapabilityRequest.version)))

theorem compareCapabilities_eq {a b : CapabilityRequest} (h : compareCapabilities a b = .eq) :
    a = b := by
  simp only [compareCapabilities, compareLex, compareOn, Ordering.then_eq_eq,
    Std.LawfulEqOrd.compare_eq_iff_eq] at h
  obtain ⟨_, _⟩ := a
  obtain ⟨_, _⟩ := b
  obtain ⟨rfl, rfl⟩ := h
  rfl

/-- Two lists without repetition sort alike exactly when they are one set. -/
theorem sort_capabilities {l l' : List CapabilityRequest} (hl : l.Nodup) (hl' : l'.Nodup) :
    sortFunc compareCapabilities l = sortFunc compareCapabilities l' ↔ ∀ c, c ∈ l ↔ c ∈ l' := by
  constructor
  · intro h c
    rw [← @mem_sortFunc _ compareCapabilities l, h, mem_sortFunc]
  · intro h
    exact sortFunc_eq_of_perm ((List.perm_ext_iff_of_nodup hl hl').mpr h)
      fun a _ b _ => compareCapabilities_eq

theorem equiv_capability {a b : CapabilityRequest} (ha : Kept a.name ∧ Kept a.version)
    (hb : Kept b.name ∧ Kept b.version) : Json.Equiv doubles a.toJSON b.toJSON ↔ a = b := by
  refine Iff.trans (Json.equiv_record_iff rfl rfl) ?_
  rw [Json.equivMembers_cons, Json.equivMembers_cons, equiv_kept ha.1 hb.1, equiv_kept ha.2 hb.2]
  obtain ⟨_, _⟩ := a
  obtain ⟨_, _⟩ := b
  simp

/-- The encoder keeps what is valid UTF-8. -/
theorem kept_capability (h : ∀ s ∈ p.texts, Text.validUTF8 s = true) :
    ∀ c ∈ p.grantedCapabilities, Kept c.name ∧ Kept c.version := by
  intro c hc
  have hmem : ∀ s ∈ [c.name, c.version], s ∈ p.texts := by
    intro s hs
    exact List.mem_append_right _ (List.mem_flatMap.mpr ⟨c, hc, hs⟩)
  exact ⟨Text.sanitize_valid (h _ (hmem _ (by simp))),
    Text.sanitize_valid (h _ (hmem _ (by simp)))⟩

theorem equiv_capabilities (hp : p.Bounded) (hq : q.Bounded)
    (htp : ∀ s ∈ p.texts, Text.validUTF8 s = true) (htq : ∀ s ∈ q.texts, Text.validUTF8 s = true) :
    Json.Equiv doubles
        (.arr ((sortFunc compareCapabilities p.grantedCapabilities).map CapabilityRequest.toJSON))
        (.arr ((sortFunc compareCapabilities q.grantedCapabilities).map CapabilityRequest.toJSON)) ↔
      ∀ c, c ∈ p.grantedCapabilities ↔ c ∈ q.grantedCapabilities := by
  rw [Json.equiv_arr_map, ← sort_capabilities hp.capabilities hq.capabilities]
  refine (forall₂_congr_mem ?_).trans (forall₂_iff_eq Iff.rfl)
  intro a ha b hb
  exact equiv_capability (kept_capability htp a (mem_sortFunc.mp ha))
    (kept_capability htq b (mem_sortFunc.mp hb))

theorem equiv_limits (hp : p.Bounded) (hq : q.Bounded) :
    Json.Equiv doubles p.resourceLimits.canonical q.resourceLimits.canonical ↔
      p.resourceLimits = q.resourceLimits := by
  refine Iff.trans (Json.equiv_record_iff rfl rfl) ?_
  rw [Json.equivMembers_cons, Json.equivMembers_cons, Json.equivMembers_cons,
    Json.equivMembers_cons, Json.equivMembers_cons, equiv_small hp.timeout hq.timeout,
    equiv_uint32, equiv_small hp.input hq.input, equiv_small hp.output hq.output,
    equiv_small hp.log hq.log]
  have hwhole := hp.whole
  have hwhole' := hq.whole
  generalize p.resourceLimits = l at hwhole
  generalize q.resourceLimits = l' at hwhole'
  obtain ⟨timeout, _, _, _, _⟩ := l
  obtain ⟨timeout', _, _, _, _⟩ := l'
  -- whole milliseconds are told apart by their quotients
  have hquotient : ∀ a b : Int, a % 1000000 = 0 → b % 1000000 = 0 →
      (a / 1000000 = b / 1000000 ↔ a = b) := by
    intro a b ha hb
    omega
  have htimeout : timeout / Duration.millisecond = timeout' / Duration.millisecond ↔
      timeout = timeout' := hquotient timeout timeout' hwhole hwhole'
  simp only [htimeout, Json.equivMembers_nil, and_true, ResourceLimits.mk.injEq]

theorem equiv_policy (hp : p.Bounded) (hq : q.Bounded)
    (htp : ∀ s ∈ p.texts, Text.validUTF8 s = true) (htq : ∀ s ∈ q.texts, Text.validUTF8 s = true) :
    Json.Equiv doubles p.canonical q.canonical ↔ p.Agree SameDoubleRevision q := by
  have hkept : ∀ {r : EffectivePolicy}, (∀ s ∈ r.texts, Text.validUTF8 s = true) →
      Kept r.versionID ∧ Kept r.artifactDigest ∧ Kept r.abi ∧ Kept r.hostAPIProfile ∧
        Kept r.runtimeFeatureProfile := by
    intro r hr
    simp only [EffectivePolicy.texts, List.forall_mem_append, List.forall_mem_cons] at hr
    obtain ⟨⟨h1, h2, h3, h4, h5, -⟩, -⟩ := hr
    exact ⟨Text.sanitize_valid h1, Text.sanitize_valid h2, Text.sanitize_valid h3,
      Text.sanitize_valid h4, Text.sanitize_valid h5⟩
  obtain ⟨hp1, hp2, hp3, hp4, hp5⟩ := hkept htp
  obtain ⟨hq1, hq2, hq3, hq4, hq5⟩ := hkept htq
  refine Iff.trans (Json.equiv_record_iff rfl rfl) ?_
  simp only [Json.equivMembers_cons, Json.equivMembers_nil, and_true, equiv_kept hp1 hq1,
    equiv_kept hp2 hq2, equiv_kept hp3 hq3, equiv_kept hp4 hq4, equiv_kept hp5 hq5, equiv_uint64,
    equiv_uint32, equiv_small hp.artifactSize hq.artifactSize, equiv_limits hp hq,
    equiv_capabilities hp hq htp htq]
  constructor
  · rintro ⟨h1, h2, h3, h4, h5, h6, h7, h8, h9, h10, h11⟩
    exact ⟨h1, h2, h3, h4, h5, h6, h7, h8, h9, h10, h11⟩
  · intro h
    exact ⟨h.versionID, h.epoch, h.generation, h.artifactDigest, h.artifactSize, h.abi,
      h.hostAPIProfile, h.runtimeFeatureProfile, h.resourceLimits, h.maxConcurrency,
      h.capabilities⟩

/-! ## When the digest separates -/

/-- The bytes the digest of a policy hashes. -/
def EffectivePolicy.hashed (p : EffectivePolicy) : Option GoString :=
  (Json.transform p.canonical).map (preimage effectivePolicyDomain effectivePolicySchemaVersion)

/-- A valid policy has a digest, that of the bytes it hashes. -/
theorem policy_hashed (h : p.validate = .ok ()) :
    ∃ text, Json.transform p.canonical = some text ∧
      p.hashed = some (preimage effectivePolicyDomain effectivePolicySchemaVersion text) ∧
      p.digest = .ok (sum (preimage effectivePolicyDomain effectivePolicySchemaVersion text)) := by
  obtain ⟨text, htext⟩ := (accepted_policy (validate_bounded h)).transform
  refine ⟨text, htext, ?_, ?_⟩
  · rw [EffectivePolicy.hashed, htext, Option.map_some]
  · simp only [EffectivePolicy.digest, h, canonicalJSON, htext, bind, Except.bind]
    rfl

/-- The policies differ, but only in an epoch or generation that no double tells apart. -/
def EffectivePolicy.Blurred (p q : EffectivePolicy) : Prop :=
  p.Agree SameDoubleRevision q ∧
    ¬ (p.admissionEpoch = q.admissionEpoch ∧ p.deploymentGeneration = q.deploymentGeneration)

theorem policy_digest_iff (hp : p.validate = .ok ()) (hq : q.validate = .ok ())
    (htp : ∀ s ∈ p.texts, Text.validUTF8 s = true) (htq : ∀ s ∈ q.texts, Text.validUTF8 s = true)
    (hcollision : ∀ a b, p.hashed = some a → q.hashed = some b → sum a = sum b → a = b) :
    p.digest = q.digest ↔ p.Agree SameDoubleRevision q := by
  obtain ⟨text, htext, hhashed, hdigest⟩ := policy_hashed hp
  obtain ⟨text', htext', hhashed', hdigest'⟩ := policy_hashed hq
  rw [hdigest, hdigest', Except.ok.injEq,
    ← equiv_policy (validate_bounded hp) (validate_bounded hq) htp htq]
  refine Iff.trans ?_ (Json.transform_eq_iff htext htext')
  constructor
  · intro h
    exact preimage_inj (hcollision _ _ hhashed hhashed' h)
  · rintro rfl
    rfl

/--
**The policy digest separates policies, up to doubles.** Valid policies have digests, and these
are equal exactly for policies that agree in every field, unless the two are blurred. No policies
are whose epochs and generations are at most `2 ^ 53`.
-/
theorem policy_digest_separates {p q : EffectivePolicy} (hp : p.validate = .ok ())
    (hq : q.validate = .ok ()) (htp : ∀ s ∈ p.texts, Text.validUTF8 s = true)
    (htq : ∀ s ∈ q.texts, Text.validUTF8 s = true)
    (hcollision : ∀ a b, p.hashed = some a → q.hashed = some b → sum a = sum b → a = b) :
    (∃ d, p.digest = .ok d) ∧ (∃ d, q.digest = .ok d) ∧
    ((p.digest = q.digest ↔ p.Agree (· = ·) q) ↔ ¬ p.Blurred q) ∧
    ((∀ r ∈ [p, q], r.admissionEpoch ≤ 2 ^ 53 ∧ r.deploymentGeneration ≤ 2 ^ 53) →
      ¬ p.Blurred q) := by
  obtain ⟨text, -, -, hdigest⟩ := policy_hashed hp
  obtain ⟨text', -, -, hdigest'⟩ := policy_hashed hq
  refine ⟨⟨_, hdigest⟩, ⟨_, hdigest'⟩, ?_, ?_⟩
  · rw [policy_digest_iff hp hq htp htq hcollision]
    have hexact : p.Agree (· = ·) q ↔ p.Agree SameDoubleRevision q ∧
        p.admissionEpoch = q.admissionEpoch ∧ p.deploymentGeneration = q.deploymentGeneration := by
      constructor
      · intro h
        refine ⟨{ h with epoch := ?_, generation := ?_ }, h.epoch, h.generation⟩
        · rw [h.epoch]
          rfl
        · rw [h.generation]
          rfl
      · rintro ⟨h, hepoch, hgeneration⟩
        exact { h with epoch := hepoch, generation := hgeneration }
    rw [hexact]
    unfold EffectivePolicy.Blurred
    tauto
  · rintro hsmall ⟨hagree, hdiffer⟩
    have hsp := hsmall p (by simp)
    have hsq := hsmall q (by simp)
    have hinj : ∀ {n m : UInt64}, n ≤ 2 ^ 53 → m ≤ 2 ^ 53 → SameDoubleRevision n m → n = m := by
      intro n m hn hm h
      have hn' : n.toNat ≤ 2 ^ 53 := UInt64.le_iff_toNat_le.mp hn
      have hm' : m.toNat ≤ 2 ^ 53 := UInt64.le_iff_toNat_le.mp hm
      unfold SameDoubleRevision ControlPlane.SameDouble at h
      rw [Double.round_natCast hn', Double.round_natCast hm', Option.some.injEq,
        Nat.cast_inj] at h
      exact UInt64.toNat_inj.mp h
    exact hdiffer ⟨hinj hsp.1 hsq.1 hagree.epoch, hinj hsp.2 hsq.2 hagree.generation⟩

/-! ## Two epochs the digest does not separate -/

/-- A policy at an admission epoch. -/
def samplePolicy (epoch : UInt64) : EffectivePolicy where
  versionID := "ver-1"
  admissionEpoch := epoch
  deploymentGeneration := 1
  artifactDigest := sum "m"
  artifactSize := 1
  abi := abiWASICommandV1
  hostAPIProfile := hostAPIProfileNone
  runtimeFeatureProfile := "wasm"
  resourceLimits := ⟨Duration.second, 64, 1, 1, 1⟩
  maxConcurrency := 1
  grantedCapabilities := []

theorem samplePolicy_valid {epoch : UInt64} (h : epoch = 2 ^ 53 ∨ epoch = 2 ^ 53 + 1) :
    (samplePolicy epoch).validate = .ok () ∧
      ∀ s ∈ (samplePolicy epoch).texts, Text.validUTF8 s = true := by
  rcases h with rfl | rfl <;> decide +kernel

theorem samplePolicy_blurred : (samplePolicy (2 ^ 53)).Blurred (samplePolicy (2 ^ 53 + 1)) := by
  refine ⟨⟨rfl, ?_, rfl, rfl, rfl, rfl, rfl, rfl, rfl, rfl, fun _ => Iff.rfl⟩, ?_⟩
  · exact sampleDouble
  · rintro ⟨h, -⟩
    exact absurd h (by decide)

theorem samplePolicy_hashed :
    (samplePolicy (2 ^ 53)).hashed = (samplePolicy (2 ^ 53 + 1)).hashed := by decide +kernel

/-- Valid policies of the epochs `2 ^ 53` and `2 ^ 53 + 1` have one digest. -/
theorem policy_digest_blurs :
    (samplePolicy (2 ^ 53)).validate = .ok () ∧ (samplePolicy (2 ^ 53 + 1)).validate = .ok () ∧
    (∀ s ∈ (samplePolicy (2 ^ 53)).texts, Text.validUTF8 s = true) ∧
    (∀ s ∈ (samplePolicy (2 ^ 53 + 1)).texts, Text.validUTF8 s = true) ∧
    (∃ d, (samplePolicy (2 ^ 53)).digest = .ok d ∧ (samplePolicy (2 ^ 53 + 1)).digest = .ok d) ∧
    ¬ (samplePolicy (2 ^ 53)).Agree (· = ·) (samplePolicy (2 ^ 53 + 1)) := by
  obtain ⟨hp, hptexts⟩ := samplePolicy_valid (.inl rfl)
  obtain ⟨hq, hqtexts⟩ := samplePolicy_valid (.inr rfl)
  refine ⟨hp, hq, hptexts, hqtexts, ?_, ?_⟩
  · obtain ⟨text, -, hhashed, hdigest⟩ := policy_hashed hp
    obtain ⟨text', -, hhashed', hdigest'⟩ := policy_hashed hq
    have hsame := samplePolicy_hashed
    rw [hhashed, hhashed', Option.some.injEq] at hsame
    exact ⟨_, hdigest, hsame ▸ hdigest'⟩
  · intro h
    exact samplePolicy_blurred.2 ⟨h.epoch, h.generation⟩

theorem policy_digest_separates_sample :
    (((samplePolicy (2 ^ 53)).digest = (samplePolicy (2 ^ 53 + 1)).digest ↔
        (samplePolicy (2 ^ 53)).Agree (· = ·) (samplePolicy (2 ^ 53 + 1))) ↔
      ¬ (samplePolicy (2 ^ 53)).Blurred (samplePolicy (2 ^ 53 + 1))) := by
  obtain ⟨hp, hptexts⟩ := samplePolicy_valid (.inl rfl)
  obtain ⟨hq, hqtexts⟩ := samplePolicy_valid (.inr rfl)
  refine (policy_digest_separates hp hq hptexts hqtexts ?_).2.2.1
  intro a b ha hb _
  rw [samplePolicy_hashed, hb, Option.some.injEq] at ha
  exact ha.symm

end MiniCloud.Model
