import MiniCloud.Lib.Shares
import MiniCloud.Proof.Builder
import MiniCloud.Routing.Route

/-!
# Weighted selection

The loop over cumulative weights is `Shares.pick` on the sorted targets, since the checked weights
are too small for the machine word to wrap (`targetForBucket_eq`). What the intervals cover, what
each target owns and what share of the hashes it gets are facts about shares; that the order of the
targets does not matter is a fact about sorting.
-/

namespace MiniCloud.Routing

open Lib Problem Digest Model
open Discovery (totalWeight_perm target_unique)

variable {targets : List RouteTarget} {r route : ServingRoute} {affinityKey : GoString}

/-! ## Sums without wrapping -/

abbrev weight (t : RouteTarget) : Nat := t.weightBasisPoints.toNat

theorem toNat_add_weight {sum : UInt32} {t : RouteTarget} (h : sum.toNat + weight t < 2 ^ 32) :
    (sum + t.weightBasisPoints).toNat = sum.toNat + weight t := by
  rw [UInt32.toNat_add]
  exact Nat.mod_eq_of_lt h

theorem toNat_foldl_weight {start : UInt32}
    (h : start.toNat + Shares.total weight targets < 2 ^ 32) :
    (targets.foldl (fun total t => total + t.weightBasisPoints) start).toNat =
      start.toNat + Shares.total weight targets := by
  induction targets generalizing start with
  | nil => rfl
  | cons t targets ih =>
    rw [Shares.total_cons] at h ⊢
    have hadd : (start + t.weightBasisPoints).toNat = start.toNat + weight t :=
      toNat_add_weight (by omega)
    rw [List.foldl_cons, ih (by omega), hadd]
    omega

theorem total_le (h : ∀ t ∈ targets, t.validate = .ok ()) :
    Shares.total weight targets ≤ 10000 * targets.length := by
  induction targets with
  | nil => exact Nat.zero_le _
  | cons t targets ih =>
    have ht : weight t ≤ 10000 := (weight_le (h t List.mem_cons_self)).2
    have hrest := ih fun u hu => h u (List.mem_cons_of_mem t hu)
    rw [Shares.total_cons, List.length_cons]
    omega

/-- The weights of a valid enabled route add up to 10000 as numbers. -/
theorem total_eq (hr : r.Valid) (henabled : r.enabled = true) :
    Shares.total weight r.targets = 10000 := by
  have hle := total_le hr.targets
  have hbounded := hr.bounded
  rw [maxRouteTargets] at hbounded
  have hsum := hr.weights (hr.enabled.mp henabled)
  have hnat : (totalWeight r.targets).toNat = 0 + Shares.total weight r.targets :=
    toNat_foldl_weight (by rw [UInt32.toNat_zero]; omega)
  rw [hsum] at hnat
  have htotal : totalRouteWeightBasisPoints.toNat = 10000 := rfl
  omega

/-- The loop over the targets picks the share its bucket falls into. -/
theorem targetForBucketFrom_eq {bucket cumulative : UInt32}
    (hsum : cumulative.toNat + Shares.total weight targets < 2 ^ 32) (hle : cumulative ≤ bucket) :
    targetForBucketFrom bucket cumulative targets =
      Shares.pick weight targets (bucket.toNat - cumulative.toNat) := by
  induction targets generalizing cumulative with
  | nil => rfl
  | cons t targets ih =>
    rw [Shares.total_cons] at hsum
    have hadd : (cumulative + t.weightBasisPoints).toNat = cumulative.toNat + weight t :=
      toNat_add_weight (by omega)
    rw [UInt32.le_iff_toNat_le] at hle
    rw [targetForBucketFrom, Shares.pick]
    by_cases hb : bucket.toNat - cumulative.toNat < weight t
    · rw [if_pos hb, if_pos (UInt32.lt_iff_toNat_lt.mpr (by omega))]
    · have hge : cumulative + t.weightBasisPoints ≤ bucket := by
        rw [UInt32.le_iff_toNat_le]
        omega
      rw [if_neg hb, if_neg (UInt32.not_lt.mpr hge), ih (by omega) hge, hadd, Nat.sub_add_eq]

/-! ## Order -/

instance : Std.TransCmp compareTargets :=
  inferInstanceAs (Std.TransCmp
    (compareLex (compareOn RouteTarget.versionID) (compareOn RouteTarget.deploymentGeneration)))

theorem compareTargets_eq {a b : RouteTarget} (h : compareTargets a b = .eq) :
    a.versionID = b.versionID ∧ a.deploymentGeneration = b.deploymentGeneration := by
  simp only [compareTargets, compareLex, compareOn, Ordering.then_eq_eq,
    Std.LawfulEqOrd.compare_eq_iff_eq] at h
  exact h

theorem sort_perm {targets' : List RouteTarget} (hperm : targets.Perm targets')
    (hdistinct : (targets.map RouteTarget.key).Nodup) :
    sortFunc compareTargets targets = sortFunc compareTargets targets' := by
  refine sortFunc_eq_of_perm hperm fun a ha b hb heq => ?_
  obtain ⟨hversion, hgeneration⟩ := compareTargets_eq heq
  exact target_unique hdistinct ha hb hversion hgeneration

/-- The targets in the order in which they are given buckets. -/
abbrev ordered (r : ServingRoute) : List RouteTarget := sortFunc compareTargets r.targets

theorem ordered_nodup (hr : r.Valid) : (ordered r).Nodup :=
  (sortFunc_perm compareTargets r.targets).nodup_iff.mpr (List.Nodup.of_map _ hr.distinct)

theorem total_ordered (hr : r.Valid) (henabled : r.enabled = true) :
    Shares.total weight (ordered r) = 10000 := by
  rw [Shares.total_perm (sortFunc_perm compareTargets r.targets), total_eq hr henabled]

theorem targetForBucket_eq (hr : r.Valid) (henabled : r.enabled = true) (bucket : UInt32) :
    targetForBucket (ordered r) bucket = Shares.pick weight (ordered r) bucket.toNat := by
  have hsum : (0 : UInt32).toNat + Shares.total weight (ordered r) < 2 ^ 32 := by
    rw [total_ordered hr henabled]
    decide
  exact targetForBucketFrom_eq hsum (UInt32.le_iff_toNat_le.mpr (Nat.zero_le _))

/-! ## The bucket of a hash -/

theorem bucketFromHash_eq (hash : GoString) :
    (bucketFromHash hash).toNat = ofBigEndian (hash.take 8) * 10000 / 2 ^ 64 ∧
      (bucketFromHash hash).toNat < 10000 := by
  have hprefix : ofBigEndian (hash.take 8) < 2 ^ 64 := by
    have hlt := ofBigEndian_lt (hash.take 8)
    have hle : 256 ^ (hash.take 8).length ≤ 256 ^ 8 :=
      Nat.pow_le_pow_right (by decide) (List.length_take_le 8 hash)
    omega
  have hlt : ofBigEndian (hash.take 8) * 10000 / 2 ^ 64 < 10000 := by
    rw [Nat.div_lt_iff_lt_mul (by decide)]
    omega
  have htotal : totalRouteWeightBasisPoints.toNat = 10000 := rfl
  have hbucket : (bucketFromHash hash).toNat = ofBigEndian (hash.take 8) * 10000 / 2 ^ 64 := by
    rw [bucketFromHash, UInt32.toNat_ofNat', htotal, Nat.mod_eq_of_lt (by omega)]
  exact ⟨hbucket, hbucket ▸ hlt⟩

/-! ## A decision -/

/-- Fields that fit behind their lengths fit together. -/
theorem hashPreimage_ok {preimage : GoString} :
    hashPreimage route affinityKey = .ok preimage ↔
      (∀ field ∈ hashFields route affinityKey, field.length < 2 ^ 32) ∧
      preimage = (hashFields route affinityKey).flatMap (frame 4) := by
  have hsum : (∀ field ∈ hashFields route affinityKey, field.length < 2 ^ 32) →
      ((hashFields route affinityKey).map fun field => lengthPrefixBytes + field.length).sum ≤
        maxInt := by
    intro hfields
    have hle := List.sum_le_card_nsmul
      ((hashFields route affinityKey).map fun field => lengthPrefixBytes + field.length)
      (4 + 2 ^ 32) (List.forall_mem_map.mpr fun field hfield => by
        have := hfields field hfield
        rw [lengthPrefixBytes]
        omega)
    refine le_trans hle ?_
    rw [List.length_map]
    change 5 • (4 + 2 ^ 32) ≤ maxInt
    decide
  have hfits : (∀ field ∈ hashFields route affinityKey, field.length ≤ maxUint32) ↔
      ∀ field ∈ hashFields route affinityKey, field.length < 2 ^ 32 :=
    forall₂_congr fun field _ => by
      rw [maxUint32]
      omega
  rw [hashPreimage, bind_ok]
  simp only [bind_ok, checks_ok, List.forall_mem_map, mustNot_fails, decide_eq_false_iff_not, not_lt,
    hfits, List.mem_singleton, forall_eq, Unique.exists_iff, PUnit.default_eq_unit, pure,
    Except.pure, Except.ok.injEq]
  constructor
  · rintro ⟨hfields, -, rfl⟩
    exact ⟨hfields, rfl⟩
  · rintro ⟨hfields, rfl⟩
    exact ⟨hfields, hsum hfields, rfl⟩

theorem hashFields_short (hr : route.Valid) (hkey : affinityKey.length < 2 ^ 32) :
    ∀ field ∈ hashFields route affinityKey, field.length < 2 ^ 32 := by
  have hid := hr.functionID
  simp only [idPattern, Text.matchClass, Bool.and_eq_true, decide_eq_true_eq] at hid
  have hsalt := hr.salt
  simp only [hashFields, List.forall_mem_cons, length_bigEndian, List.not_mem_nil, false_imp_iff,
    implies_true, and_true]
  exact ⟨by decide, by omega, by decide, by omega, hkey⟩

/-- Selection from a valid enabled route: the target whose interval holds the bucket. -/
theorem selectValidated_ok (hr : route.Valid) (henabled : route.enabled = true)
    (hkey : affinityKey.length < 2 ^ 32) :
    ∃ preimage target, hashPreimage route affinityKey = .ok preimage ∧
      targetForBucket (ordered route) (bucketFromHash (Sha256.hash preimage)) = some target ∧
      selectValidated route affinityKey =
        .ok ⟨sum preimage, bucketFromHash (Sha256.hash preimage), target⟩ := by
  have hpreimage := hashPreimage_ok.mpr ⟨hashFields_short hr hkey, rfl⟩
  have hlt := (bucketFromHash_eq (Sha256.hash ((hashFields route affinityKey).flatMap
    (frame 4)))).2
  rw [← total_ordered hr henabled, ← Shares.pick_isSome, ← targetForBucket_eq hr henabled] at hlt
  obtain ⟨target, htarget⟩ := Option.isSome_iff_exists.mp hlt
  refine ⟨_, target, hpreimage, htarget, ?_⟩
  rw [selectValidated, henabled, hpreimage]
  simp only [checks, Bool.not_true, Bool.false_eq_true, if_false, bind, Except.bind]
  rw [htarget]
  rfl

/-- The validator does not look at the order of the targets. -/
theorem validate_perm {r : Route} (hperm : r.targets.Perm targets) (h : r.validate = .ok ()) :
    ({ r with targets := targets } : Route).validate = .ok () := by
  have hempty : targets = [] ↔ r.targets = [] :=
    ⟨fun hnil => (hnil ▸ hperm).eq_nil, fun hnil => (hnil ▸ hperm).nil_eq.symm⟩
  obtain ⟨hmetadata, h⟩ := seq_ok.mp h
  obtain ⟨hfields, h⟩ := seq_ok.mp h
  obtain ⟨htargets, h⟩ := seq_ok.mp h
  obtain ⟨haffinity, hhash⟩ := seq_ok.mp h
  obtain ⟨⟨hvalid, hdistinct⟩, hweights⟩ := validateRouteTargets_ok.mp htargets
  rw [Route.validate, seq_ok, seq_ok, seq_ok, seq_ok]
  refine ⟨hmetadata, ?_, ?_, haffinity, hhash⟩
  · have hbeq : (targets == []) = (r.targets == []) := by
      rw [Bool.eq_iff_iff, beq_iff_eq, beq_iff_eq]
      exact hempty
    have hbne : (targets != []) = (r.targets != []) := congrArg not hbeq
    simp only [hbeq, hbne, ← hperm.length_eq]
    exact hfields
  · refine validateRouteTargets_ok.mpr ⟨⟨fun t ht => hvalid t (hperm.mem_iff.mpr ht),
      (hperm.map _).nodup_iff.mp hdistinct⟩, fun hne => ?_⟩
    rw [← totalWeight_perm hperm]
    exact hweights fun hnil => hne (hempty.mpr hnil)

/-- Neither does the selection. -/
theorem selectValidated_perm (hr : r.Valid) (hperm : r.targets.Perm targets)
    (affinityKey : GoString) :
    selectValidated { r with targets := targets } affinityKey = selectValidated r affinityKey := by
  have hsort := sort_perm hperm hr.distinct
  unfold selectValidated
  rw [hsort]
  rfl

/-! ## Results -/

/--
**Weighted selection is exact and order-free.** In a valid enabled route the intervals of the sorted
targets partition the buckets, every target owns as many as it weighs, selection never fails and
decides for the owner of the bucket that the hash falls into, and neither the order of the targets
nor the metadata of the route plays a part in it.
-/
theorem selection_exact {r : Route} (h : r.validate = .ok ()) (henabled : r.enabled = true)
    {affinityKey : GoString} (hkey : affinityKey.length < 2 ^ 32) :
    (∀ bucket : UInt32, (∃ target, targetForBucket (ordered r.servingRoute) bucket = some target) ↔
      bucket.toNat < 10000) ∧
    (∀ before target after, ordered r.servingRoute = before ++ target :: after →
      ∀ bucket : UInt32, targetForBucket (ordered r.servingRoute) bucket = some target ↔
        Shares.total weight before ≤ bucket.toNat ∧
        bucket.toNat < Shares.total weight before + weight target) ∧
    (∀ target ∈ r.targets, ((Finset.range 10000).filter fun bucket =>
      targetForBucket (ordered r.servingRoute) (UInt32.ofNat bucket) = some target).card =
        weight target) ∧
    (∃ preimage target, hashPreimage r.servingRoute affinityKey = .ok preimage ∧
      targetForBucket (ordered r.servingRoute) (bucketFromHash (Sha256.hash preimage)) =
        some target ∧
      select r affinityKey =
        .ok ⟨sum preimage, bucketFromHash (Sha256.hash preimage), target⟩) ∧
    (∀ targets, r.targets.Perm targets →
      select { r with targets := targets } affinityKey = select r affinityKey) ∧
    select r affinityKey = selectServing r.servingRoute affinityKey := by
  have hr := Route.servingRoute_valid h
  have hselect : select r affinityKey = selectValidated r.servingRoute affinityKey := by
    rw [select, h]
    rfl
  refine ⟨?_, ?_, ?_, ?_, ?_, ?_⟩
  · intro bucket
    rw [targetForBucket_eq hr henabled, ← Option.isSome_iff_exists, Shares.pick_isSome,
      total_ordered hr henabled]
  · intro before target after hsplit bucket
    rw [targetForBucket_eq hr henabled, Shares.pick_split (ordered_nodup hr) hsplit]
  · intro target htarget
    have hcard := Shares.card_pick (w := weight) (ordered_nodup hr) (mem_sortFunc.mpr htarget)
    rw [total_ordered hr henabled] at hcard
    refine (congrArg Finset.card (Finset.filter_congr fun bucket hbucket => ?_)).trans hcard
    have hlt := Finset.mem_range.mp hbucket
    rw [targetForBucket_eq hr henabled, UInt32.toNat_ofNat', Nat.mod_eq_of_lt (by omega)]
  · rw [hselect]
    exact selectValidated_ok hr henabled hkey
  · intro targets hperm
    rw [hselect, select, validate_perm hperm h]
    exact selectValidated_perm hr hperm affinityKey
  · rw [hselect, selectServing, ServingRoute.validate_ok.mpr hr]
    rfl

/-- Three targets, not in the order of their intervals. -/
def sampleRoute : Route where
  id := "route-1"
  ns := defaultNamespace
  createdAt := ⟨1, .utc⟩
  updatedAt := ⟨1, .utc⟩
  createdRaftIndex := 1
  resourceRevision := 1
  functionID := "fn_payments"
  routeRevision := 42
  targets := [
    ⟨"ver_b", 1, 2, scheme ++ List.replicate 64 0x30, 2500⟩,
    ⟨"ver_a", 1, 3, scheme ++ List.replicate 64 0x30, 3000⟩,
    ⟨"ver_a", 1, 1, scheme ++ List.replicate 64 0x30, 4500⟩]
  affinity := .requestID
  affinityHeader := []
  hashVersion := hashVersionSHA256BPSV1
  saltID := "salt-1"
  salt := [0x00, 0x11, 0x22, 0x33, 0x44, 0x55, 0x66, 0x77, 0x88, 0x99, 0xAA, 0xBB, 0xCC, 0xDD, 0xEE,
    0xFF]
  enabled := true

theorem sampleRoute_valid : sampleRoute.validate = .ok () := by decide +kernel

theorem selection_exact_sample : ∃ preimage target,
    hashPreimage sampleRoute.servingRoute "customer" = .ok preimage ∧
      targetForBucket (ordered sampleRoute.servingRoute) (bucketFromHash (Sha256.hash preimage)) =
        some target ∧
      select sampleRoute "customer" =
        .ok ⟨sum preimage, bucketFromHash (Sha256.hash preimage), target⟩ :=
  (selection_exact sampleRoute_valid rfl (by decide)).2.2.2.1

-- the second vector of the contract
example : (select sampleRoute
      [0x63, 0x75, 0x73, 0x74, 0x6F, 0x6D, 0x65, 0x72, 0x3A, 0x00, 0xFF]).map
    (fun d => (d.bucket, d.target.versionID, d.target.deploymentGeneration)) =
    .ok (7849, "ver_b", 2) := by
  decide +kernel

/-- A target's share of the hash prefixes is its weight, up to one prefix. -/
theorem hash_share :
    (∀ (u : Nat) (tail : GoString), u < 2 ^ 64 →
      (bucketFromHash (bigEndian 8 u ++ tail)).toNat = u * 10000 / 2 ^ 64 ∧
      (bucketFromHash (bigEndian 8 u ++ tail)).toNat < 10000) ∧
    (∀ (u v : Nat) (tail tail' : GoString), u ≤ v → v < 2 ^ 64 →
      bucketFromHash (bigEndian 8 u ++ tail) ≤ bucketFromHash (bigEndian 8 v ++ tail')) ∧
    ∀ (r : Route) (target : RouteTarget) (tail : GoString), r.validate = .ok () →
      r.enabled = true → target ∈ r.targets →
      |((((Finset.range (2 ^ 64)).filter fun u =>
          targetForBucket (ordered r.servingRoute) (bucketFromHash (bigEndian 8 u ++ tail)) =
            some target).card : Nat) : ℚ) - (weight target : ℚ) * 2 ^ 64 / 10000| < 1 := by
  have hbucket : ∀ (u : Nat) (tail : GoString), u < 2 ^ 64 →
      (bucketFromHash (bigEndian 8 u ++ tail)).toNat = u * 10000 / 2 ^ 64 ∧
      (bucketFromHash (bigEndian 8 u ++ tail)).toNat < 10000 := by
    intro u tail hu
    have heq := bucketFromHash_eq (bigEndian 8 u ++ tail)
    rwa [List.take_left' (length_bigEndian 8 u), ofBigEndian_bigEndian (by omega)] at heq
  refine ⟨hbucket, ?_, ?_⟩
  · intro u v tail tail' huv hv
    rw [UInt32.le_iff_toNat_le, (hbucket u tail (by omega)).1, (hbucket v tail' hv).1]
    exact Nat.div_le_div_right (Nat.mul_le_mul_right 10000 huv)
  · intro r target tail h henabled htarget
    have hr := Route.servingRoute_valid h
    have hmem : target ∈ ordered r.servingRoute := mem_sortFunc.mpr htarget
    obtain ⟨before, after, hsplit⟩ := List.append_of_mem hmem
    have htotal := total_ordered hr henabled
    rw [hsplit, Shares.total_append, Shares.total_cons] at htotal
    have hshare := @Shares.card_scaled 10000 (2 ^ 64) (Shares.total weight before)
      (Shares.total weight before + weight target) (by decide) (Nat.two_pow_pos 64)
      (Nat.le_add_right _ _) (by omega)
    have hset : ((Finset.range (2 ^ 64)).filter fun u =>
        targetForBucket (ordered r.servingRoute) (bucketFromHash (bigEndian 8 u ++ tail)) =
          some target) = (Finset.range (2 ^ 64)).filter fun u =>
        Shares.total weight before ≤ u * 10000 / 2 ^ 64 ∧
          u * 10000 / 2 ^ 64 < Shares.total weight before + weight target := by
      refine Finset.filter_congr fun u hu => ?_
      rw [targetForBucket_eq hr henabled, (hbucket u tail (Finset.mem_range.mp hu)).1,
        Shares.pick_split (ordered_nodup hr) hsplit]
    rw [Nat.add_sub_cancel_left, Nat.cast_pow, Nat.cast_ofNat, Nat.cast_ofNat] at hshare
    rw [hset]
    exact hshare

theorem hash_share_sample : |((((Finset.range (2 ^ 64)).filter fun u =>
    targetForBucket (ordered sampleRoute.servingRoute) (bucketFromHash (bigEndian 8 u)) =
      some ⟨"ver_b", 1, 2, scheme ++ List.replicate 64 0x30, 2500⟩).card : Nat) : ℚ) -
    2500 * 2 ^ 64 / 10000| < 1 := by
  have h := hash_share.2.2 sampleRoute _ [] sampleRoute_valid rfl List.mem_cons_self
  have hweight : (2500 : UInt32).toNat = 2500 := rfl
  simpa only [List.append_nil, weight, hweight, Nat.cast_ofNat] using h

theorem selectValidated_hashed {d : Decision} (h : selectValidated route affinityKey = .ok d) :
    ∃ preimage, hashPreimage route affinityKey = .ok preimage ∧ d.digest = sum preimage := by
  obtain ⟨-, -, h⟩ := bind_ok.mp h
  obtain ⟨preimage, hpreimage, h⟩ := bind_ok.mp h
  refine ⟨preimage, hpreimage, ?_⟩
  dsimp only at h
  cases htarget : targetForBucket (sortFunc compareTargets route.targets)
      (bucketFromHash (Sha256.hash preimage)) with
  | none =>
    rw [htarget] at h
    cases h
  | some target =>
    rw [htarget] at h
    cases h
    rfl

/-- Framed fields are equal when their frames are. -/
theorem hashPreimage_inj {route' : ServingRoute} {affinityKey' : GoString} {preimage : GoString}
    (h : hashPreimage route affinityKey = .ok preimage)
    (h' : hashPreimage route' affinityKey' = .ok preimage) :
    route.functionID = route'.functionID ∧ route.routeRevision = route'.routeRevision ∧
      route.salt = route'.salt ∧ affinityKey = affinityKey' := by
  obtain ⟨hshort, hframes⟩ := hashPreimage_ok.mp h
  obtain ⟨hshort', hframes'⟩ := hashPreimage_ok.mp h'
  have hfields := frames_inj (by decide) (fun f hf => hshort f hf) (fun f hf => hshort' f hf)
    (hframes.symm.trans hframes')
  simp only [hashFields, List.cons.injEq, true_and, and_true] at hfields
  obtain ⟨hid, hrevision, hsalt, hkey⟩ := hfields
  refine ⟨hid, ?_, hsalt, hkey⟩
  have hnumber := congrArg ofBigEndian hrevision
  rw [ofBigEndian_bigEndian route.routeRevision.toNat_lt,
    ofBigEndian_bigEndian route'.routeRevision.toNat_lt] at hnumber
  exact UInt64.toNat_inj.mp hnumber

/--
**The preimage of the route hash is injective**: it determines the function, the revision, the salt
and the affinity key. Where the two preimages do not collide, the digest of a decision does so too.
-/
theorem route_hash_injective :
    (∀ (route route' : ServingRoute) (affinityKey affinityKey' preimage : GoString),
      hashPreimage route affinityKey = .ok preimage →
      hashPreimage route' affinityKey' = .ok preimage →
      route.functionID = route'.functionID ∧ route.routeRevision = route'.routeRevision ∧
        route.salt = route'.salt ∧ affinityKey = affinityKey') ∧
    ∀ (route route' : ServingRoute) (affinityKey affinityKey' : GoString)
      (decision decision' : Decision),
      selectServing route affinityKey = .ok decision →
      selectServing route' affinityKey' = .ok decision' →
      (∀ preimage preimage', hashPreimage route affinityKey = .ok preimage →
        hashPreimage route' affinityKey' = .ok preimage' → sum preimage = sum preimage' →
        preimage = preimage') →
      decision.digest = decision'.digest →
      route.functionID = route'.functionID ∧ route.routeRevision = route'.routeRevision ∧
        route.salt = route'.salt ∧ affinityKey = affinityKey' := by
  refine ⟨fun _ _ _ _ _ h h' => hashPreimage_inj h h', ?_⟩
  intro route route' affinityKey affinityKey' decision decision' h h' hfree hdigest
  obtain ⟨-, -, h⟩ := bind_ok.mp h
  obtain ⟨-, -, h'⟩ := bind_ok.mp h'
  obtain ⟨preimage, hpreimage, hsum⟩ := selectValidated_hashed h
  obtain ⟨preimage', hpreimage', hsum'⟩ := selectValidated_hashed h'
  have hsame := hfree preimage preimage' hpreimage hpreimage' (by rw [← hsum, ← hsum', hdigest])
  subst hsame
  exact hashPreimage_inj hpreimage hpreimage'

theorem route_hash_injective_sample :
    hashPreimage sampleRoute.servingRoute "a" ≠ hashPreimage sampleRoute.servingRoute "ab" := by
  intro h
  obtain ⟨preimage, hpreimage⟩ : ∃ preimage,
      hashPreimage sampleRoute.servingRoute "a" = .ok preimage := ⟨_, rfl⟩
  have hkeys := (route_hash_injective.1 _ _ _ _ _ hpreimage (h.symm.trans hpreimage)).2.2.2
  exact absurd hkeys (by decide)

end MiniCloud.Routing
