import MiniCloud.ControlPlane.Request
import Mathlib.Data.Nat.Log
import Mathlib.Data.UInt

/-!
# What the request digest separates

The digest hashes one canonical JSON text, and RFC 8785 writes every number of that text through
a double. A request carries its revisions as JSON numbers, so the digest sees them rounded.
-/

namespace MiniCloud.ControlPlane

open Lib Problem Digest Model

variable {a b r : Request} {num : ℚ → ℚ → Prop} {da db : SHA256}

/--
Two requests agree, their revisions compared by `rev` and the numbers of their bodies by `num`:
methods up to ASCII case, bodies as JSON values up to member order and spelling.
-/
structure Agree (rev : UInt64 → UInt64 → Prop) (num : ℚ → ℚ → Prop) (a b : Request) : Prop where
  method : Text.toUpper a.method = Text.toUpper b.method
  path : a.path = b.path
  ifNoneMatch : a.preconditions.ifNoneMatch = b.preconditions.ifNoneMatch
  resource : Option.Rel rev a.preconditions.expectedResourceRevision
    b.preconditions.expectedResourceRevision
  activeRoute : Option.Rel rev a.preconditions.expectedActiveRouteRevision
    b.preconditions.expectedActiveRouteRevision
  bodyPresent : a.bodyPresent = b.bodyPresent
  body : a.bodyPresent = true → ∃ v w, Json.parse .reject (bodyBytes a.body) = some v ∧
    Json.parse .reject (bodyBytes b.body) = some w ∧
    Json.Equiv (fun x y => num x.value y.value) v w
  artifactDigest : a.artifactDigest = b.artifactDigest

/-- Two numbers a double cannot tell apart. -/
def SameDouble (x y : ℚ) : Prop := Double.round x = Double.round y

def SameDoubleRevision (n m : UInt64) : Prop := SameDouble n.toNat m.toNat

/-- The bytes a request's digest hashes. -/
def Request.hashed (r : Request) : Option GoString := do
  let body ← (marshalBody r.body).toOption
  let canonical ← Json.transform (canonicalRequest (Text.toUpper r.method) r.path r.preconditions
    r.bodyPresent body r.artifactDigest)
  some (preimage operationDigestDomain operationDigestVersion canonical)

/-! ## A request that has a digest -/

theorem upperByte_ascii (b : UInt8) : isTokenByte b = true → Text.upperByte b < 0x80 := by
  revert b
  exact Text.forall_byte (by decide +kernel)

theorem lowerHex_ascii (b : UInt8) : Text.isLowerHex b = true → b < 0x80 := by
  revert b
  exact Text.forall_byte (by decide +kernel)

theorem canonicalMethod_ok {value method : GoString} (h : canonicalMethod value = .ok method) :
    method = Text.toUpper value ∧ Text.sanitize method = method := by
  unfold canonicalMethod at h
  split at h
  case isFalse => cases h
  case isTrue hp =>
    cases h
    refine ⟨rfl, Text.sanitize_valid (Text.validUTF8_ascii ?_)⟩
    simp only [httpMethodPattern, Text.matchClass, Bool.and_eq_true, List.all_eq_true] at hp
    intro b hb
    obtain ⟨c, hc, rfl⟩ := List.mem_map.mp hb
    exact upperByte_ascii c (hp.2 c hc)

theorem canonicalPath_ok {value path : GoString} (h : canonicalPath value = .ok path) :
    path = value ∧ Text.sanitize value = value := by
  unfold canonicalPath at h
  obtain ⟨⟨⟩, hchecks, h⟩ := bind_ok.mp h
  simp only [checks_ok, List.forall_mem_cons, mustNot_fails, Bool.or_eq_false_iff,
    Bool.not_eq_false'] at hchecks
  have hvalid : Text.validUTF8 value = true := hchecks.1.1.1.2
  split at h
  · cases h
  · obtain ⟨⟨⟩, hsame, h⟩ := bind_ok.mp h
    simp only [checks_ok, List.forall_mem_cons, mustNot_fails, bne_eq_false_iff_eq] at hsame
    cases h
    exact ⟨hsame.2.1, Text.sanitize_valid hvalid⟩

theorem sanitize_digest {d : SHA256} (h : encodedPattern d = true) : Text.sanitize d = d := by
  refine Text.sanitize_valid (Text.validUTF8_ascii fun b hb => ?_)
  simp only [encodedPattern, Text.matchClass, Bool.and_eq_true, beq_iff_eq,
    List.all_eq_true] at h
  rw [← List.take_append_drop 7 d, List.mem_append, h.1] at hb
  rcases hb with hb | hb
  · have hscheme : scheme.all (· < 0x80) = true := by decide
    exact decide_eq_true_eq.mp (List.all_eq_true.mp hscheme b hb)
  · exact lowerHex_ascii b (h.2.2 b hb)

/-- The body a digest is taken of, as a tree: the parsed value, or `null` where there is none. -/
theorem marshalBody_ok {present : Bool} {body : Option GoString} {tree : Json Json.Num}
    (hv : validateBody present body = .ok ()) (h : marshalBody body = .ok tree) :
    (present = true → Json.parse .reject (bodyBytes body) = some tree) ∧
      (present = false → tree = .null) := by
  cases body with
  | none =>
    cases h
    cases present with
    | true => cases hv
    | false => simp
  | some bytes =>
    simp only [marshalBody] at h
    split at h
    · cases h
    · rename_i hparse
      split at h
      · cases h
      · rename_i tree' htree
        cases h
        refine ⟨fun _ => htree, fun hp => ?_⟩
        -- an empty non-nil body passes `validateBody` and is refused by the encoder
        subst hp
        cases bytes with
        | nil => cases hparse
        | cons => cases hv

/-- What a digest says about its request. -/
structure Digested (r : Request) (d : SHA256) (body : Json Json.Num) (text : GoString) :
    Prop where
  method : Text.sanitize (Text.toUpper r.method) = Text.toUpper r.method
  path : Text.sanitize r.path = r.path
  artifactDigest : ∀ x, r.artifactDigest = some x → Text.sanitize x = x
  present : r.bodyPresent = true → Json.parse .reject (bodyBytes r.body) = some body
  absent : r.bodyPresent = false → body = .null
  canonical : Json.transform (canonicalRequest (Text.toUpper r.method) r.path r.preconditions
    r.bodyPresent body r.artifactDigest) = some text
  hashed : r.hashed = some (preimage operationDigestDomain operationDigestVersion text)
  digest : d = sum (preimage operationDigestDomain operationDigestVersion text)

theorem digest_ok {d : SHA256} (h : r.digest = .ok d) : ∃ body text, Digested r d body text := by
  unfold Request.digest at h
  obtain ⟨method, hmethod, h⟩ := bind_ok.mp h
  obtain ⟨path, hpath, h⟩ := bind_ok.mp h
  obtain ⟨_, _, h⟩ := bind_ok.mp h
  obtain ⟨⟨⟩, hbody, h⟩ := bind_ok.mp h
  obtain ⟨⟨⟩, hartifact, h⟩ := bind_ok.mp h
  obtain ⟨body, hmarshal, h⟩ := bind_ok.mp h
  obtain ⟨rfl, hmethod'⟩ := canonicalMethod_ok hmethod
  obtain ⟨rfl, hpath'⟩ := canonicalPath_ok hpath
  obtain ⟨hpresent, habsent⟩ := marshalBody_ok hbody hmarshal
  unfold canonicalJSON at h
  rw [if_neg (by decide), if_neg (by decide)] at h
  split at h
  · cases h
  · rename_i text hcanonical
    cases h
    refine ⟨body, text, hmethod', hpath', ?_, hpresent, habsent, hcanonical, ?_, rfl⟩
    · intro x hx
      simp only [checks_ok, List.forall_mem_cons, mustNot_fails, hx, Option.any_some,
        Bool.not_eq_false'] at hartifact
      exact sanitize_digest hartifact.1
    · simp only [Request.hashed, hmarshal, Except.toOption, Option.bind_eq_bind,
        Option.bind_some, hcanonical]

/-! ## Equal texts -/

theorem equiv_revision {x y : Option UInt64} :
    Json.Equiv (fun n m : Json.Num => n.double = m.double)
        (.ofOption (fun n : UInt64 => .ofNat n.toNat) x)
        (.ofOption (fun n : UInt64 => .ofNat n.toNat) y) ↔
      Option.Rel SameDoubleRevision x y := by
  rw [Json.equiv_ofOption (f := fun n : UInt64 => Json.ofNat n.toNat) fun _ => nofun]
  simp only [Json.ofNat, Json.equiv_num, Json.Num.double, Json.value_decimal]
  rfl

theorem equiv_artifact {R : Json.Num → Json.Num → Prop} {x y : Option SHA256}
    (hx : ∀ d, x = some d → Text.sanitize d = d) (hy : ∀ d, y = some d → Text.sanitize d = d) :
    Json.Equiv R (.ofOption .ofGoString x) (.ofOption .ofGoString y) ↔ x = y := by
  rw [Json.equiv_ofOption (f := Json.ofGoString) fun _ => nofun, ← Json.optionRel_eq]
  simp only [Json.ofGoString, Json.equiv_str]
  constructor
  · rintro (h | _)
    · exact .some (by rw [← hx _ rfl, ← hy _ rfl, h])
    · exact .none
  · exact Json.optionRel_mono fun d e h => congrArg Text.sanitize h

/-- The two bodies, wherever both requests say whether there is one. -/
theorem equiv_body {va vb : Json Json.Num} {sa sb : GoString} (ha : Digested a da va sa)
    (hb : Digested b db vb sb) (hp : a.bodyPresent = b.bodyPresent) :
    Json.Equiv (fun x y : Json.Num => x.double = y.double) va vb ↔
      (a.bodyPresent = true → ∃ v w, Json.parse .reject (bodyBytes a.body) = some v ∧
        Json.parse .reject (bodyBytes b.body) = some w ∧
        Json.Equiv (fun x y => SameDouble x.value y.value) v w) := by
  cases h : a.bodyPresent with
  | true =>
    have hva := ha.present h
    have hvb := hb.present (hp ▸ h)
    constructor
    · intro heq _
      exact ⟨va, vb, hva, hvb, heq⟩
    · intro hbody
      obtain ⟨v, w, hv, hw, heq⟩ := hbody rfl
      rw [hva] at hv
      rw [hvb] at hw
      cases hv
      cases hw
      exact heq
  | false =>
    rw [ha.absent h, hb.absent (hp ▸ h)]
    exact iff_of_true .null (by simp)

theorem equiv_canonicalRequest {va vb : Json Json.Num} {sa sb : GoString}
    (ha : Digested a da va sa) (hb : Digested b db vb sb) :
    Json.Equiv (fun x y : Json.Num => x.double = y.double)
        (canonicalRequest (Text.toUpper a.method) a.path a.preconditions a.bodyPresent va
          a.artifactDigest)
        (canonicalRequest (Text.toUpper b.method) b.path b.preconditions b.bodyPresent vb
          b.artifactDigest) ↔
      Agree SameDoubleRevision SameDouble a b := by
  rw [canonicalRequest, canonicalRequest]
  refine Iff.trans (Json.equiv_record_iff rfl rfl) ?_
  simp only [Json.equivMembers_cons, Json.equivMembers_nil, Json.equiv_bool, equiv_revision,
    equiv_artifact ha.artifactDigest hb.artifactDigest, and_true]
  simp only [Json.ofGoString, Json.equiv_str, ha.method, hb.method, ha.path, hb.path]
  constructor
  · rintro ⟨h1, h2, h3, h4, h5, h6, h7, h8⟩
    exact ⟨h1, h2, h3, h4, h5, h6, (equiv_body ha hb h6).mp h7, h8⟩
  · rintro ⟨h1, h2, h3, h4, h5, h6, h7, h8⟩
    exact ⟨h1, h2, h3, h4, h5, h6, (equiv_body ha hb h6).mpr h7, h8⟩

/--
**What the digest keeps.** Two digests are equal exactly when the requests agree up to rounding
their numbers to doubles.
-/
theorem digest_eq_iff (ha : a.digest = .ok da) (hb : b.digest = .ok db)
    (hcollision : ∀ p q, a.hashed = some p → b.hashed = some q → sum p = sum q → p = q) :
    da = db ↔ Agree SameDoubleRevision SameDouble a b := by
  obtain ⟨va, sa, hda⟩ := digest_ok ha
  obtain ⟨vb, sb, hdb⟩ := digest_ok hb
  rw [← equiv_canonicalRequest hda hdb, ← Json.transform_eq_iff hda.canonical hdb.canonical,
    hda.digest, hdb.digest]
  constructor
  · intro h
    exact preimage_inj (hcollision _ _ hda.hashed hdb.hashed h)
  · rintro rfl
    rfl

theorem Agree.mono {rev rev' : UInt64 → UInt64 → Prop} {num' : ℚ → ℚ → Prop}
    (hrev : ∀ n m, rev n m → rev' n m) (hnum : ∀ x y, num x y → num' x y) (h : Agree rev num a b) :
    Agree rev' num' a b where
  method := h.method
  path := h.path
  ifNoneMatch := h.ifNoneMatch
  resource := Json.optionRel_mono hrev h.resource
  activeRoute := Json.optionRel_mono hrev h.activeRoute
  bodyPresent := h.bodyPresent
  body := by
    intro hp
    obtain ⟨v, w, hv, hw, heq⟩ := h.body hp
    exact ⟨v, w, hv, hw, heq.mono fun x y => hnum (Json.Num.value x) (Json.Num.value y)⟩
  artifactDigest := h.artifactDigest

/-! ## When the digest separates -/

/-- The requests differ, but only in numbers that no double tells apart. -/
def Blurred (a b : Request) : Prop :=
  Agree SameDoubleRevision SameDouble a b ∧ ¬ Agree (· = ·) (· = ·) a b

/-- The same, where the numbers of a body are doubles from the start. -/
def BlurredRevisions (a b : Request) : Prop :=
  Agree SameDoubleRevision SameDouble a b ∧
    ¬ (a.preconditions.expectedResourceRevision = b.preconditions.expectedResourceRevision ∧
      a.preconditions.expectedActiveRouteRevision = b.preconditions.expectedActiveRouteRevision)

theorem agree_revisions (h : Agree SameDoubleRevision num a b) :
    Agree (· = ·) num a b ↔
      a.preconditions.expectedResourceRevision = b.preconditions.expectedResourceRevision ∧
      a.preconditions.expectedActiveRouteRevision =
        b.preconditions.expectedActiveRouteRevision := by
  constructor
  · intro h'
    exact ⟨Json.optionRel_eq.mp h'.resource, Json.optionRel_eq.mp h'.activeRoute⟩
  · rintro ⟨hr, ha⟩
    exact { h with resource := Json.optionRel_eq.mpr hr, activeRoute := Json.optionRel_eq.mpr ha }

theorem Agree.rounded (hnum : ∀ x y, num x y → SameDouble x y) (h : Agree (· = ·) num a b) :
    Agree SameDoubleRevision SameDouble a b := by
  refine h.mono ?_ hnum
  rintro n m rfl
  rfl

/--
**The digest separates requests, up to doubles.** Digests are equal exactly for equal requests,
unless the two requests are blurred; where JSON numbers are read as doubles, unless their
revisions are.
-/
theorem request_digest_separates {a b : Request} {da db : SHA256} (ha : a.digest = .ok da)
    (hb : b.digest = .ok db)
    (hcollision : ∀ p q, a.hashed = some p → b.hashed = some q → sum p = sum q → p = q) :
    ((da = db ↔ Agree (· = ·) (· = ·) a b) ↔ ¬ Blurred a b) ∧
    ((da = db ↔ Agree (· = ·) SameDouble a b) ↔ ¬ BlurredRevisions a b) := by
  rw [digest_eq_iff ha hb hcollision]
  constructor
  · have hcoarse : Agree (· = ·) (· = ·) a b → Agree SameDoubleRevision SameDouble a b := by
      refine Agree.rounded ?_
      rintro x y rfl
      rfl
    unfold Blurred
    tauto
  · have hcoarse : Agree (· = ·) SameDouble a b → Agree SameDoubleRevision SameDouble a b :=
      Agree.rounded fun x y h => h
    have hrev (h : Agree SameDoubleRevision SameDouble a b) := agree_revisions h
    unfold BlurredRevisions
    tauto

/-! ## Two revisions the digest does not separate -/

/-- A token rotation of `fn-1` at an expected revision. -/
def sampleRotation (revision : UInt64) : Request where
  method := "POST"
  path := "/v1/functions/fn-1/invocation-token:rotate"
  preconditions := ⟨false, some revision, none⟩
  bodyPresent := false
  body := none
  artifactDigest := none

/-- The second lies halfway between two doubles: the even one is the first. -/
theorem sampleDouble : SameDoubleRevision (2 ^ 53) (2 ^ 53 + 1) := by
  show Double.round _ = Double.round _
  decide +kernel

/-- Both samples hash one text. -/
theorem sample_hashed : ∃ p,
    (sampleRotation (2 ^ 53)).hashed = some p ∧ (sampleRotation (2 ^ 53 + 1)).hashed = some p ∧
    (sampleRotation (2 ^ 53)).digest = .ok (sum p) ∧
    (sampleRotation (2 ^ 53 + 1)).digest = .ok (sum p) := by
  obtain ⟨da, ha, -⟩ : ∃ d, (sampleRotation (2 ^ 53)).digest = .ok d ∧ true = true :=
    exists_ok (by decide +kernel)
  obtain ⟨db, hb, -⟩ : ∃ d, (sampleRotation (2 ^ 53 + 1)).digest = .ok d ∧ true = true :=
    exists_ok (by decide +kernel)
  obtain ⟨va, sa, hda⟩ := digest_ok ha
  obtain ⟨vb, sb, hdb⟩ := digest_ok hb
  have hsame : (sampleRotation (2 ^ 53)).hashed = (sampleRotation (2 ^ 53 + 1)).hashed := by
    decide +kernel
  refine ⟨_, hda.hashed, hsame ▸ hda.hashed, hda.digest ▸ ha, ?_⟩
  rw [hda.hashed, hdb.hashed] at hsame
  rw [Option.some.inj hsame, ← hdb.digest, hb]

theorem sample_differs :
    ¬ Agree (· = ·) num (sampleRotation (2 ^ 53)) (sampleRotation (2 ^ 53 + 1)) := by
  intro h
  have hrev := Json.optionRel_eq.mp h.resource
  exact absurd hrev (by decide)

/-- Rotations at the expected revisions `2 ^ 53` and `2 ^ 53 + 1` have one digest. -/
theorem request_digest_blurs : ∃ d,
    (sampleRotation (2 ^ 53)).digest = .ok d ∧ (sampleRotation (2 ^ 53 + 1)).digest = .ok d ∧
    ¬ Agree (· = ·) (· = ·) (sampleRotation (2 ^ 53)) (sampleRotation (2 ^ 53 + 1)) ∧
    ¬ Agree (· = ·) SameDouble (sampleRotation (2 ^ 53)) (sampleRotation (2 ^ 53 + 1)) := by
  obtain ⟨p, -, -, ha, hb⟩ := sample_hashed
  exact ⟨sum p, ha, hb, sample_differs, sample_differs⟩

theorem request_digest_separates_sample : ∃ d,
    (sampleRotation (2 ^ 53)).digest = .ok d ∧ (sampleRotation (2 ^ 53 + 1)).digest = .ok d ∧
    ((d = d ↔ Agree (· = ·) (· = ·) (sampleRotation (2 ^ 53)) (sampleRotation (2 ^ 53 + 1))) ↔
      ¬ Blurred (sampleRotation (2 ^ 53)) (sampleRotation (2 ^ 53 + 1))) := by
  obtain ⟨p, hpa, hpb, ha, hb⟩ := sample_hashed
  refine ⟨sum p, ha, hb, (request_digest_separates ha hb ?_).1⟩
  intro q q' hq hq' _
  rw [hpa] at hq
  rw [hpb] at hq'
  exact Option.some.inj (hq.symm.trans hq')

end MiniCloud.ControlPlane
