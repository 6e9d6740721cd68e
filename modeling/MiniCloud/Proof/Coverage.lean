import MiniCloud.Coverage

/-!
# What passes the coverage gate

The gate finds nothing exactly when the manifest covers the specification's requirements of
priority P0 and P1, each completely. Where the identifiers are distinct and not blank, no
requirement's issues depend on the ones before it, so their order does not show.
-/

namespace MiniCloud.Coverage

open Lib

/-- Every priority is one that the rows of the specification can declare. -/
def Catalog.Specified (catalog : Catalog) : Prop :=
  ∀ id priority, catalog.requirements.get? id = some priority →
    priority = "P0" ∨ priority = "P1" ∨ priority = "P2"

def Requirement.id (requirement : Requirement) : GoString :=
  Net.trimSpace requirement.requirementID

/-- The tests are listed once each, and those that are gates are gates of the specification. -/
structure TestsComplete (catalog : Catalog) (tests : List GoString) : Prop where
  distinct : tests.Nodup
  gates : ∀ testID ∈ tests, e2eIDPattern testID = true →
    ∃ priority, catalog.gates.get? testID = some priority ∧ priority ≠ "P2"

structure Requirement.FieldsComplete (catalog : Catalog) (requirement : Requirement) : Prop where
  owner : Net.trimSpace requirement.owner ≠ []
  status : requirement.status = statusPlanned ∨ requirement.status = statusCovered
  tests : ∃ tests, requirement.testIDs = some tests ∧ TestsComplete catalog tests ∧
    (requirement.status = statusCovered → tests ≠ [])
  evidence : ∃ evidence, requirement.evidence = some evidence ∧ evidence ≠ []

structure Manifest.Complete (catalog : Catalog) (manifest : Manifest) : Prop where
  schemaVersion : manifest.schemaVersion = manifestSchemaVersion
  source : Net.trimSpace manifest.source ≠ []
  requirements : ∃ requirements, manifest.requirements = some requirements ∧
    (∀ r ∈ requirements, r.id ≠ []) ∧ (requirements.map Requirement.id).Nodup ∧
    (∀ id, id ∈ requirements.map Requirement.id ↔ ∃ priority,
      catalog.requirements.get? id = some priority ∧ (priority = "P0" ∨ priority = "P1")) ∧
    ∀ r ∈ requirements, catalog.requirements.get? r.id = some r.priority ∧ r.FieldsComplete catalog

variable {quote : GoString → GoString} {catalog : Catalog} {seen : GoMap GoString Unit}
  {requirement : Requirement} {requirements : List Requirement}

@[simp] theorem issueIf_nil {failed : Bool} {kind message : GoString} :
    issueIf failed kind message = [] ↔ failed = false := by
  cases failed <;> simp [issueIf]

/-! ## One requirement -/

theorem validateGate_nil {id testID : GoString} :
    validateGate catalog id testID = [] ↔ (e2eIDPattern testID = true →
      ∃ priority, catalog.gates.get? testID = some priority ∧ priority ≠ "P2") := by
  rw [validateGate]
  cases e2eIDPattern testID <;> cases catalog.gates.get? testID <;> simp

theorem testsComplete_cons {testID : GoString} {tests : List GoString} :
    TestsComplete catalog (testID :: tests) ↔
      (e2eIDPattern testID = true →
        ∃ priority, catalog.gates.get? testID = some priority ∧ priority ≠ "P2") ∧
      testID ∉ tests ∧ TestsComplete catalog tests := by
  constructor
  · rintro ⟨hdistinct, hgates⟩
    obtain ⟨hgate, hgates⟩ := List.forall_mem_cons.mp hgates
    exact ⟨hgate, (List.nodup_cons.mp hdistinct).1, (List.nodup_cons.mp hdistinct).2, hgates⟩
  · rintro ⟨hgate, hnew, hdistinct, hgates⟩
    exact ⟨List.nodup_cons.mpr ⟨hnew, hdistinct⟩, List.forall_mem_cons.mpr ⟨hgate, hgates⟩⟩

theorem validateTests_nil {id : GoString} {tests : List GoString}
    {testIDs : GoMap GoString Unit} :
    validateTests catalog id testIDs tests = [] ↔
      TestsComplete catalog tests ∧ ∀ testID ∈ tests, testIDs.get? testID = none := by
  induction tests generalizing testIDs with
  | nil => exact ⟨fun _ => ⟨⟨.nil, by simp⟩, by simp⟩, fun _ => rfl⟩
  | cons testID rest ih =>
    rw [validateTests, List.forall_mem_cons]
    cases hseen : testIDs.get? testID with
    | some u => simp
    | none =>
      rw [Option.isSome_none, if_neg Bool.false_ne_true, List.append_eq_nil_iff,
        validateGate_nil, ih, GoMap.forall_get?_set_none, testsComplete_cons]
      tauto

theorem validateRequirementFields_nil :
    validateRequirementFields quote requirement catalog = [] ↔
      requirement.FieldsComplete catalog := by
  simp only [validateRequirementFields, List.append_eq_nil_iff, issueIf_nil,
    validateTests_nil, GoMap.get?_empty, decide_eq_false_iff_not]
  constructor
  · rintro ⟨⟨⟨⟨howner, hstatus⟩, htests⟩, hevidence⟩, hcomplete, -⟩
    obtain ⟨tests, ht⟩ : ∃ tests, requirement.testIDs = some tests := by
      cases h : requirement.testIDs with
      | none => simp [h] at htests
      | some tests => exact ⟨tests, rfl⟩
    rw [ht] at hstatus hcomplete
    refine ⟨howner, ?_, ⟨tests, ht, hcomplete, fun hcovered hnil => ?_⟩, ?_⟩
    · by_contra hother
      rw [not_or] at hother
      simp [hother.1, hother.2] at hstatus
    · have hplanned : requirement.status ≠ statusPlanned := by rw [hcovered]; decide
      rw [if_neg hplanned, if_pos hcovered, hnil] at hstatus
      simp at hstatus
    · cases h : requirement.evidence with
      | none => simp [h] at hevidence
      | some evidence => exact ⟨evidence, rfl, fun hnil => by simp [h, hnil] at hevidence⟩
  · rintro ⟨howner, hstatus, ⟨tests, ht, hcomplete, hcovered⟩, evidence, he, hne⟩
    rw [ht, he]
    refine ⟨⟨⟨⟨howner, ?_⟩, rfl⟩, by simpa using hne⟩, hcomplete, by simp⟩
    split
    · rfl
    next hplanned =>
      have hc := hstatus.resolve_left hplanned
      simpa [hc] using hcovered hc

theorem validateRequirement_nil :
    validateRequirement quote catalog requirement = [] ↔
      catalog.requirements.get? requirement.id = some requirement.priority ∧
        requirement.priority ≠ "P2" ∧ requirement.FieldsComplete catalog := by
  rw [validateRequirement, List.append_eq_nil_iff, validateRequirementFields_nil, ← and_assoc,
    ← Requirement.id]
  refine and_congr_left' ?_
  cases h : catalog.requirements.get? requirement.id with
  | none => simp
  | some specPriority =>
    simp only [List.append_eq_nil_iff, issueIf_nil, decide_eq_false_iff_not, not_not,
      Option.some.injEq]
    exact ⟨fun ⟨hp, he⟩ => ⟨he.symm, he ▸ hp⟩, fun ⟨he, hp⟩ => ⟨he ▸ hp, he.symm⟩⟩

/-! ## The loop -/

/-- The identifiers are not blank and distinct, also from those seen before. -/
structure Fresh (seen : GoMap GoString Unit) (requirements : List Requirement) : Prop where
  nonblank : ∀ r ∈ requirements, r.id ≠ []
  unseen : ∀ id ∈ requirements.map Requirement.id, seen.get? id = none
  distinct : (requirements.map Requirement.id).Nodup

theorem fresh_cons : Fresh seen (requirement :: requirements) ↔
    (requirement.id ≠ [] ∧ seen.get? requirement.id = none) ∧
      Fresh (seen.set requirement.id ()) requirements := by
  constructor
  · rintro ⟨hblank, hunseen, hdistinct⟩
    obtain ⟨hblank, hblanks⟩ := List.forall_mem_cons.mp hblank
    obtain ⟨hunseen, hunseens⟩ := List.forall_mem_cons.mp hunseen
    obtain ⟨hnew, hdistinct⟩ := List.nodup_cons.mp hdistinct
    exact ⟨⟨hblank, hunseen⟩, hblanks, GoMap.forall_get?_set_none.mpr ⟨hnew, hunseens⟩, hdistinct⟩
  · rintro ⟨⟨hblank, hunseen⟩, hblanks, hunseens, hdistinct⟩
    obtain ⟨hnew, hunseens⟩ := GoMap.forall_get?_set_none.mp hunseens
    exact ⟨List.forall_mem_cons.mpr ⟨hblank, hblanks⟩,
      List.forall_mem_cons.mpr ⟨hunseen, hunseens⟩, List.nodup_cons.mpr ⟨hnew, hdistinct⟩⟩

/-- On identifiers that are not blank and distinct, each requirement is checked alone. -/
theorem validateRequirements_fresh (quote : GoString → GoString) (catalog : Catalog) (index : Nat)
    (h : Fresh seen requirements) :
    (validateRequirements quote catalog index seen requirements).1 =
        requirements.flatMap (validateRequirement quote catalog) ∧
      ∀ id, ((validateRequirements quote catalog index seen requirements).2.get? id).isSome =
        ((seen.get? id).isSome || decide (id ∈ requirements.map Requirement.id)) := by
  induction requirements generalizing index seen with
  | nil => exact ⟨rfl, fun id => by simp [validateRequirements]⟩
  | cons requirement rest ih =>
    obtain ⟨⟨hblank, hunseen⟩, hrest⟩ := fresh_cons.mp h
    obtain ⟨hissues, hseen⟩ := ih (index + 1) hrest
    rw [Requirement.id] at hblank hunseen
    simp only [validateRequirements, if_neg hblank, hunseen, Option.isSome_none,
      Bool.false_eq_true, if_false, List.flatMap_cons]
    refine ⟨congrArg (_ ++ ·) hissues, fun id => (hseen id).trans ?_⟩
    rw [GoMap.get?_set]
    by_cases heq : id = requirement.id
    · simp [heq]
    · simp [heq, List.mem_cons]

/-- The loop finds something in identifiers that are blank or repeated. -/
theorem validateRequirements_nil {index : Nat} :
    (validateRequirements quote catalog index seen requirements).1 = [] ↔
      Fresh seen requirements ∧
        ∀ r ∈ requirements, validateRequirement quote catalog r = [] := by
  refine ⟨fun h => ?_, fun ⟨hfresh, h⟩ => ?_⟩
  · suffices hfresh : Fresh seen requirements by
      rw [(validateRequirements_fresh quote catalog index hfresh).1, List.flatMap_eq_nil_iff] at h
      exact ⟨hfresh, h⟩
    induction requirements generalizing index seen with
    | nil => exact ⟨by simp, by simp, .nil⟩
    | cons requirement rest ih =>
      rw [validateRequirements, List.append_eq_nil_iff] at h
      by_cases hblank : Net.trimSpace requirement.requirementID = []
      · simp [hblank] at h
      · cases hseen : seen.get? (Net.trimSpace requirement.requirementID) with
        | some u => simp [hblank, hseen] at h
        | none =>
          simp only [hblank, hseen, if_false, Option.isSome_none, Bool.false_eq_true] at h
          exact fresh_cons.mpr ⟨⟨hblank, hseen⟩, ih h.2⟩
  · rw [(validateRequirements_fresh quote catalog index hfresh).1, List.flatMap_eq_nil_iff]
    exact h

/-! ## The gate -/

/-- What the specification demands and no requirement of the manifest names. -/
theorem missing_nil : (catalog.requirements.toList.flatMap fun entry =>
      issueIf (entry.2 ≠ ("P2" : GoString) && (seen.get? entry.1).isNone)
        "missing_requirement" entry.1) = [] ↔
    ∀ id priority, catalog.requirements.get? id = some priority → priority ≠ "P2" →
      (seen.get? id).isSome = true := by
  rw [List.flatMap_eq_nil_iff]
  constructor
  · intro h id priority hget hp
    have hentry := issueIf_nil.mp (h (id, priority) (GoMap.mem_toList.mpr hget))
    simpa [hp, Option.isSome_iff_ne_none] using hentry
  · rintro h ⟨id, priority⟩ hentry
    have hsome := h id priority (GoMap.mem_toList.mp hentry)
    rw [issueIf_nil, Bool.and_eq_false_imp, decide_eq_true_iff]
    intro hp
    simpa [Option.isSome_iff_ne_none] using hsome hp

theorem sortFunc_nil {α : Type} {cmp : α → α → Ordering} {l : List α} :
    sortFunc cmp l = [] ↔ l = [] := by
  rw [← List.length_eq_zero_iff, (sortFunc_perm cmp l).length_eq, List.length_eq_zero_iff]

theorem validate_nil {manifest : Manifest} (hspec : catalog.Specified) :
    validate quote manifest catalog = [] ↔ manifest.Complete catalog := by
  simp only [validate, sortFunc_nil, List.append_eq_nil_iff, issueIf_nil, missing_nil,
    validateRequirements_nil, validateRequirement_nil, decide_eq_false_iff_not, not_not]
  constructor
  · rintro ⟨⟨⟨⟨hversion, hsource⟩, hsome⟩, hfresh, hall⟩, hmissing⟩
    obtain ⟨requirements, hr⟩ : ∃ requirements, manifest.requirements = some requirements := by
      cases h : manifest.requirements with
      | none => simp [h] at hsome
      | some requirements => exact ⟨requirements, rfl⟩
    rw [hr, Option.getD_some] at hfresh hall hmissing
    refine ⟨hversion, hsource, requirements, hr, hfresh.nonblank, hfresh.distinct, fun id => ?_,
      fun r hmem => ⟨(hall r hmem).1, (hall r hmem).2.2⟩⟩
    constructor
    · intro hid
      obtain ⟨r, hmem, rfl⟩ := List.mem_map.mp hid
      obtain ⟨hget, hp, -⟩ := hall r hmem
      refine ⟨r.priority, hget, ?_⟩
      have := hspec _ _ hget
      tauto
    · rintro ⟨priority, hget, hp⟩
      have hseen := hmissing id priority hget (by rcases hp with rfl | rfl <;> decide)
      rw [(validateRequirements_fresh quote catalog 0 hfresh).2 id] at hseen
      simpa using hseen
  · rintro ⟨hversion, hsource, requirements, hr, hblank, hdistinct, hids, hall⟩
    have hfresh : Fresh ∅ requirements := ⟨hblank, by simp, hdistinct⟩
    rw [hr, Option.getD_some]
    refine ⟨⟨⟨⟨hversion, hsource⟩, rfl⟩, hfresh, fun r hmem => ⟨(hall r hmem).1, ?_,
      (hall r hmem).2⟩⟩, fun id priority hget hp => ?_⟩
    · obtain ⟨priority, hget, hp⟩ := (hids r.id).mp (List.mem_map_of_mem hmem)
      obtain rfl : r.priority = priority := Option.some.inj ((hall r hmem).1.symm.trans hget)
      rcases hp with h | h <;> rw [h] <;> decide
    · have hmem : id ∈ requirements.map Requirement.id := by
        refine (hids id).mpr ⟨priority, hget, ?_⟩
        have := hspec _ _ hget
        tauto
      rw [(validateRequirements_fresh quote catalog 0 hfresh).2 id, decide_eq_true hmem,
        Bool.or_true]

instance : Std.TransCmp compareIssues :=
  inferInstanceAs (Std.TransCmp (compareLex (compareOn Issue.kind) (compareOn Issue.message)))

theorem compareIssues_eq {a b : Issue} (h : compareIssues a b = .eq) : a = b := by
  obtain ⟨kind, message⟩ := a
  simp only [compareIssues, compareLex, compareOn, Ordering.then_eq_eq,
    Std.LawfulEqOrd.compare_eq_iff_eq] at h
  rw [h.1, h.2]

theorem fresh_perm {requirements' : List Requirement} (h : Fresh seen requirements)
    (hperm : requirements.Perm requirements') : Fresh seen requirements' :=
  ⟨fun r hr => h.nonblank r (hperm.mem_iff.mpr hr),
    fun id hid => h.unseen id ((hperm.map _).mem_iff.mpr hid),
    ((hperm.map _).nodup_iff).mp h.distinct⟩

theorem validate_perm {manifest : Manifest} {requirements' : List Requirement}
    (hr : manifest.requirements = some requirements) (hfresh : Fresh ∅ requirements)
    (hperm : requirements.Perm requirements') :
    validate quote { manifest with requirements := some requirements' } catalog =
      validate quote manifest catalog := by
  obtain ⟨hissues, hseen⟩ := validateRequirements_fresh quote catalog 0 hfresh
  obtain ⟨hissues', hseen'⟩ := validateRequirements_fresh quote catalog 0
    (fresh_perm hfresh hperm)
  have hsame : ∀ id,
      ((validateRequirements quote catalog 0 ∅ requirements').2.get? id).isNone =
        ((validateRequirements quote catalog 0 ∅ requirements).2.get? id).isNone := fun id => by
    rw [← Option.not_isSome, ← Option.not_isSome, hseen, hseen',
      decide_eq_decide.mpr (hperm.map Requirement.id).mem_iff]
  symm
  simp only [validate, hr, Option.getD_some, Option.isNone_some, hissues, hissues', hsame]
  exact sortFunc_eq_of_perm ((List.Perm.append_left _ (hperm.flatMap_right _)).append_right _)
    fun a _ b _ h => compareIssues_eq h

/-- The gate is exact on every catalog of the specification, and it does not read the order of
requirements whose identifiers are distinct and not blank. -/
theorem validate_exact (quote : GoString → GoString) (catalog : Catalog)
    (hspec : catalog.Specified) :
    (∀ manifest, validate quote manifest catalog = [] ↔ Manifest.Complete catalog manifest) ∧
    ∀ (manifest : Manifest) (requirements requirements' : List Requirement),
      manifest.requirements = some requirements → (∀ r ∈ requirements, r.id ≠ []) →
      (requirements.map Requirement.id).Nodup → requirements.Perm requirements' →
      validate quote { manifest with requirements := some requirements' } catalog =
        validate quote manifest catalog :=
  ⟨fun _ => validate_nil hspec, fun _ _ _ hr hblank hdistinct hperm =>
    validate_perm hr ⟨hblank, by simp, hdistinct⟩ hperm⟩

/-- A manifest with one requirement of each gated priority. -/
def sampleManifest : Manifest where
  schemaVersion := 1
  source := "spec.md"
  requirements := some
    [⟨"FN-1", "P0", "core", "covered", some ["E2E-1", "unit"], some ["fn_test.go"]⟩,
      ⟨" FN-2 ", "P1", "core", "planned", some [], some ["planned"]⟩]

def sampleCatalog : Catalog where
  requirements := ((GoMap.set (∅ : GoMap GoString GoString) "FN-1" "P0").set "FN-2" "P1").set
    "FN-3" "P2"
  gates := GoMap.set (∅ : GoMap GoString GoString) "E2E-1" "P0"

theorem sampleCatalog_specified : sampleCatalog.Specified :=
  GoMap.forall_set (GoMap.forall_set (GoMap.forall_set (by simp) (by simp)) (by simp)) (by simp)

theorem validate_exact_sample : sampleManifest.Complete sampleCatalog ∧
    validate id { sampleManifest with requirements := sampleManifest.requirements.map .reverse }
      sampleCatalog = validate id sampleManifest sampleCatalog :=
  have h := validate_exact id sampleCatalog sampleCatalog_specified
  ⟨(h.1 sampleManifest).mp (by decide +kernel),
    h.2 sampleManifest _ _ rfl (by decide +kernel) (by decide +kernel) (List.reverse_perm _).symm⟩

end MiniCloud.Coverage
