import MiniCloud.Lib.GoMap
import MiniCloud.Lib.Net

/-!
# The coverage gate

`internal/coverage`: a manifest of requirements is compared with the catalog that the specification
declares. The readers of the two files are left out. A nil slice is told from an empty one, and
`strconv.Quote`, which writes a status that is not known, is a parameter.
-/

namespace MiniCloud.Coverage

open Lib

def manifestSchemaVersion : Int := 1
def statusPlanned : GoString := "planned"
def statusCovered : GoString := "covered"

/-- `^E2E-\d+$`. -/
def e2eIDPattern (testID : GoString) : Bool :=
  testID.take 4 == ("E2E-" : GoString) && testID.length > 4 && (testID.drop 4).all Text.isDigit

structure Requirement where
  requirementID : GoString
  priority : GoString
  owner : GoString
  status : GoString
  testIDs : Option (List GoString)
  evidence : Option (List GoString)

structure Manifest where
  schemaVersion : Int
  source : GoString
  requirements : Option (List Requirement)

/-- The priorities of the requirements and of the gates. -/
structure Catalog where
  requirements : GoMap GoString GoString
  gates : GoMap GoString GoString

structure Issue where
  kind : GoString
  message : GoString
  deriving DecidableEq

/-- `if failed { issues = append(issues, Issue{Kind: kind, Message: message}) }`. -/
def issueIf (failed : Bool) (kind message : GoString) : List Issue :=
  if failed then [⟨kind, message⟩] else []

/-- The rest of a turn of the loop over the tests, for a test that is listed first. -/
def validateGate (catalog : Catalog) (id testID : GoString) : List Issue :=
  if e2eIDPattern testID then
    match catalog.gates.get? testID with
    | none => [⟨"unknown_gate", id ++ " references " ++ testID⟩]
    | some priority =>
      issueIf (priority = "P2") "p2_in_gate" (id ++ " references P2 gate " ++ testID)
  else []

/-- The loop over the tests of a requirement, with the tests before. -/
def validateTests (catalog : Catalog) (id : GoString) (testIDs : GoMap GoString Unit) :
    List GoString → List Issue
  | [] => []
  | testID :: rest =>
    if (testIDs.get? testID).isSome then
      ⟨"duplicate_test", id ++ " lists " ++ testID ++ " more than once"⟩ ::
        validateTests catalog id testIDs rest
    else
      validateGate catalog id testID ++ validateTests catalog id (testIDs.set testID ()) rest

def validateRequirementFields (quote : GoString → GoString) (requirement : Requirement)
    (catalog : Catalog) : List Issue :=
  let id := Net.trimSpace requirement.requirementID
  issueIf (Net.trimSpace requirement.owner = []) "missing_field" (id ++ ".owner is required") ++
  (if requirement.status = statusPlanned then []
    else if requirement.status = statusCovered then
      issueIf ((requirement.testIDs.getD []).length = 0) "missing_field"
        (id ++ ".test_ids must not be empty when status is covered")
    else [⟨"invalid_status", id ++ " has status " ++ quote requirement.status⟩]) ++
  issueIf (requirement.testIDs.isNone) "missing_field" (id ++ ".test_ids must be a JSON array") ++
  (match requirement.evidence with
    | none => [⟨"missing_field", id ++ ".evidence must be a JSON array"⟩]
    | some evidence => issueIf (evidence.length = 0) "missing_field"
        (id ++ ".evidence must include a path or planned marker")) ++
  validateTests catalog id ∅ (requirement.testIDs.getD [])

/-- The rest of a turn of the loop over the requirements, for an id that is seen first. -/
def validateRequirement (quote : GoString → GoString) (catalog : Catalog)
    (requirement : Requirement) : List Issue :=
  let id := Net.trimSpace requirement.requirementID
  (match catalog.requirements.get? id with
    | none => [⟨"unknown_requirement", id⟩]
    | some specPriority =>
      issueIf (specPriority = "P2") "p2_in_gate" (id ++ " is a P2 requirement") ++
      issueIf (requirement.priority ≠ specPriority) "priority_mismatch"
        (id ++ " declares " ++ requirement.priority ++ ", specification declares " ++
          specPriority)) ++
  validateRequirementFields quote requirement catalog

/-- The loop over the requirements from `index` on: the issues, and the ids that are seen. -/
def validateRequirements (quote : GoString → GoString) (catalog : Catalog) (index : Nat)
    (seen : GoMap GoString Unit) : List Requirement → List Issue × GoMap GoString Unit
  | [] => ([], seen)
  | requirement :: rest =>
    let id := Net.trimSpace requirement.requirementID
    let found : List Issue × GoMap GoString Unit :=
      if id = [] then
        ([⟨"missing_field", "requirements[" ++ Text.decimal index ++
          "].requirement_id is required"⟩], seen)
      else if (seen.get? id).isSome then ([⟨"duplicate_requirement", id⟩], seen)
      else (validateRequirement quote catalog requirement, seen.set id ())
    let others := validateRequirements quote catalog (index + 1) found.2 rest
    (found.1 ++ others.1, others.2)

/-- `%d`. -/
def intText (n : Int) : GoString :=
  if n < 0 then 0x2D :: Text.decimal n.natAbs else Text.decimal n.natAbs

def compareIssues : Issue → Issue → Ordering :=
  compareLex (compareOn Issue.kind) (compareOn Issue.message)

/-- Every independent issue; the order of the loop over the catalog does not show. -/
def validate (quote : GoString → GoString) (manifest : Manifest) (catalog : Catalog) :
    List Issue :=
  let found := validateRequirements quote catalog 0 ∅ (manifest.requirements.getD [])
  sortFunc compareIssues <|
    issueIf (manifest.schemaVersion ≠ manifestSchemaVersion) "schema_version"
      ("got " ++ intText manifest.schemaVersion ++ ", want " ++ intText manifestSchemaVersion) ++
    issueIf (Net.trimSpace manifest.source = []) "missing_field" "source is required" ++
    issueIf manifest.requirements.isNone "missing_field" "requirements must be a JSON array" ++
    found.1 ++
    catalog.requirements.toList.flatMap fun entry =>
      issueIf (entry.2 ≠ ("P2" : GoString) && (found.2.get? entry.1).isNone)
        "missing_requirement" entry.1

end MiniCloud.Coverage
