import MiniCloud.Lib.GoMap
import MiniCloud.Lib.Json.Decode
import MiniCloud.Lib.Json.Records

/-!
# Members that depend on the value

`json.Marshal` writes a map as an object with its keys sorted, so the text depends on what the map
holds and not on how it came about. A field with `omitempty` is left out when it is zero.
-/

namespace MiniCloud.Lib.Json

variable {V : Type}

/-! ## Maps -/

/-- A map that is not nil. -/
def ofMap (value : V → Json Num) (m : GoMap GoString V) : Json Num :=
  .obj ((sortFunc (compareOn Prod.fst) m.toList).map fun entry => (entry.1, value entry.2))

/-- A map has no name twice, so only its values can keep a canonical form from existing. -/
theorem accepted_ofMap {value : V → Json Num} (hvalue : ∀ v, Accepted (value v))
    (m : GoMap GoString V) : Accepted (ofMap value m) := by
  refine accepted_obj.mpr ⟨?_, fun member hmember => ?_⟩
  · rw [List.map_map]
    exact ((sortFunc_perm _ m.toList).map Prod.fst).nodup_iff.mpr m.toList_keys_nodup
  · obtain ⟨entry, -, rfl⟩ := List.mem_map.mp hmember
    exact hvalue entry.2

/-! ## Omitted fields -/

/-- A string with `omitempty`. -/
def omitEmpty (s : GoString) : Option (Json Num) := if s = [] then none else some (.str s)

/-- A number with `omitempty`. -/
def omitZero (n : Nat) : Option (Json Num) := if n = 0 then none else some (.ofNat n)

/-- The members of the fields that are not left out. -/
def present (members : List (GoString × Option (Json Num))) : List (GoString × Json Num) :=
  members.filterMap fun m => m.2.map fun v => (m.1, v)

end MiniCloud.Lib.Json
