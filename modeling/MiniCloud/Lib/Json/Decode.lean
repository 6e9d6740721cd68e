import MiniCloud.Lib.Json.Marshal
import MiniCloud.Lib.Json.Parse

/-!
# Typed decoding

What `encoding/json` does with a parsed value and a Go value to fill: a member is matched to a field
by its exact name and otherwise by its folded name, a member that matches no field is an error
(`DisallowUnknownFields`), and `null` leaves a field as it is unless the field can be nil. A member
is decoded into what its field holds already, so of two members for one field the later one wins,
and where it says nothing the earlier one stays.

The decoder goes on after an error it can report later and returns the first one in the end, so an
error is one outcome here.
-/

namespace MiniCloud.Lib.Json

/-! ## Names -/

/--
`foldName`, `k` bytes into a rune that has been folded: ASCII letters are made upper case, and
U+017F and U+212A are the two other runes that fold to a letter of ASCII. The remaining runes fold
to runes outside ASCII, which no field name has, and are left alone.
-/
def foldFrom : Nat → GoString → GoString
  | _, [] => []
  | k + 1, _ :: rest => foldFrom k rest
  | 0, b :: rest =>
    if b = 0xC5 ∧ rest.take 1 = [0xBF] then 0x53 :: foldFrom 1 rest
    else if b = 0xE2 ∧ rest.take 2 = [0x84, 0xAA] then 0x4B :: foldFrom 2 rest
    else Text.upperByte b :: foldFrom 0 rest

def foldName (name : GoString) : GoString := foldFrom 0 name

example : foldName "ſtatuK" = foldName "STATUK" := by decide
example : foldName "spec_version" = foldName "Spec_Version" := by decide

/-! ## Structures -/

variable {α β : Type}

/-- A field of a structure: the name of its member, and how a member is decoded into it. -/
structure Field (α : Type) where
  name : GoString
  set : Json Num → α → Option α

def findField (fields : List (Field α)) (key : GoString) : Option (Field α) :=
  match fields.find? fun f => f.name = key with
  | some f => some f
  | none => fields.find? fun f => foldName f.name = foldName key

def decodeMembers (fields : List (Field α)) : List (GoString × Json Num) → α → Option α
  | [], a => some a
  | (key, v) :: ms, a =>
    match findField fields key with
    | none => none
    | some f =>
      match f.set v a with
      | none => none
      | some a => decodeMembers fields ms a

def decodeStruct (fields : List (Field α)) (v : Json Num) (a : α) : Option α :=
  match v with
  | .null => some a
  | .obj ms => decodeMembers fields ms a
  | _ => none

variable {fields : List (Field α)}

theorem findField_mem (hnames : (fields.map (·.name)).Nodup) {f : Field α} (hf : f ∈ fields) :
    findField fields f.name = some f := by
  have hfind : fields.find? (fun g => g.name = f.name) = some f := by
    induction fields with
    | nil => cases hf
    | cons g fields ih =>
      rw [List.map_cons, List.nodup_cons] at hnames
      rcases List.mem_cons.mp hf with rfl | hf
      · exact List.find?_cons_of_pos (by simp)
      · have hne : g.name ≠ f.name := fun heq => hnames.1 (heq ▸ List.mem_map_of_mem hf)
        rw [List.find?_cons_of_neg (by simpa using hne)]
        exact ih hnames.2 hf
  rw [findField, hfind]

/-- A member under a field's own name is decoded into that field. -/
theorem decodeMembers_mem (hnames : (fields.map (·.name)).Nodup) {f : Field α} (hf : f ∈ fields)
    {v : Json Num} {a a' : α} (hset : f.set v a = some a') (ms : List (GoString × Json Num)) :
    decodeMembers fields ((f.name, v) :: ms) a = decodeMembers fields ms a' := by
  rw [decodeMembers, findField_mem hnames hf]
  simp only [hset]

/-- An object that names every field, in order, is decoded field by field. -/
theorem decodeMembers_zip (hnames : (fields.map (·.name)).Nodup) (values : List (Json Num))
    (a : α) :
    decodeMembers fields ((fields.zip values).map fun x => (x.1.name, x.2)) a =
      (fields.zip values).foldlM (fun a x => x.1.set x.2 a) a := by
  have hmem : ∀ x ∈ fields.zip values, x.1 ∈ fields := fun x hx => (List.of_mem_zip hx).1
  generalize fields.zip values = steps at hmem ⊢
  induction steps generalizing a with
  | nil => rfl
  | cons x steps ih =>
    have hx := hmem x List.mem_cons_self
    rw [List.map_cons, List.foldlM_cons]
    cases hset : x.1.set x.2 a with
    | none =>
      rw [decodeMembers, findField_mem hnames hx]
      simp only [hset]
      rfl
    | some a' =>
      rw [decodeMembers_mem hnames hx hset, ih a' fun y hy => hmem y (List.mem_cons_of_mem x hy)]
      rfl

/-- The field that a getter and a setter make of a decoder. -/
def Field.of (name : GoString) (get : α → β) (put : β → α → α) (decode : Json Num → β → Option β) :
    Field α :=
  ⟨name, fun v a => (decode v (get a)).map fun b => put b a⟩

/-! ## Scalars -/

def decodeString (v : Json Num) (old : GoString) : Option GoString :=
  match v with
  | .null => some old
  | .str s => some s
  | _ => none

/-- A pointer to a string, which `null` makes nil. -/
def decodeStringPointer (v : Json Num) (_ : Option GoString) : Option (Option GoString) :=
  match v with
  | .null => some none
  | .str s => some (some s)
  | _ => none

/-- The integer a literal spells: `strconv` takes digits and no fraction or exponent. -/
def Num.int? (n : Num) : Option Int :=
  if n.frac = [] ∧ n.exp = none then
    some (if n.neg then -(Text.digitsValue n.int : Int) else Text.digitsValue n.int)
  else none

def decodeInt64 (v : Json Num) (old : Int) : Option Int :=
  match v with
  | .null => some old
  | .num n =>
    match n.int? with
    | some x => if -2 ^ 63 ≤ x ∧ x < 2 ^ 63 then some x else none
    | none => none
  | _ => none

/-- An unsigned integer of a width; `strconv.ParseUint` takes no sign. -/
def decodeUint (bits : Nat) (v : Json Num) (old : Nat) : Option Nat :=
  match v with
  | .null => some old
  | .num n =>
    match n.int? with
    | some x => if n.neg = false ∧ x < 2 ^ bits then some x.toNat else none
    | none => none
  | _ => none

theorem int?_ofInt (n : Int) : (⟨n < 0, Text.decimal n.natAbs, [], none⟩ : Num).int? = some n := by
  rw [Num.int?, if_pos ⟨rfl, rfl⟩, (Text.spells_decimal n.natAbs).value]
  by_cases hn : n < 0
  · rw [if_pos (by simpa using hn)]
    congr 1
    omega
  · rw [if_neg (by simpa using hn)]
    congr 1
    omega

theorem decodeInt64_ofInt {n : Int} (hlo : -2 ^ 63 ≤ n) (hhi : n < 2 ^ 63) (old : Int) :
    decodeInt64 (ofInt n) old = some n := by
  rw [ofInt, decodeInt64, int?_ofInt]
  exact if_pos ⟨hlo, hhi⟩

theorem decodeUint_ofNat {bits n : Nat} (hn : n < 2 ^ bits) (old : Nat) :
    decodeUint bits (ofNat n) old = some n := by
  have hint : (⟨false, Text.decimal n, [], none⟩ : Num).int? = some (n : Int) := int?_ofInt n
  rw [ofNat, decodeUint, hint]
  exact if_pos ⟨rfl, by exact_mod_cast hn⟩

/-! ## Slices -/

/--
Items are decoded into the elements that are there already. What a shorter array has left behind in
the backing array is not kept; it would take a third member for the same field to see it.
-/
def decodeItems (decode : Json Num → α → Option α) (zero : α) :
    List (Json Num) → List α → Option (List α)
  | [], _ => some []
  | v :: vs, old =>
    match decode v (old.head?.getD zero) with
    | none => none
    | some a =>
      match decodeItems decode zero vs old.tail with
      | none => none
      | some as => some (a :: as)

/-- A slice, which `null` makes nil. -/
def decodeSlice (decode : Json Num → α → Option α) (zero : α) (v : Json Num)
    (old : Option (List α)) : Option (Option (List α)) :=
  match v with
  | .null => some none
  | .arr items => (decodeItems decode zero items (old.getD [])).map some
  | _ => none

theorem decodeItems_map {decode : Json Num → α → Option α} {zero : α} {encode : α → Json Num}
    {l : List α} (h : ∀ a ∈ l, decode (encode a) zero = some a) :
    decodeItems decode zero (l.map encode) [] = some l := by
  induction l with
  | nil => rfl
  | cons a l ih =>
    rw [List.map_cons, decodeItems, List.head?_nil, Option.getD_none, h a List.mem_cons_self]
    simp only [List.tail_nil, ih fun b hb => h b (List.mem_cons_of_mem a hb)]

end MiniCloud.Lib.Json
