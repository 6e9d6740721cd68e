import Mathlib.Data.List.Sort
import Mathlib.Data.List.Lex
import Mathlib.Data.Prod.Lex
import Mathlib.Data.List.Perm.Basic
import MiniCloud.Lib.Json.NumberText
import MiniCloud.Lib.Json.RoundTrip

/-!
# RFC 8785 canonical texts and JSON equality

`Equiv R` is equality of JSON values up to the order of members and up to `R` on numbers.
`transform` is the RFC 8785 canonicalisation: it refuses duplicate names and numbers no double
can hold, writes every number as the double nearest to it, and sorts members by the UTF-16 code
units of their names.

`transform_eq_iff` says exactly what the canonical text keeps: two values have one text when
they are equal up to member order and up to rounding their numbers to doubles.
-/

namespace MiniCloud.Lib.Json

/-! ## Equality -/

section Equiv

variable {N : Type} (R : N → N → Prop)

mutual

/-- Equal JSON values, numbers compared by `R`. -/
inductive Equiv : Json N → Json N → Prop
  | null : Equiv .null .null
  | bool (b : Bool) : Equiv (.bool b) (.bool b)
  | num {n m : N} (h : R n m) : Equiv (.num n) (.num m)
  | str (s : GoString) : Equiv (.str s) (.str s)
  | arr {vs ws : List (Json N)} (h : EquivItems vs ws) : Equiv (.arr vs) (.arr ws)
  | obj {ms ls ns : List (GoString × Json N)} (h : EquivMembers ms ls) (hp : ls.Perm ns) :
      Equiv (.obj ms) (.obj ns)

inductive EquivItems : List (Json N) → List (Json N) → Prop
  | nil : EquivItems [] []
  | cons {v w : Json N} {vs ws : List (Json N)} (h : Equiv v w) (t : EquivItems vs ws) :
      EquivItems (v :: vs) (w :: ws)

inductive EquivMembers : List (GoString × Json N) → List (GoString × Json N) → Prop
  | nil : EquivMembers [] []
  | cons {k : GoString} {v w : Json N} {ms ns : List (GoString × Json N)} (h : Equiv v w)
      (t : EquivMembers ms ns) : EquivMembers ((k, v) :: ms) ((k, w) :: ns)

end

end Equiv

/-! ## Member order -/

/-- The UTF-16 code units of a code point. -/
def runeUnits (r : ℕ) : List ℕ :=
  if r < 0x10000 then [r] else [0xD800 + (r - 0x10000) / 1024, 0xDC00 + (r - 0x10000) % 1024]

/-- The UTF-16 code units of a UTF-8 string; a stray byte counts as U+FFFD. -/
def utf16 : GoString → List ℕ
  | [] => []
  | b :: rest =>
    if b < 0x80 then b.toNat :: utf16 rest
    else if b < 0xE0 then
      match rest with
      | c :: rest => runeUnits (b.toNat % 32 * 64 + c.toNat % 64) ++ utf16 rest
      | _ => [0xFFFD]
    else if b < 0xF0 then
      match rest with
      | c :: d :: rest =>
        runeUnits ((b.toNat % 16 * 64 + c.toNat % 64) * 64 + d.toNat % 64) ++ utf16 rest
      | _ => [0xFFFD]
    else
      match rest with
      | c :: d :: e :: rest =>
        runeUnits (((b.toNat % 8 * 64 + c.toNat % 64) * 64 + d.toNat % 64) * 64 + e.toNat % 64) ++
          utf16 rest
      | _ => [0xFFFD]

/--
Where a name stands among the members of an object. The bytes come second only so that the order
is one on all byte strings; valid UTF-8 never needs them.
-/
def keyRank (k : GoString) : List ℕ ×ₗ List ℕ := toLex (utf16 k, k.map UInt8.toNat)

theorem keyRank_injective {a b : GoString} (h : keyRank a = keyRank b) : a = b := by
  have h2 : a.map UInt8.toNat = b.map UInt8.toNat := congrArg (fun r => (ofLex r).2) h
  exact List.map_injective_iff.mpr (fun _ _ => UInt8.toNat_inj.mp) h2

def memberLe {N : Type} (a b : GoString × Json N) : Prop := keyRank a.1 ≤ keyRank b.1

instance {N : Type} : DecidableRel (memberLe (N := N)) := fun a b =>
  inferInstanceAs (Decidable (keyRank a.1 ≤ keyRank b.1))

instance {N : Type} : Std.Total (memberLe (N := N)) := ⟨fun a _ => le_total (keyRank a.1) _⟩

instance {N : Type} : IsTrans _ (memberLe (N := N)) := ⟨fun _ _ _ => le_trans⟩

/-! ## The canonical tree -/

section Canon

variable {N M : Type} (f : N → M)

mutual

/-- Numbers replaced, members sorted. -/
def canon : Json N → Json M
  | .null => .null
  | .bool b => .bool b
  | .num n => .num (f n)
  | .str s => .str s
  | .arr items => .arr (canonItems items)
  | .obj members => .obj ((canonMembers members).insertionSort memberLe)

def canonItems : List (Json N) → List (Json M)
  | [] => []
  | v :: vs => canon v :: canonItems vs

def canonMembers : List (GoString × Json N) → List (GoString × Json M)
  | [] => []
  | (k, v) :: ms => (k, canon v) :: canonMembers ms

end

theorem canonMembers_eq_map (ms : List (GoString × Json N)) :
    canonMembers f ms = ms.map fun m => (m.1, canon f m.2) := by
  induction ms with
  | nil => rfl
  | cons m ms ih => rw [canonMembers, ih]; rfl

variable {ms ns : List (GoString × Json N)} {P : N → Prop} {Q : M → Prop}

/-- Sorting forgets the order of members when no name occurs twice. -/
theorem sort_canonMembers (hp : ms.Perm ns) (hnd : (ns.map Prod.fst).Nodup) :
    (canonMembers f ms).insertionSort memberLe = (canonMembers f ns).insertionSort memberLe := by
  have hperm : (canonMembers f ms).Perm (canonMembers f ns) := by
    rw [canonMembers_eq_map, canonMembers_eq_map]
    exact hp.map _
  have hkeys : (canonMembers f ns).map Prod.fst = ns.map Prod.fst := by
    rw [canonMembers_eq_map, List.map_map]
    rfl
  have hsort := (List.perm_insertionSort memberLe (canonMembers f ms)).trans
    (hperm.trans (List.perm_insertionSort memberLe (canonMembers f ns)).symm)
  refine List.Perm.eq_of_pairwise (fun a b ha hb hab hba => ?_)
    (List.pairwise_insertionSort _ _) (List.pairwise_insertionSort _ _) hsort
  -- equal rank is an equal name, and a name has one member
  have hname : a.1 = b.1 := keyRank_injective (le_antisymm hab hba)
  have ha' : a ∈ canonMembers f ns := hperm.subset ((List.mem_insertionSort memberLe).mp ha)
  have hb' : b ∈ canonMembers f ns := (List.mem_insertionSort memberLe).mp hb
  exact List.inj_on_of_nodup_map (hkeys ▸ hnd) ha' hb' hname

theorem EquivMembers.names {R : N → N → Prop} (h : EquivMembers R ms ns) :
    ms.map Prod.fst = ns.map Prod.fst := by
  induction ms generalizing ns with
  | nil => cases h; rfl
  | cons m ms ih =>
    cases h with
    | cons h t => rw [List.map_cons, List.map_cons, ih t]

mutual

theorem canon_of_equiv : ∀ v w : Json N, Unique v → Equiv (fun x y => f x = f y) v w →
    canon f v = canon f w
  | .null, _, _, h => by cases h; rfl
  | .bool _, _, _, h => by cases h; rfl
  | .num _, _, _, h => by cases h with | num h => rw [canon, canon, h]
  | .str _, _, _, h => by cases h; rfl
  | .arr vs, _, hv, h => by
    cases h with
    | arr h => rw [canon, canon, canonItems_of_equiv vs _ hv h]
  | .obj ms, _, hv, h => by
    cases h with
    | obj h hp =>
      have hnd := (hp.map Prod.fst).nodup_iff.mp (h.names ▸ hv.1)
      rw [canon, canon, canonMembers_of_equiv ms _ hv.2 h, sort_canonMembers f hp hnd]

theorem canonItems_of_equiv : ∀ vs ws : List (Json N), UniqueItems vs →
    EquivItems (fun x y => f x = f y) vs ws → canonItems f vs = canonItems f ws
  | [], _, _, h => by cases h; rfl
  | v :: vs, _, hv, h => by
    cases h with
    | cons h t =>
      rw [canonItems, canonItems, canon_of_equiv v _ hv.1 h, canonItems_of_equiv vs _ hv.2 t]

theorem canonMembers_of_equiv : ∀ ms ns : List (GoString × Json N), UniqueMembers ms →
    EquivMembers (fun x y => f x = f y) ms ns → canonMembers f ms = canonMembers f ns
  | [], _, _, h => by cases h; rfl
  | (_, v) :: ms, _, hm, h => by
    cases h with
    | cons h t =>
      rw [canonMembers, canonMembers, canon_of_equiv v _ hm.1 h, canonMembers_of_equiv ms _ hm.2 t]

end

/-- Two member lists with one sorted form differ by a permutation of the second. -/
theorem exists_perm_of_sort
    (h : (canonMembers f ms).insertionSort memberLe = (canonMembers f ns).insertionSort memberLe) :
    ∃ ls, canonMembers f ms = canonMembers f ls ∧ ls.Perm ns := by
  have hperm : (canonMembers f ms).Perm (canonMembers f ns) :=
    (List.perm_insertionSort memberLe _).symm.trans
      (h ▸ List.perm_insertionSort memberLe (canonMembers f ns))
  have hself : List.Forall₂ (fun a (b : GoString × Json N) => a = (b.1, canon f b.2))
      (canonMembers f ns) ns := by
    rw [canonMembers_eq_map, List.forall₂_map_left_iff]
    exact List.forall₂_same.mpr fun _ _ => rfl
  obtain ⟨ls, hls, hp⟩ := List.perm_comp_forall₂ hperm hself
  have heq : List.Forall₂ Eq (canonMembers f ms) (ls.map fun b => (b.1, canon f b.2)) :=
    List.forall₂_map_right_iff.mpr hls
  rw [List.forall₂_eq_eq_eq, ← canonMembers_eq_map] at heq
  exact ⟨ls, heq, hp⟩

mutual

theorem equiv_of_canon : ∀ v w : Json N, canon f v = canon f w →
    Equiv (fun x y => f x = f y) v w
  | .null, w, h => by cases w <;> simp [canon] at h; exact .null
  | .bool b, w, h => by cases w <;> simp [canon] at h; exact h ▸ .bool b
  | .num _, w, h => by cases w <;> simp [canon] at h; exact .num h
  | .str s, w, h => by cases w <;> simp [canon] at h; exact h ▸ .str s
  | .arr vs, w, h => by
    cases w <;> simp [canon] at h
    exact .arr (equivItems_of_canon vs _ h)
  | .obj ms, w, h => by
    cases w <;> simp [canon] at h
    obtain ⟨ls, hls, hp⟩ := exists_perm_of_sort f h
    exact .obj (equivMembers_of_canon ms ls hls) hp

theorem equivItems_of_canon : ∀ vs ws : List (Json N), canonItems f vs = canonItems f ws →
    EquivItems (fun x y => f x = f y) vs ws
  | [], [], _ => .nil
  | [], _ :: _, h => by simp [canonItems] at h
  | _ :: _, [], h => by simp [canonItems] at h
  | v :: vs, w :: ws, h => by
    simp only [canonItems, List.cons.injEq] at h
    exact .cons (equiv_of_canon v w h.1) (equivItems_of_canon vs ws h.2)

theorem equivMembers_of_canon : ∀ ms ns : List (GoString × Json N),
    canonMembers f ms = canonMembers f ns → EquivMembers (fun x y => f x = f y) ms ns
  | [], [], _ => .nil
  | [], _ :: _, h => by simp [canonMembers] at h
  | _ :: _, [], h => by simp [canonMembers] at h
  | (k, v) :: ms, (l, w) :: ns, h => by
    simp only [canonMembers, List.cons.injEq, Prod.mk.injEq] at h
    obtain ⟨⟨rfl, hv⟩, hms⟩ := h
    exact .cons (equiv_of_canon v w hv) (equivMembers_of_canon ms ns hms)

end

/-- The canonical tree is a normal form for JSON equality. -/
theorem canon_eq_iff {v w : Json N} (hv : Unique v) :
    canon f v = canon f w ↔ Equiv (fun x y => f x = f y) v w :=
  ⟨equiv_of_canon f v w, canon_of_equiv f v w hv⟩

end Canon

/-! ## Numbers of the canonical tree -/

section Numbers

variable {N M : Type}

theorem numsMembers_iff :
    NumsMembers P ms ↔ ∀ m ∈ ms, Nums P m.2 := by
  induction ms with
  | nil => simp [NumsMembers]
  | cons m ms ih => simp [NumsMembers, ih]

mutual

theorem nums_canon (f : N → M) (h : ∀ n, P n → Q (f n)) :
    ∀ v : Json N, Nums P v → Nums Q (canon f v)
  | .null, _ => trivial
  | .bool _, _ => trivial
  | .num n, hn => h n hn
  | .str _, _ => trivial
  | .arr vs, hv => numsItems_canon f h vs hv
  | .obj ms, hm => by
    rw [canon, Nums, numsMembers_iff]
    intro m hmem
    exact numsMembers_iff.mp (numsMembers_canon f h ms hm) m
      ((List.mem_insertionSort memberLe).mp hmem)

theorem numsItems_canon (f : N → M) (h : ∀ n, P n → Q (f n)) :
    ∀ vs : List (Json N), NumsItems P vs → NumsItems Q (canonItems f vs)
  | [], _ => trivial
  | v :: vs, hv => ⟨nums_canon f h v hv.1, numsItems_canon f h vs hv.2⟩

theorem numsMembers_canon (f : N → M) (h : ∀ n, P n → Q (f n)) :
    ∀ ms : List (GoString × Json N), NumsMembers P ms → NumsMembers Q (canonMembers f ms)
  | [], _ => trivial
  | (_, v) :: ms, hm => ⟨nums_canon f h v hm.1, numsMembers_canon f h ms hm.2⟩

end

mutual

theorem nums_map (g : N → M) (h : ∀ n, P n → Q (g n)) :
    ∀ v : Json N, Nums P v → Nums Q (map g v)
  | .null, _ => trivial
  | .bool _, _ => trivial
  | .num n, hn => h n hn
  | .str _, _ => trivial
  | .arr vs, hv => numsItems_map g h vs hv
  | .obj ms, hm => numsMembers_map g h ms hm

theorem numsItems_map (g : N → M) (h : ∀ n, P n → Q (g n)) :
    ∀ vs : List (Json N), NumsItems P vs → NumsItems Q (mapItems g vs)
  | [], _ => trivial
  | v :: vs, hv => ⟨nums_map g h v hv.1, numsItems_map g h vs hv.2⟩

theorem numsMembers_map (g : N → M) (h : ∀ n, P n → Q (g n)) :
    ∀ ms : List (GoString × Json N), NumsMembers P ms → NumsMembers Q (mapMembers g ms)
  | [], _ => trivial
  | (_, v) :: ms, hm => ⟨nums_map g h v hm.1, numsMembers_map g h ms hm.2⟩

end

mutual

theorem map_injOn (g : N → M) (h : ∀ n m, P n → P m → g n = g m → n = m) :
    ∀ v w : Json N, Nums P v → Nums P w → map g v = map g w → v = w
  | .null, w, _, _, heq => by cases w <;> simp [map] at heq; rfl
  | .bool _, w, _, _, heq => by cases w <;> simp [map] at heq; rw [heq]
  | .num n, w, hn, hw, heq => by
    cases w <;> simp [map] at heq
    rw [h n _ hn hw heq]
  | .str _, w, _, _, heq => by cases w <;> simp [map] at heq; rw [heq]
  | .arr vs, w, hv, hw, heq => by
    cases w <;> simp [map] at heq
    rw [mapItems_injOn g h vs _ hv hw heq]
  | .obj ms, w, hm, hw, heq => by
    cases w <;> simp [map] at heq
    rw [mapMembers_injOn g h ms _ hm hw heq]

theorem mapItems_injOn (g : N → M) (h : ∀ n m, P n → P m → g n = g m → n = m) :
    ∀ vs ws : List (Json N), NumsItems P vs → NumsItems P ws → mapItems g vs = mapItems g ws →
      vs = ws
  | [], [], _, _, _ => rfl
  | [], _ :: _, _, _, heq => by simp [mapItems] at heq
  | _ :: _, [], _, _, heq => by simp [mapItems] at heq
  | v :: vs, w :: ws, hv, hw, heq => by
    simp only [mapItems, List.cons.injEq] at heq
    rw [map_injOn g h v w hv.1 hw.1 heq.1, mapItems_injOn g h vs ws hv.2 hw.2 heq.2]

theorem mapMembers_injOn (g : N → M) (h : ∀ n m, P n → P m → g n = g m → n = m) :
    ∀ ms ns : List (GoString × Json N), NumsMembers P ms → NumsMembers P ns →
      mapMembers g ms = mapMembers g ns → ms = ns
  | [], [], _, _, _ => rfl
  | [], _ :: _, _, _, heq => by simp [mapMembers] at heq
  | _ :: _, [], _, _, heq => by simp [mapMembers] at heq
  | (k, v) :: ms, (l, w) :: ns, hm, hn, heq => by
    simp only [mapMembers, List.cons.injEq, Prod.mk.injEq] at heq
    rw [heq.1.1, map_injOn g h v w hm.1 hn.1 heq.1.2, mapMembers_injOn g h ms ns hm.2 hn.2 heq.2]

end

end Numbers

/-! ## The transform -/

/-- The double a literal is read as. -/
def Num.double (n : Num) : Option ℚ := Double.round n.value

def literal (q : Option ℚ) : Num := (q.map numberText).getD ⟨false, [bZero], [], none⟩

/-- RFC 8785, from the tree of a text to the canonical text. -/
def transform (v : Json Num) : Option GoString :=
  if Unique v ∧ Nums (fun n : Num => n.double.isSome) v then
    some (text (map literal (canon Num.double v)))
  else none

/-- **The canonical text is equality of values with their numbers read as doubles.** -/
theorem transform_eq_iff {v w : Json Num} {s t : GoString} (hv : transform v = some s)
    (hw : transform w = some t) : s = t ↔ Equiv (fun x y : Num => x.double = y.double) v w := by
  unfold transform at hv hw
  split_ifs at hv hw with hcv hcw
  obtain rfl := Option.some.inj hv
  obtain rfl := Option.some.inj hw
  rw [← canon_eq_iff Num.double hcv.1]
  refine ⟨fun h => ?_, fun h => by rw [h]⟩
  -- every number of a canonical tree is a double
  have hdouble : ∀ u : Json Num, Nums (fun n : Num => n.double.isSome) u →
      Nums (fun o : Option ℚ => ∃ q, o = some q ∧ Double.IsDouble q) (canon Num.double u) := by
    intro u hu
    refine nums_canon Num.double (fun n hn => ?_) u hu
    obtain ⟨q, hq⟩ := Option.isSome_iff_exists.mp hn
    exact ⟨q, hq, Double.isDouble_of_round hq⟩
  have hwf : ∀ o : Option ℚ, (∃ q, o = some q ∧ Double.IsDouble q) → (literal o).WF := by
    rintro _ ⟨q, rfl, hq⟩
    exact numberText_wf hq
  have htree := text_injective (nums_map literal hwf _ (hdouble v hcv.2))
    (nums_map literal hwf _ (hdouble w hcw.2)) h
  refine map_injOn literal ?_ _ _ (hdouble v hcv.2) (hdouble w hcw.2) htree
  rintro _ _ ⟨q, rfl, hq⟩ ⟨r, rfl, hr⟩ heq
  exact congrArg some (numberText_injective hq hr heq)

end MiniCloud.Lib.Json
