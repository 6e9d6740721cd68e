import Mathlib.Data.List.AList

/-!
# Go maps

A Go map is an association list with pairwise distinct keys: Mathlib's `AList`
at a constant family. `get?` is the comma-ok read, `set` the assignment
`m[k] = v` and `delete` the builtin of the same name. A `range` loop is a fold
over `toList`; Go leaves its order open, so no result below depends on it.

Counting is the part Mathlib does not have. A store that keeps a counter next to
a map owes the equation "the counter is the number of entries satisfying `p`",
and `count_set_new`, `count_set_old` and `count_delete` are how each write moves
that number.
-/

namespace MiniCloud.Lib

/-- A Go map from `K` to `V`. -/
abbrev GoMap (K V : Type) := AList (fun _ : K => V)

namespace GoMap

variable {K V : Type} [DecidableEq K]

/-- `v, ok := m[k]`. -/
def get? (m : GoMap K V) (k : K) : Option V := AList.lookup k m

/-- `m[k] = v`. -/
def set (m : GoMap K V) (k : K) (v : V) : GoMap K V := AList.insert k v m

/-- `delete(m, k)`. -/
def delete (m : GoMap K V) (k : K) : GoMap K V := AList.erase k m

/-- `len(m)`. -/
def len (m : GoMap K V) : Nat := m.entries.length

/-- The entries in the order a `range` loop happens to visit them. -/
def toList (m : GoMap K V) : List (K × V) := m.entries.map fun e => (e.1, e.2)

/-- How many entries satisfy `p`. -/
def count (p : K → V → Bool) (m : GoMap K V) : Nat := m.entries.countP fun e => p e.1 e.2

/-- A `range` loop that changes the value behind each key. -/
def mapValues (f : V → V) (m : GoMap K V) : GoMap K V :=
  m.toList.foldl (fun acc e => acc.set e.1 (f e.2)) m

/-- Mathlib's instance for `AList` does not evaluate. -/
instance [DecidableEq V] : DecidableEq (GoMap K V) := fun m n =>
  decidable_of_iff (m.entries = n.entries) AList.ext_iff.symm

/-! ## Reads after writes -/

@[simp] theorem get?_empty (k : K) : (∅ : GoMap K V).get? k = none := rfl

@[simp] theorem get?_set_self (m : GoMap K V) (k : K) (v : V) : (m.set k v).get? k = some v :=
  AList.lookup_insert m

variable {k : K} {m : GoMap K V} {v : V}

theorem get?_set_ne (m : GoMap K V) {k' : K} (v : V) (h : k' ≠ k) :
    (m.set k v).get? k' = m.get? k' := AList.lookup_insert_ne h

theorem get?_set (m : GoMap K V) (k k' : K) (v : V) :
    (m.set k v).get? k' = if k' = k then some v else m.get? k' := by
  split
  · rename_i h; subst h; exact get?_set_self m k' v
  · rename_i h; exact get?_set_ne m v h

theorem set_set (m : GoMap K V) (k : K) (v w : V) : (m.set k v).set k w = m.set k w :=
  AList.insert_insert m

/-- An entry after a write is the written one, or an old one under another key. -/
theorem get?_set_cases {k' : K} {v' : V} (h : (m.set k v).get? k' = some v') :
    k' = k ∧ v = v' ∨ k' ≠ k ∧ m.get? k' = some v' := by
  rw [get?_set] at h
  split_ifs at h with hk
  · exact .inl ⟨hk, Option.some.inj h⟩
  · exact .inr ⟨hk, h⟩

/-- A write under an unused key keeps every entry. -/
theorem get?_set_new {k' : K} {v' : V} (hnew : m.get? k = none) (h : m.get? k' = some v') :
    (m.set k v).get? k' = some v' := by
  rw [get?_set_ne, h]
  rintro rfl
  cases hnew.symm.trans h

/-- What holds of every entry still does after a write that respects it. -/
theorem forall_set {P : K → V → Prop} (hm : ∀ k v, m.get? k = some v → P k v) {k : K} {v : V}
    (hv : P k v) : ∀ k' v', (m.set k v).get? k' = some v' → P k' v' := by
  intro k' v' h
  rcases get?_set_cases h with ⟨rfl, rfl⟩ | ⟨-, h⟩
  · exact hv
  · exact hm k' v' h

theorem forall_get?_set_none {l : List K} {k : K} {v : V} :
    (∀ x ∈ l, (m.set k v).get? x = none) ↔ k ∉ l ∧ ∀ x ∈ l, m.get? x = none := by
  constructor
  · intro h
    have hnew : k ∉ l := fun hk => by simpa using h k hk
    exact ⟨hnew, fun x hx => by
      rw [← h x hx, get?_set_ne m v (ne_of_mem_of_not_mem hx hnew)]⟩
  · rintro ⟨hnew, h⟩ x hx
    rw [get?_set_ne m v (ne_of_mem_of_not_mem hx hnew), h x hx]

@[simp] theorem get?_delete_self (m : GoMap K V) (k : K) : (m.delete k).get? k = none :=
  AList.lookup_erase k m

theorem get?_delete_ne (m : GoMap K V) {k' : K} (h : k' ≠ k) :
    (m.delete k).get? k' = m.get? k' := AList.lookup_erase_ne h

theorem get?_delete (m : GoMap K V) (k k' : K) :
    (m.delete k).get? k' = if k' = k then none else m.get? k' := by
  split
  · rename_i h; subst h; exact get?_delete_self m k'
  · rename_i h; exact get?_delete_ne m h

theorem get?_delete_some {k' : K} (h : (m.delete k).get? k' = some v) :
    k' ≠ k ∧ m.get? k' = some v := by
  rw [get?_delete] at h
  split_ifs at h with hk
  exact ⟨hk, h⟩

/-- An entry a `range` loop visits is an entry the map holds. -/
theorem mem_toList : (k, v) ∈ m.toList ↔ m.get? k = some v := by
  have h := AList.mem_lookup_iff (a := k) (b := v) (s := m)
  rw [Option.mem_def] at h
  refine Iff.trans ?_ h.symm
  simp only [toList, List.mem_map, Prod.mk.injEq]
  constructor
  · rintro ⟨⟨a, b⟩, hmem, rfl, rfl⟩; exact hmem
  · intro hmem; exact ⟨⟨k, v⟩, hmem, rfl, rfl⟩

omit [DecidableEq K] in
/-- A `range` loop visits each key once. -/
theorem toList_keys_nodup (m : GoMap K V) : (m.toList.map Prod.fst).Nodup := by
  have h : (m.toList.map Prod.fst) = m.keys := by
    simp [toList, AList.keys, List.keys, Function.comp_def]
  rw [h]; exact m.keys_nodup

theorem get?_eq_none : m.get? k = none ↔ k ∉ m := AList.lookup_eq_none

/-! ## Counting -/

omit [DecidableEq K] in
theorem len_eq_count (m : GoMap K V) : m.len = m.count fun _ _ => true := by
  simp [len, count]

section

variable (p : K → V → Bool)

/-- Assigning a fresh key adds one entry. -/
theorem count_set_new (v : V) (h : m.get? k = none) :
    (m.set k v).count p = m.count p + (p k v).toNat := by
  have he : (m.set k v).entries = ⟨k, v⟩ :: m.entries :=
    AList.entries_insert_of_notMem (get?_eq_none.mp h)
  rw [count, he, List.countP_cons, count]
  cases p k v <;> rfl

/-- Deleting a present key removes one entry. -/
theorem count_delete (h : m.get? k = some v) :
    (m.delete k).count p + (p k v).toNat = m.count p := by
  have hmem : (⟨k, v⟩ : Sigma fun _ : K => V) ∈ m.entries :=
    AList.mem_lookup_iff.mp (Option.mem_def.mpr h)
  have hkeys : k ∈ m.entries.keys := List.mem_keys_of_mem hmem
  obtain ⟨b, l₁, l₂, hl₁, hl, he⟩ := List.exists_of_kerase hkeys
  have hb : b = v := by
    have hbm : (⟨k, b⟩ : Sigma fun _ : K => V) ∈ m.entries := by rw [hl]; simp
    exact List.NodupKeys.eq_of_mk_mem m.nodupKeys hbm hmem
  subst hb
  have hd : (m.delete k).entries = l₁ ++ l₂ := he
  rw [count, hd, count, hl]
  simp only [List.countP_append, List.countP_cons]
  cases p k b
  · simp
  · simp; omega

/-- Overwriting a present key swaps the old value's share of the count for the new one's. -/
theorem count_set_old (w : V) (h : m.get? k = some v) :
    (m.set k w).count p + (p k v).toNat = m.count p + (p k w).toNat := by
  have hset : (m.set k w).entries = ⟨k, w⟩ :: (m.delete k).entries := AList.entries_insert
  have hdel := count_delete p h
  have hcons : (m.set k w).count p = (m.delete k).count p + (p k w).toNat := by
    rw [count, hset, List.countP_cons, count]
    cases p k w <;> rfl
  omega

end

theorem len_set_new (v : V) (h : m.get? k = none) :
    (m.set k v).len = m.len + 1 := by
  rw [len_eq_count, len_eq_count, count_set_new _ v h]; rfl

theorem len_set_old (w : V) (h : m.get? k = some v) :
    (m.set k w).len = m.len := by
  have := count_set_old (fun _ _ => true) w h
  rw [len_eq_count, len_eq_count]
  simpa using this

theorem len_delete (h : m.get? k = some v) :
    (m.delete k).len + 1 = m.len := by
  have := count_delete (fun _ _ => true) h
  rw [len_eq_count, len_eq_count]
  simpa using this

/-- An entry satisfying `p` makes the count positive. -/
theorem count_pos {p : K → V → Bool} (h : m.get? k = some v) (hp : p k v = true) :
    0 < m.count p := by
  have := count_delete p h
  rw [hp] at this
  simp only [Bool.toNat_true] at this
  omega

theorem len_set_le (m : GoMap K V) (k : K) (v : V) : (m.set k v).len ≤ m.len + 1 := by
  cases h : m.get? k with
  | none => rw [len_set_new v h]
  | some w => rw [len_set_old v h]; omega

theorem len_delete_le (m : GoMap K V) (k : K) : (m.delete k).len ≤ m.len := by
  cases h : m.get? k with
  | none =>
      have : m.delete k = m := by
        rw [get?_eq_none] at h
        exact AList.ext (List.kerase_of_notMem_keys h)
      rw [this]
  | some v => have := len_delete h; omega

/-- A map whose keys all stand in a list has no more entries than the list. -/
theorem len_le_of_mem {l : List K} (h : ∀ k v, m.get? k = some v → k ∈ l) :
    m.len ≤ l.length := by
  have hkeys : m.keys ⊆ l := by
    intro k hk
    obtain ⟨v, hv⟩ := Option.isSome_iff_exists.mp (AList.lookup_isSome.mpr hk)
    exact h k v hv
  have hle := (List.subperm_of_subset m.keys_nodup hkeys).length_le
  simpa [AList.keys, List.keys, len] using hle

/-- A map whose keys are all keys of another has no more entries. -/
theorem len_le_of_keys {W : Type} {m' : GoMap K W}
    (h : ∀ k v, m.get? k = some v → m'.get? k ≠ none) : m.len ≤ m'.len := by
  have hle := len_le_of_mem (l := m'.keys) fun k v hv =>
    not_not.mp (mt AList.lookup_eq_none.mpr (h k v hv))
  simpa [AList.keys, List.keys, len] using hle

/-! ## Loops -/

omit [DecidableEq K] in
/--
**The `range` rule.** A loop over distinct keys, each turn of which changes only what is seen at
its own key, changes every visited key once and no other.
-/
theorem foldl_view {σ β : Type} {f : σ → K × V → σ} {view : σ → K → β} {g : K × V → β → β}
    (hself : ∀ s e, view (f s e) e.1 = g e (view s e.1))
    (hother : ∀ s e k, k ≠ e.1 → view (f s e) k = view s k) :
    ∀ (es : List (K × V)) (s : σ), (es.map Prod.fst).Nodup →
      (∀ e ∈ es, view (es.foldl f s) e.1 = g e (view s e.1)) ∧
        ∀ k, k ∉ es.map Prod.fst → view (es.foldl f s) k = view s k
  | [], s, _ => ⟨by simp, fun _ _ => rfl⟩
  | e :: es, s, hnd => by
      rw [List.map_cons, List.nodup_cons] at hnd
      obtain ⟨hin, hout⟩ := foldl_view hself hother es (f s e) hnd.2
      refine ⟨fun e' he' => ?_, fun k hk => ?_⟩
      · rcases List.mem_cons.mp he' with rfl | he'
        · rw [List.foldl_cons, hout _ hnd.1, hself]
        · -- a later key is not the one this turn touched
          have hne : e'.1 ≠ e.1 := fun h => hnd.1 (h ▸ List.mem_map_of_mem he')
          rw [List.foldl_cons, hin e' he', hother s e _ hne]
      · rw [List.map_cons, List.mem_cons, not_or] at hk
        rw [List.foldl_cons, hout k hk.2, hother s e k hk.1]

/-- A loop that assigns once for each of some items with distinct keys. -/
theorem get?_foldl_set {α : Type} (key : α → K) (val : α → V) (k : K) :
    ∀ (l : List α) (m : GoMap K V), (l.map key).Nodup →
      (l.foldl (fun m a => m.set (key a) (val a)) m).get? k =
        ((l.find? fun a => key a = k).map val).or (m.get? k)
  | [], m, _ => rfl
  | a :: l, m, hnd => by
      rw [List.map_cons, List.nodup_cons] at hnd
      rw [List.foldl_cons, get?_foldl_set key val k l _ hnd.2, List.find?_cons]
      by_cases hk : key a = k
      · -- no later item has this key
        have hnone : l.find? (fun b => key b = k) = none := by
          rw [List.find?_eq_none]
          intro b hb hbk
          exact hnd.1 (by rw [hk, ← of_decide_eq_true hbk]; exact List.mem_map_of_mem hb)
        simp [hk, hnone]
      · simp [hk, get?_set_ne m (val a) (Ne.symm hk)]

/-- The rule for a loop over a whole map. -/
theorem range_view {σ β : Type} {f : σ → K × V → σ} {view : σ → K → β} {g : K × V → β → β}
    (hself : ∀ s e, view (f s e) e.1 = g e (view s e.1))
    (hother : ∀ s e k, k ≠ e.1 → view (f s e) k = view s k) (m : GoMap K V) (s : σ) (k : K) :
    view (m.toList.foldl f s) k =
      match m.get? k with
      | some v => g (k, v) (view s k)
      | none => view s k := by
  obtain ⟨hin, hout⟩ := foldl_view hself hother m.toList s m.toList_keys_nodup
  cases h : m.get? k with
  | some v => exact hin (k, v) (mem_toList.mpr h)
  | none =>
      refine hout k fun hk => ?_
      obtain ⟨⟨k', v⟩, hmem, rfl⟩ := List.mem_map.mp hk
      rw [mem_toList.mp hmem] at h
      cases h

theorem get?_mapValues (f : V → V) (m : GoMap K V) (k : K) :
    (m.mapValues f).get? k = (m.get? k).map f := by
  have h := @range_view K V _ (GoMap K V) (Option V) (fun acc e => acc.set e.1 (f e.2)) get?
    (fun e _ => some (f e.2)) (fun acc e => get?_set_self acc e.1 _)
    (fun acc e k hk => get?_set_ne acc _ hk) m m k
  rw [mapValues, h]
  cases m.get? k with
  | none | some => rfl

theorem len_mapValues (f : V → V) (m : GoMap K V) : (m.mapValues f).len = m.len := by
  refine le_antisymm (len_le_of_keys fun k v hv => ?_) (len_le_of_keys fun k v hv => ?_)
  · rw [get?_mapValues, Option.map_eq_some_iff] at hv
    obtain ⟨w, hw, -⟩ := hv
    simp [hw]
  · simp [get?_mapValues, hv]

end GoMap

end MiniCloud.Lib
