import MiniCloud.ControlPlane.Ledger

/-!
# What a ledger call can do

A key of the ledger is in one of three situations, its *slot*: unknown, recorded, or expired and
only remembered. `Completes` lists everything a completion can do, with the checks it passed on
the way; `collect_slot` says what garbage collection does, key by key. Nothing after this file
unfolds a ledger method.
-/

namespace MiniCloud.ControlPlane

open Lib Problem Digest Model

variable {l : Ledger} {c : Completion} {d : SHA256} {k : OperationKey} {r : Record}

/-! ## Slots -/

/-- What the ledger knows of one key. -/
inductive Slot where
  | absent
  | live (r : Record)
  | dead (t : Tombstone)

/-- Tombstones are looked at first, as every method does. -/
def Ledger.slot (l : Ledger) (k : OperationKey) : Slot :=
  match l.tombstones.get? k with
  | some t => .dead t
  | none =>
    match l.records.get? k with
    | some r => .live r
    | none => .absent

/-- One collection with cutoff `cutoff`, seen from one key. -/
def Slot.collect (config : LedgerConfig) (cutoff : Time) : Slot → Slot
  | .absent => .absent
  | .live r =>
    if (r.completedAt.add config.operationTTL).after cutoff then .live r
    -- a tombstone that the cutoff itself makes due goes in the same call
    else if (cutoff.add config.tombstoneTTL).after cutoff then .dead ⟨r.key, r.digest, cutoff⟩
    else .absent
  | .dead t => if (t.tombstonedAt.add config.tombstoneTTL).after cutoff then .dead t else .absent

/-! ## The invariant -/

/-- The configuration a ledger was built with. -/
def Ledger.config (l : Ledger) : LedgerConfig := ⟨l.maxOperations, l.operationTTL, l.tombstoneTTL⟩

/-- What holds of every ledger built with `config`. -/
structure LedgerInv (config : LedgerConfig) (l : Ledger) : Prop where
  built : l.config = config
  /-- A tombstone and a record never share a key. -/
  disjoint : ∀ k, l.tombstones.get? k = none ∨ l.records.get? k = none
  /-- The bound counts records and tombstones together. -/
  bounded : l.records.len + l.tombstones.len ≤ config.maxOperations
  /-- Records are filed under their own, valid key, with their outcome in order. -/
  records : ∀ k r, l.records.get? k = some r →
    r.key = k ∧ k.validate = .ok () ∧ cloneRecord r = r
  tombstones : ∀ k t, l.tombstones.get? k = some t → t.key = k ∧ k.validate = .ok ()

variable {config : LedgerConfig}

theorem LedgerInv.slot_live (h : LedgerInv config l) :
    l.slot k = .live r ↔ l.records.get? k = some r := by
  unfold Ledger.slot
  rcases h.disjoint k with hd | hd
  · rw [hd]
    cases l.records.get? k <;> simp
  · rw [hd]
    cases l.tombstones.get? k <;> simp

theorem slot_dead {t : Tombstone} : l.slot k = .dead t ↔ l.tombstones.get? k = some t := by
  unfold Ledger.slot
  cases l.tombstones.get? k with
  | some t' => simp
  | none => cases l.records.get? k <;> simp

theorem slot_absent :
    l.slot k = .absent ↔ l.tombstones.get? k = none ∧ l.records.get? k = none := by
  unfold Ledger.slot
  cases l.tombstones.get? k with
  | some t' => simp
  | none => cases l.records.get? k <;> simp

theorem ledgerInv_new (config : LedgerConfig) : LedgerInv config (newLedgerWithConfig config) where
  built := rfl
  disjoint := fun _ => .inl rfl
  bounded := Nat.zero_le _
  records := by intro k r h; cases h
  tombstones := by intro k t h; cases h

/-! ## Completions -/

section Complete

variable {τ : Type}

/-- Everything checked before the callback runs. -/
structure Insertable (l : Ledger) (c : Completion) (d : SHA256) : Prop where
  key : c.key.validate = .ok ()
  untombed : l.tombstones.get? c.key = none
  digest : c.request.digest = .ok d
  unrecorded : l.records.get? c.key = none
  valid : c.validateForInsert = .ok ()
  room : l.records.len + l.tombstones.len < l.maxOperations

/-- The ledger with the completion recorded. -/
def Ledger.insert (l : Ledger) (c : Completion) (d : SHA256) : Ledger :=
  { l with records := l.records.set c.key (c.record d) }

/-- **Everything a completion can do**: the answer, the ledger, and the caller's state. -/
inductive Completes (l : Ledger) (t : τ) (c : Completion) (apply : Option (Op GoError τ Unit)) :
    Except GoError CompletionResult × (Ledger × τ) → Prop
  | rejected (e : GoError) : Completes l t c apply (.error e, (l, t))
  | replayed (current : Record) (h : l.records.get? c.key = some current)
      (hd : c.request.digest = .ok current.digest) :
      Completes l t c apply (.ok (replayResult current), (l, t))
  | aborted (m : Op GoError τ Unit) (e : GoError) (t' : τ) (d : SHA256) (hi : Insertable l c d)
      (ha : apply = some m) (hm : Op.exec m t = (.error e, t')) :
      Completes l t c apply (.error e, (l, t'))
  | stored (t' : τ) (d : SHA256) (hi : Insertable l c d)
      (ha : (apply = none ∧ t' = t) ∨ ∃ m, apply = some m ∧ Op.exec m t = (.ok (), t')) :
      Completes l t c apply (.ok ⟨.applied, cloneRecord (c.record d)⟩, (l.insert c d, t'))

theorem exec_callback (apply : Option (Op GoError τ Unit)) (l : Ledger) (t : τ) :
    Op.exec (callback apply) (l, t) =
      match apply with
      | none => (.ok (), (l, t))
      | some m => ((Op.exec m t).1, (l, (Op.exec m t).2)) := by
  cases apply <;> rfl

theorem completes (l : Ledger) (t : τ) (c : Completion) (apply : Option (Op GoError τ Unit)) :
    Completes l t c apply (Op.exec (Ledger.completeWith c apply) (l, t)) := by
  unfold Ledger.completeWith
  rw [Op.exec_ofExcept_bind]
  -- the checks in source order; each failure leaves everything as it was
  cases hkey : c.key.validate with
  | error e => exact .rejected e
  | ok u =>
    simp only [Op.exec_get_bind, Op.exec_failIf_bind]
    split_ifs with htomb
    · exact .rejected _
    rw [Op.exec_ofExcept_bind]
    cases hdig : c.request.digest with
    | error e => exact .rejected e
    | ok d =>
      simp only
      cases hrec : l.records.get? c.key with
      | some current =>
        simp only [Op.exec_failIf_bind]
        split_ifs with hne
        · exact .rejected _
        · have heq : current.digest = d := by simpa using hne
          exact .replayed current hrec (heq ▸ hdig)
      | none =>
        simp only [Op.exec_ofExcept_bind]
        cases hval : c.validateForInsert with
        | error e => exact .rejected e
        | ok u =>
          simp only [Op.exec_failIf_bind]
          split_ifs with hfull
          · exact .rejected _
          · have hi : Insertable l c d :=
              ⟨hkey, by simpa using htomb, hdig, hrec, hval, by simpa using hfull⟩
            rw [Op.exec_bind, exec_callback]
            cases happ : apply with
            | none => exact .stored t d hi (.inl ⟨rfl, rfl⟩)
            | some m =>
              rcases hm : Op.exec m t with ⟨r, t'⟩
              cases r with
              | error e =>
                simp only [hm]
                exact .aborted m e t' d hi rfl hm
              | ok u =>
                simp only [hm]
                exact .stored t' d hi (.inr ⟨m, rfl, hm⟩)

section

variable (t : τ) (apply : Option (Op GoError τ Unit)) (hk : c.key.validate = .ok ())
include hk

/-- The answer while the key is a tombstone: the request is not even looked at. -/
theorem exec_complete_dead {x : Tombstone} (h : l.tombstones.get? c.key = some x) :
    Op.exec (Ledger.completeWith c apply) (l, t) = (.error expiredError, (l, t)) := by
  simp [Ledger.completeWith, hk, h]

/-- The answer while the key is recorded. -/
theorem exec_complete_live (ht : l.tombstones.get? c.key = none)
    (hr : l.records.get? c.key = some r) :
    Op.exec (Ledger.completeWith c apply) (l, t) =
      (match c.request.digest with
        | .error e => .error e
        | .ok d => if r.digest = d then .ok (replayResult r) else .error conflictError, (l, t)) := by
  unfold Ledger.completeWith
  simp only [Op.exec_ofExcept_bind, hk, Op.exec_get_bind, Op.exec_failIf_bind, ht, hr,
    Option.isSome_none, Bool.false_eq_true, if_false]
  cases hd : c.request.digest with
  | error e => rfl
  | ok d =>
    by_cases heq : r.digest = d
    · simp [heq]
    · simp [heq]

end

/-- A completion that passes the checks is stored. -/
theorem exec_complete_absent (t : τ) (hi : Insertable l c d) :
    Op.exec (Ledger.completeWith c none) (l, t) =
      (.ok ⟨.applied, cloneRecord (c.record d)⟩, (l.insert c d, t)) := by
  have hfull : ¬ l.maxOperations ≤ l.records.len + l.tombstones.len := not_le.mpr hi.room
  unfold Ledger.completeWith
  simp only [Op.exec_ofExcept_bind, hi.key, Op.exec_get_bind, Op.exec_failIf_bind, hi.untombed,
    hi.digest, hi.unrecorded, hi.valid, hfull, Option.isSome_none, Bool.false_eq_true, if_false,
    decide_false]
  rfl

theorem Ledger.insert_slot (hi : Insertable l c d) (k : OperationKey) :
    (l.insert c d).slot k = if k = c.key then .live (c.record d) else l.slot k := by
  unfold Ledger.slot Ledger.insert
  by_cases hk : k = c.key
  · subst hk
    simp [hi.untombed]
  · simp only [GoMap.get?_set_ne l.records _ hk, hk, if_false]

theorem cloneRecord_record (c : Completion) (d : SHA256) :
    cloneRecord (c.record d) = c.record d := by
  rw [cloneRecord, Completion.record, cloneOutcome, cloneOutcome, sortFunc_sortFunc]

theorem ledgerInv_insert (h : LedgerInv config l) (hi : Insertable l c d) :
    LedgerInv config (l.insert c d) where
  built := h.built
  disjoint := by
    intro k
    by_cases hk : k = c.key
    · exact .inl (hk ▸ hi.untombed)
    · simpa [Ledger.insert, GoMap.get?_set_ne l.records _ hk] using h.disjoint k
  bounded := by
    have hlen : (l.insert c d).records.len = l.records.len + 1 :=
      GoMap.len_set_new _ hi.unrecorded
    have hroom := hi.room
    have hmax : l.maxOperations = config.maxOperations := congrArg (·.maxOperations) h.built
    show (l.insert c d).records.len + l.tombstones.len ≤ config.maxOperations
    omega
  records := by
    intro k r hr
    have hr' : (if k = c.key then some (c.record d) else l.records.get? k) = some r := by
      rw [← GoMap.get?_set]
      exact hr
    split_ifs at hr' with hk
    · obtain rfl := Option.some.inj hr'
      exact ⟨hk.symm, hk ▸ hi.key, cloneRecord_record c d⟩
    · exact h.records k r hr'
  tombstones := h.tombstones

end Complete

/-! ## Lookup -/

/-- A lookup reads the slot of a valid key. -/
theorem exec_lookup (l : Ledger) (k : OperationKey) :
    Op.exec (Ledger.lookup k) l =
      (match k.validate with
        | .error e => .error e
        | .ok () =>
          match l.slot k with
          | .dead _ => .error expiredError
          | .live r => .ok (cloneRecord r)
          | .absent => .error notFoundError, l) := by
  unfold Ledger.lookup Ledger.slot
  rw [Op.exec_ofExcept_bind]
  cases k.validate with
  | error e => rfl
  | ok u =>
    simp only [Op.exec_get_bind, Op.exec_failIf_bind, Op.exec_orFail_bind, Op.exec_pure]
    cases l.tombstones.get? k with
    | some t => rfl
    | none => cases l.records.get? k <;> rfl

/-! ## Collection -/

/-- A slot as the two map entries it stands for. -/
def Slot.cell : Slot → Option Record × Option Tombstone
  | .absent => (none, none)
  | .live r => (some r, none)
  | .dead t => (none, some t)

theorem Slot.cell_disjoint (s : Slot) : s.cell.2 = none ∨ s.cell.1 = none := by
  cases s <;> simp [Slot.cell]

theorem Slot.cell_live {s : Slot} : s.cell.1 = some r ↔ s = .live r := by
  cases s <;> simp [Slot.cell]

theorem Slot.cell_dead {s : Slot} {t : Tombstone} : s.cell.2 = some t ↔ s = .dead t := by
  cases s <;> simp [Slot.cell]

/-- What the loops of a collection read and write at one key. -/
def Ledger.cell (s : GCResult × Ledger) (k : OperationKey) : Option Record × Option Tombstone :=
  (s.2.records.get? k, s.2.tombstones.get? k)

def expireCell (ttl : Duration) (cutoff : Time) (e : OperationKey × Record)
    (v : Option Record × Option Tombstone) : Option Record × Option Tombstone :=
  if (e.2.completedAt.add ttl).after cutoff then v
  else (none, some ⟨e.2.key, e.2.digest, cutoff⟩)

def forgetCell (ttl : Duration) (cutoff : Time) (e : OperationKey × Tombstone)
    (v : Option Record × Option Tombstone) : Option Record × Option Tombstone :=
  if (e.2.tombstonedAt.add ttl).after cutoff then v else (v.1, none)

section

variable (ttl : Duration) (cutoff : Time) (s : GCResult × Ledger)

theorem expireOne_self (e : OperationKey × Record) :
    Ledger.cell (Ledger.expireOne ttl cutoff s e) e.1 =
      expireCell ttl cutoff e (Ledger.cell s e.1) := by
  unfold Ledger.expireOne expireCell
  split_ifs
  · rfl
  · simp [Ledger.cell]

theorem expireOne_other (e : OperationKey × Record) (k : OperationKey) (hk : k ≠ e.1) :
    Ledger.cell (Ledger.expireOne ttl cutoff s e) k = Ledger.cell s k := by
  unfold Ledger.expireOne
  split_ifs
  · rfl
  · simp only [Ledger.cell, GoMap.get?_delete_ne _ hk, GoMap.get?_set_ne _ _ hk]

theorem forgetOne_self (e : OperationKey × Tombstone) :
    Ledger.cell (Ledger.forgetOne ttl cutoff s e) e.1 =
      forgetCell ttl cutoff e (Ledger.cell s e.1) := by
  unfold Ledger.forgetOne forgetCell
  split_ifs
  · rfl
  · simp [Ledger.cell]

theorem forgetOne_other (e : OperationKey × Tombstone) (k : OperationKey) (hk : k ≠ e.1) :
    Ledger.cell (Ledger.forgetOne ttl cutoff s e) k = Ledger.cell s k := by
  unfold Ledger.forgetOne
  split_ifs
  · rfl
  · simp only [Ledger.cell, GoMap.get?_delete_ne _ hk]

end

/-- The ledger between the two loops. -/
def Ledger.expire (cutoff : Time) (l : Ledger) : GCResult × Ledger :=
  l.records.toList.foldl (Ledger.expireOne l.operationTTL cutoff) (⟨0, 0⟩, l)

theorem collect_eq (cutoff : Time) (l : Ledger) : l.collect cutoff =
    (l.expire cutoff).2.tombstones.toList.foldl (Ledger.forgetOne l.tombstoneTTL cutoff)
      (l.expire cutoff) := rfl

theorem expire_cell (cutoff : Time) (l : Ledger) (k : OperationKey) :
    Ledger.cell (l.expire cutoff) k =
      match l.records.get? k with
      | some r => expireCell l.operationTTL cutoff (k, r) (some r, l.tombstones.get? k)
      | none => (none, l.tombstones.get? k) := by
  have h := GoMap.range_view (expireOne_self l.operationTTL cutoff)
    (expireOne_other l.operationTTL cutoff) l.records (⟨0, 0⟩, l) k
  rw [Ledger.expire, h]
  cases hr : l.records.get? k <;> simp [Ledger.cell, hr]

theorem collect_cell (cutoff : Time) (l : Ledger) (k : OperationKey) :
    Ledger.cell (l.collect cutoff) k =
      match (Ledger.cell (l.expire cutoff) k).2 with
      | some t => forgetCell l.tombstoneTTL cutoff (k, t) (Ledger.cell (l.expire cutoff) k)
      | none => Ledger.cell (l.expire cutoff) k := by
  have h := GoMap.range_view (forgetOne_self l.tombstoneTTL cutoff)
    (forgetOne_other l.tombstoneTTL cutoff) (l.expire cutoff).2.tombstones (l.expire cutoff) k
  rw [collect_eq, h]
  cases ht : (l.expire cutoff).2.tombstones.get? k <;> simp [Ledger.cell, ht]

section

variable (h : LedgerInv config l) (cutoff : Time) (k : OperationKey)
include h

/-- The two loops seen from one key: the second also visits the tombstone the first has made. -/
theorem collect_pair :
    Ledger.cell (l.collect cutoff) k = ((l.slot k).collect config cutoff).cell := by
  have hop : l.operationTTL = config.operationTTL := congrArg (·.operationTTL) h.built
  have htomb : l.tombstoneTTL = config.tombstoneTTL := congrArg (·.tombstoneTTL) h.built
  rw [collect_cell, expire_cell, hop, htomb]
  cases ht : l.tombstones.get? k with
  | some t =>
    have hr : l.records.get? k = none := by
      rcases h.disjoint k with hd | hd
      · rw [hd] at ht; cases ht
      · exact hd
    have hslot : l.slot k = .dead t := slot_dead.mpr ht
    simp only [hr, hslot, Slot.collect, forgetCell]
    split_ifs <;> rfl
  | none =>
    cases hr : l.records.get? k with
    | none =>
      have hslot : l.slot k = .absent := slot_absent.mpr ⟨ht, hr⟩
      simp only [hslot, Slot.collect, Slot.cell]
    | some r =>
      have hslot : l.slot k = .live r := h.slot_live.mpr hr
      simp only [hslot, Slot.collect, expireCell]
      split_ifs with hdue hkept
      · rfl
      · simp only [forgetCell, hkept, if_true, Slot.cell]
      · simp only [forgetCell, hkept, Bool.false_eq_true, if_false, Slot.cell]

/-- **A collection moves every key by `Slot.collect`.** -/
theorem collect_slot :
    (l.collect cutoff).2.slot k = (l.slot k).collect config cutoff := by
  have hpair := collect_pair h cutoff k
  have hr : (l.collect cutoff).2.records.get? k = _ := congrArg Prod.fst hpair
  have ht : (l.collect cutoff).2.tombstones.get? k = _ := congrArg Prod.snd hpair
  rw [Ledger.slot, hr, ht]
  cases (l.slot k).collect config cutoff <;> rfl

end

/-! ## Collection keeps the invariant -/

def Ledger.size (s : GCResult × Ledger) : Nat := s.2.records.len + s.2.tombstones.len

/-- The first loop turns a record into a tombstone, so it never grows the ledger. -/
theorem expire_size (ttl : Duration) (cutoff : Time) :
    ∀ (es : List (OperationKey × Record)) (s : GCResult × Ledger), (es.map Prod.fst).Nodup →
      (∀ e ∈ es, s.2.records.get? e.1 = some e.2) →
      Ledger.size (es.foldl (Ledger.expireOne ttl cutoff) s) ≤ Ledger.size s
  | [], _, _, _ => Nat.le_refl _
  | e :: es, s, hnd, hmem => by
    rw [List.map_cons, List.nodup_cons] at hnd
    have hrest : ∀ e' ∈ es, (Ledger.expireOne ttl cutoff s e).2.records.get? e'.1 = some e'.2 := by
      intro e' he'
      have hne : e'.1 ≠ e.1 := fun heq => hnd.1 (heq ▸ List.mem_map_of_mem he')
      have := congrArg Prod.fst (expireOne_other ttl cutoff s e e'.1 hne)
      exact this.trans (hmem e' (List.mem_cons_of_mem _ he'))
    refine Nat.le_trans (expire_size ttl cutoff es _ hnd.2 hrest) ?_
    unfold Ledger.expireOne
    split_ifs
    · exact Nat.le_refl _
    · have hdel := GoMap.len_delete (hmem e List.mem_cons_self)
      have hset := GoMap.len_set_le s.2.tombstones e.1 ⟨e.2.key, e.2.digest, cutoff⟩
      simp only [Ledger.size]
      omega

theorem forget_size (ttl : Duration) (cutoff : Time) :
    ∀ (es : List (OperationKey × Tombstone)) (s : GCResult × Ledger),
      Ledger.size (es.foldl (Ledger.forgetOne ttl cutoff) s) ≤ Ledger.size s
  | [], _ => Nat.le_refl _
  | e :: es, s => by
    refine Nat.le_trans (forget_size ttl cutoff es _) ?_
    unfold Ledger.forgetOne
    split_ifs
    · exact Nat.le_refl _
    · have hdel := GoMap.len_delete_le s.2.tombstones e.1
      simp only [Ledger.size]
      omega

theorem collect_size (cutoff : Time) (l : Ledger) :
    Ledger.size (l.collect cutoff) ≤ l.records.len + l.tombstones.len := by
  rw [collect_eq]
  refine Nat.le_trans (forget_size _ _ _ _) ?_
  exact expire_size _ _ _ _ l.records.toList_keys_nodup fun e he => GoMap.mem_toList.mp he

theorem collect_config (cutoff : Time) (l : Ledger) : (l.collect cutoff).2.config = l.config := by
  have hexp : (l.expire cutoff).2.config = l.config := by
    unfold Ledger.expire
    refine List.foldlRecOn (motive := fun s : GCResult × Ledger => s.2.config = l.config) _ _ rfl ?_
    intro s hs e _
    unfold Ledger.expireOne
    split_ifs <;> exact hs
  rw [collect_eq]
  refine List.foldlRecOn (motive := fun s : GCResult × Ledger => s.2.config = l.config) _ _ hexp ?_
  intro s hs e _
  unfold Ledger.forgetOne
  split_ifs <;> exact hs

theorem ledgerInv_collect (h : LedgerInv config l) (cutoff : Time) :
    LedgerInv config (l.collect cutoff).2 := by
  have hr : ∀ k, (l.collect cutoff).2.records.get? k = ((l.slot k).collect config cutoff).cell.1 :=
    fun k => congrArg Prod.fst (collect_pair h cutoff k)
  have ht : ∀ k, (l.collect cutoff).2.tombstones.get? k =
      ((l.slot k).collect config cutoff).cell.2 :=
    fun k => congrArg Prod.snd (collect_pair h cutoff k)
  refine ⟨?_, fun k => ?_, ?_, fun k r hrec => ?_, fun k t htomb => ?_⟩
  · rw [collect_config]
    exact h.built
  · rw [hr, ht]
    exact Slot.cell_disjoint _
  · exact Nat.le_trans (collect_size cutoff l) h.bounded
  · -- a record that is still there was there before
    rw [hr, Slot.cell_live] at hrec
    cases hs : l.slot k with
    | absent => simp [hs, Slot.collect] at hrec
    | dead t => simp only [hs, Slot.collect] at hrec; split_ifs at hrec
    | live r' =>
      simp only [hs, Slot.collect] at hrec
      split_ifs at hrec
      obtain rfl := Slot.live.inj hrec
      exact h.records k r' (h.slot_live.mp hs)
  · -- a tombstone was there before, or takes its key from the record it replaces
    rw [ht, Slot.cell_dead] at htomb
    cases hs : l.slot k with
    | absent => simp [hs, Slot.collect] at htomb
    | dead t' =>
      simp only [hs, Slot.collect] at htomb
      split_ifs at htomb
      obtain rfl := Slot.dead.inj htomb
      exact h.tombstones k t' (slot_dead.mp hs)
    | live r =>
      simp only [hs, Slot.collect] at htomb
      split_ifs at htomb
      obtain rfl := Slot.dead.inj htomb
      obtain ⟨hkey, hval, -⟩ := h.records k r (h.slot_live.mp hs)
      exact ⟨hkey, hval⟩

end MiniCloud.ControlPlane
