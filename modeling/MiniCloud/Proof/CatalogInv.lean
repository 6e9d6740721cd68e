import MiniCloud.Proof.Commit

/-!
# The catalog's representation

The four maps of the catalog are two tables and two indexes into them. `CatalogInv` says so. The
writes come in three shapes: a new Function with its Trigger, a Function replaced under its own
id and name, and a Trigger replaced under its own id and Function; each keeps the indexes exact.
-/

namespace MiniCloud.ControlPlane

open Lib Problem Digest Model

structure CatalogInv (c : Catalog) : Prop where
  /-- Functions are valid and filed under their own id. -/
  functions : ∀ k f, c.functionsByID.get? k = some f → f.id = k ∧ f.validate = .ok ()
  /-- The name index is the inverse of the name field. -/
  names : ∀ n k, c.functionIDByName.get? n = some k ↔
    ∃ f, c.functionsByID.get? k = some f ∧ f.name = n
  /-- Every Function has an entry in the Trigger index, and nothing else has. -/
  indexed : ∀ k, (c.triggerIDByFunc.get? k).isSome ↔ (c.functionsByID.get? k).isSome
  /-- The Trigger index points at a Trigger of that Function. -/
  linked : ∀ k tid, c.triggerIDByFunc.get? k = some tid →
    ∃ t, c.triggersByID.get? tid = some t ∧ t.functionID = k
  /-- Triggers are valid, filed under their own id, and the index points back at them. -/
  triggers : ∀ tid t, c.triggersByID.get? tid = some t →
    t.id = tid ∧ t.validate = .ok () ∧ c.triggerIDByFunc.get? t.functionID = some tid
  bounded : c.functionsByID.len ≤ defaultMaxFunctions

theorem catalogInv_new : CatalogInv newCatalog where
  functions := by intro k f h; cases h
  names := by
    intro n k
    constructor
    · intro h; cases h
    · rintro ⟨f, h, -⟩; cases h
  indexed := fun _ => Iff.rfl
  linked := by intro k tid h; cases h
  triggers := by intro tid t h; cases h
  bounded := Nat.zero_le _

/-- What the creation command guarantees of the new pair. -/
structure NewFunction (function : Function) (trigger : HTTPTrigger) : Prop where
  validFunction : function.validate = .ok ()
  validTrigger : trigger.validate = .ok ()
  active : function.lifecycle = .active
  unrouted : function.activeRouteRevision = 0
  revisions : function.resourceRevision = 1 ∧ trigger.resourceRevision = 1
  owner : trigger.functionID = function.id

theorem validateCreateFunction_ok {command : CreateFunctionCommand}
    (h : validateCreateFunction command = .ok ()) :
    NewFunction command.function command.trigger := by
  simp only [validateCreateFunction, seq_ok, checks_ok] at h
  obtain ⟨-, hf, hfunction, ht, htrigger⟩ := h
  simp at hfunction htrigger
  exact ⟨hf, ht, hfunction.1, hfunction.2.1, ⟨hfunction.2.2.2, htrigger.2.1.1.2⟩, htrigger.1.1⟩

variable {c : Catalog} {k : GoString}

theorem catalogInv_addFunction (h : CatalogInv c) {command : CreateFunctionCommand}
    (hc : CreatesFunction c command) :
    CatalogInv (c.addFunction command.function command.trigger) := by
  have hnew := validateCreateFunction_ok hc.valid
  refine ⟨?_, ?_, ?_, ?_, ?_, ?_⟩
  · exact GoMap.forall_set h.functions ⟨rfl, hnew.validFunction⟩
  · intro n k
    simp only [Catalog.addFunction, GoMap.get?_set]
    by_cases hk : k = command.function.id
    · subst hk
      -- the new id stands under the new name and under no other
      have hold : c.functionIDByName.get? n ≠ some command.function.id := by
        intro hn
        obtain ⟨f, hf, -⟩ := (h.names _ _).mp hn
        cases hc.newID.symm.trans hf
      by_cases hn : n = command.function.name
      · simp [hn]
      · simp [hn, hold, Ne.symm hn]
    · by_cases hn : n = command.function.name
      · subst hn
        have hno : ¬ ∃ f, c.functionsByID.get? k = some f ∧ f.name = command.function.name := by
          rw [← h.names, hc.newName]
          simp
        simp only [if_true, if_neg hk, Option.some.injEq, Ne.symm hk, false_iff]
        exact hno
      · rw [if_neg hn, if_neg hk]
        exact h.names n k
  · intro k
    simp only [Catalog.addFunction, GoMap.get?_set]
    by_cases hk : k = command.function.id
    · simp [hk]
    · rw [if_neg hk, if_neg hk]
      exact h.indexed k
  · intro k tid htid
    rcases GoMap.get?_set_cases htid with ⟨hk, rfl⟩ | ⟨-, htid⟩
    · exact ⟨command.trigger, GoMap.get?_set_self _ _ _, hnew.owner.trans hk.symm⟩
    · obtain ⟨t, ht, hown⟩ := h.linked k tid htid
      exact ⟨t, GoMap.get?_set_new hc.newTrigger ht, hown⟩
  · intro tid t ht
    rcases GoMap.get?_set_cases ht with ⟨rfl, rfl⟩ | ⟨-, ht⟩
    · refine ⟨rfl, hnew.validTrigger, ?_⟩
      rw [hnew.owner]
      exact GoMap.get?_set_self _ _ _
    · obtain ⟨hid, hval, hback⟩ := h.triggers tid t ht
      exact ⟨hid, hval, GoMap.get?_set_new hc.untriggered hback⟩
  · have hlen := GoMap.len_set_new command.function hc.newID
    have hroom := hc.room
    show (c.functionsByID.set command.function.id command.function).len ≤ _
    omega

/-- Replacing a Function under its own id and name. -/
theorem catalogInv_putFunction (h : CatalogInv c) {f g : Function}
    (hf : c.functionsByID.get? k = some f) (hid : g.id = f.id) (hname : g.name = f.name)
    (hv : g.validate = .ok ()) : CatalogInv (c.putFunction g) := by
  have hk : g.id = k := hid.trans (h.functions k f hf).1
  refine ⟨?_, ?_, ?_, h.linked, h.triggers, ?_⟩
  · exact GoMap.forall_set h.functions ⟨rfl, hv⟩
  · intro n k'
    rw [Catalog.putFunction, h.names, hk, GoMap.get?_set]
    split_ifs with hk'
    · subst hk'
      simp [hf, hname]
    · rfl
  · intro k'
    rw [Catalog.putFunction, h.indexed, hk, GoMap.get?_set]
    split_ifs with hk'
    · subst hk'
      simp [hf]
    · rfl
  · have hlen := GoMap.len_set_old g hf
    have hb := h.bounded
    show (c.functionsByID.set g.id g).len ≤ _
    rw [hk]
    omega

theorem catalogInv_putTrigger (h : CatalogInv c) {tid : GoString} {t u : HTTPTrigger}
    (ht : c.triggersByID.get? tid = some t) (hid : u.id = t.id)
    (hown : u.functionID = t.functionID) (hv : u.validate = .ok ()) :
    CatalogInv (c.putTrigger tid u) := by
  refine ⟨h.functions, h.names, h.indexed, ?_, ?_, h.bounded⟩
  · intro k tid' htid
    obtain ⟨t', ht', hfun⟩ := h.linked k tid' htid
    by_cases heq : tid' = tid
    · subst heq
      cases ht.symm.trans ht'
      exact ⟨u, GoMap.get?_set_self _ _ _, hown.trans hfun⟩
    · exact ⟨t', by rw [Catalog.putTrigger, GoMap.get?_set_ne _ _ heq, ht'], hfun⟩
  · obtain ⟨htid, -, hback⟩ := h.triggers tid t ht
    exact GoMap.forall_set h.triggers ⟨hid.trans htid, hv, by rw [hown, hback]⟩

theorem catalogInv_step {s s' : Stores} {command : Command} {reply : Reply}
    (hc : Commit s command reply s') (h : CatalogInv s.catalog) : CatalogInv s'.catalog := by
  cases hc with
  | functionCreated command hc => exact catalogInv_addFunction h hc
  | lifecycleSet command f hc hne hv => exact catalogInv_putFunction h hc.found rfl rfl hv
  | tokenRotated command tid t hc => exact catalogInv_putTrigger h hc.found rfl rfl hc.accepted
  | routePublished command f hc => exact catalogInv_putFunction h hc.found rfl rfl hc.accepted
  | _ => exact h

theorem catalogInv_reachable {s : Stores} (h : s.Reachable) : CatalogInv s.catalog :=
  Stores.invariant (P := fun s => CatalogInv s.catalog) catalogInv_new
    (fun _ _ _ _ _ ih hc => catalogInv_step hc ih) h

/-! ## Reads -/

/-- Both reads find a stored Function, with the one Trigger it has. -/
theorem CatalogInv.get (h : CatalogInv c) {f : Function} (hf : c.functionsByID.get? k = some f) :
    ∃ t, c.getFunction k = .ok (f, t) ∧ c.getFunctionByName f.name = .ok (f, t) := by
  obtain ⟨tid, htid⟩ := Option.isSome_iff_exists.mp ((h.indexed k).mpr (by rw [hf]; rfl))
  obtain ⟨t, ht, -⟩ := h.linked k tid htid
  obtain ⟨rfl, hval⟩ := h.functions k f hf
  have hpattern : identifierPattern f.id = true := (Function.validate_metadata hval).id
  refine ⟨t, ?_, ?_⟩
  · simp only [Catalog.getFunction, hpattern, hf, htid, Option.getD_some, ht]
    rfl
  · simp only [Catalog.getFunctionByName, (h.names f.name f.id).mpr ⟨f, hf, rfl⟩, hf, htid,
      Option.getD_some, ht]

/-- A name and an id that belong to one Function read the same pair. -/
theorem CatalogInv.get_iff (h : CatalogInv c) (name id : GoString) (p : Function × HTTPTrigger) :
    (c.getFunctionByName name = .ok p ∧ p.1.id = id) ↔
      (c.getFunction id = .ok p ∧ p.1.name = name) := by
  constructor
  · rintro ⟨hname, rfl⟩
    rw [Catalog.getFunctionByName] at hname
    cases hk : c.functionIDByName.get? name with
    | none =>
      rw [hk] at hname
      cases hname
    | some k =>
      obtain ⟨f, hf, hfn⟩ := (h.names name k).mp hk
      obtain ⟨t, hget, hbyName⟩ := h.get hf
      rw [hk] at hname
      simp only [Catalog.getFunctionByName, hfn, hk] at hbyName
      obtain rfl : p = (f, t) := Except.ok.inj (hname.symm.trans hbyName)
      rw [(h.functions k f hf).1]
      exact ⟨hget, hfn⟩
  · rintro ⟨hget, rfl⟩
    have hf := (getFunction_ok hget).2.1
    obtain ⟨t, hget', hbyName⟩ := h.get hf
    have hp : p = (p.1, t) := Except.ok.inj (hget.symm.trans hget')
    exact ⟨hbyName.trans (by rw [← hp]), (h.functions id p.1 hf).1⟩

/-- A Function has one Trigger. -/
theorem CatalogInv.trigger_unique (h : CatalogInv c) (hk : (c.functionsByID.get? k).isSome) :
    ∃! tid, ∃ t, c.triggersByID.get? tid = some t ∧ t.functionID = k := by
  obtain ⟨tid, htid⟩ := Option.isSome_iff_exists.mp ((h.indexed k).mpr hk)
  refine ⟨tid, h.linked k tid htid, ?_⟩
  rintro tid' ⟨t, ht, rfl⟩
  have hback := (h.triggers tid' t ht).2.2
  rw [htid] at hback
  exact (Option.some.inj hback).symm

/--
**The catalog's maps stay consistent.** After every sequence of commands of all the stores: the
name index is the inverse of the name field; the Trigger index is a bijection between Function ids
and Trigger ids that agrees with the Triggers' own Function ids, so every Function has exactly one
Trigger; the bound holds; every stored value passes its own validation, and a token Trigger has a
verifier; reading by id and reading by name agree; and a command that fails changes none of the
four maps.
-/
theorem catalog_representation (commands : List Command) :
    let s := storesMachine.run newStores commands
    let c := s.catalog
    (∀ n k, c.functionIDByName.get? n = some k ↔
      ∃ f, c.functionsByID.get? k = some f ∧ f.name = n) ∧
    (∀ k, (∃ tid, c.triggerIDByFunc.get? k = some tid) ↔ (c.functionsByID.get? k).isSome) ∧
    (∀ tid, (∃ k, c.triggerIDByFunc.get? k = some tid) ↔ (c.triggersByID.get? tid).isSome) ∧
    (∀ k k' tid, c.triggerIDByFunc.get? k = some tid → c.triggerIDByFunc.get? k' = some tid →
      k = k') ∧
    (∀ k tid, c.triggerIDByFunc.get? k = some tid →
      ∃ t, c.triggersByID.get? tid = some t ∧ t.functionID = k) ∧
    (∀ k, (c.functionsByID.get? k).isSome →
      ∃! tid, ∃ t, c.triggersByID.get? tid = some t ∧ t.functionID = k) ∧
    c.functionsByID.len ≤ defaultMaxFunctions ∧
    (∀ k f, c.functionsByID.get? k = some f → f.id = k ∧ f.validate = .ok ()) ∧
    (∀ tid t, c.triggersByID.get? tid = some t → t.id = tid ∧ t.validate = .ok () ∧
      (t.authPolicy = .token → t.tokenVerifierDigest.isSome)) ∧
    (∀ k f, c.functionsByID.get? k = some f →
      ∃ t, c.getFunction k = .ok (f, t) ∧ c.getFunctionByName f.name = .ok (f, t)) ∧
    (∀ name id p, (c.getFunctionByName name = .ok p ∧ p.1.id = id) ↔
      (c.getFunction id = .ok p ∧ p.1.name = name)) ∧
    ∀ command e, (storesMachine.step s command).1 = .error e →
      (storesMachine.step s command).2.catalog = c := by
  intro s c
  have h : CatalogInv c := catalogInv_reachable (Machine.Reachable.init.run commands)
  refine ⟨h.names, ?_, ?_, ?_, h.linked, fun k hk => h.trigger_unique hk, h.bounded, h.functions,
    ?_, fun k f hf => h.get hf, h.get_iff, ?_⟩
  · intro k
    rw [← Option.isSome_iff_exists]
    exact h.indexed k
  · intro tid
    constructor
    · rintro ⟨k, hk⟩
      obtain ⟨t, ht, -⟩ := h.linked k tid hk
      rw [ht]
      rfl
    · intro htid
      obtain ⟨t, ht⟩ := Option.isSome_iff_exists.mp htid
      exact ⟨t.functionID, (h.triggers tid t ht).2.2⟩
  · intro k k' tid hk hk'
    obtain ⟨t, ht, rfl⟩ := h.linked k tid hk
    obtain ⟨t', ht', rfl⟩ := h.linked k' tid hk'
    rw [ht] at ht'
    rw [Option.some.inj ht']
  · intro tid t ht
    obtain ⟨hid, hval, -⟩ := h.triggers tid t ht
    exact ⟨hid, hval, HTTPTrigger.verifier_of_token hval⟩
  · intro command e he
    rcases step_cases s command with ⟨e', hstep⟩ | ⟨reply, s', hstep, -⟩
    · rw [hstep]
    · rw [hstep] at he
      cases he

end MiniCloud.ControlPlane
