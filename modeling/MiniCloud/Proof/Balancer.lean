import MiniCloud.GatewayRoute.Balancer
import MiniCloud.Lib.Balance
import MiniCloud.Proof.Builder

/-!
# The balancer counts and takes turns

Two mechanisms decide an `Acquire`. The occupancy of an Endpoint is meant to be the number of its
Leases that are still out, and the least occupied are preferred; among equals a cursor decides,
one per function, version and generation.

Both are 64-bit numbers. A count wraps when an identity has `2 ^ 64` Leases out, and that is the
only way for it to be wrong.
-/

namespace MiniCloud.GatewayRoute

open Lib Problem Digest Model ServingAuth Discovery

variable {s s' : State} {out : Option (Except GoError Lease)} {t : RouteTarget}
  {endpoints found : List Endpoint} {functionID : GoString} {members : List AssignmentIdentity}
  {c : Call} {e : Endpoint} {base level : Nat}

/-! ## The endpoints of a target -/

theorem validate_mode (h : e.validate = .ok ()) :
    e.state = .ready ∧ e.assignment.mode = .normal := by
  simp only [Endpoint.validate, checks_ok, List.forall_mem_cons, mustNot_fails,
    Bool.or_eq_false_iff, bne_eq_false_iff_eq] at h
  exact ⟨h.2.1.2, h.2.1.1⟩

/-- A valid Endpoint serves the target that its Assignment was placed for. -/
theorem serves_iff (h : e.validate = .ok ()) : serves t e = true ↔ Fits t e.assignment := by
  obtain ⟨hready, hnormal⟩ := validate_mode h
  simp only [serves, hready, hnormal, Bool.and_eq_true, beq_iff_eq, true_and]
  constructor
  · rintro ⟨⟨⟨h1, h2⟩, h3⟩, h4⟩
    exact ⟨h1.symm, h3.symm, h2.symm, h4.symm⟩
  · intro h
    exact ⟨⟨⟨h.version.symm, h.epoch.symm⟩, h.generation.symm⟩, h.policy.symm⟩

theorem eligibleFrom_ok {seen : List GoString} :
    eligibleFrom t seen endpoints = .ok found ↔
      (∀ e ∈ endpoints, e.validate = .ok ()) ∧ found = endpoints.filter (serves t) ∧
      (found.map fun e => e.assignment.assignmentID).Nodup ∧
      ∀ e ∈ found, e.assignment.assignmentID ∉ seen := by
  induction endpoints generalizing seen found with
  | nil =>
    constructor
    · intro h
      cases h
      simp
    · rintro ⟨-, rfl, -, -⟩
      rfl
  | cons e rest ih =>
    rw [eligibleFrom, after_ok, List.forall_mem_cons]
    by_cases hserves : serves t e = true
    · by_cases hseen : e.assignment.assignmentID ∈ seen
      · simp [hserves, hseen, throw, throwThe, MonadExceptOf.throw]
        intro _ _ hfound
        subst hfound
        simp [hseen]
      · simp only [hserves, Bool.not_true, Bool.false_eq_true, if_false, List.contains_iff_mem, hseen,
          bind_ok, ih, List.filter_cons_of_pos, pure, Except.pure, Except.ok.injEq]
        constructor
        · rintro ⟨hvalid, more, ⟨hrest, hmore, hnd, hnew⟩, rfl⟩
          refine ⟨⟨hvalid, hrest⟩, by rw [hmore], ?_, ?_⟩
          · refine List.nodup_cons.mpr ⟨?_, hnd⟩
            intro hmem
            obtain ⟨e', he', heq⟩ := List.mem_map.mp hmem
            exact hnew e' he' (heq ▸ List.mem_cons_self)
          · refine List.forall_mem_cons.mpr ⟨hseen, fun e' he' hmem => ?_⟩
            exact hnew e' he' (List.mem_cons_of_mem _ hmem)
        · rintro ⟨⟨hvalid, hrest⟩, rfl, hnd, hnew⟩
          obtain ⟨hhead, hnd⟩ := List.nodup_cons.mp hnd
          refine ⟨hvalid, _, ⟨hrest, rfl, hnd, fun e' he' hmem => ?_⟩, rfl⟩
          rcases List.mem_cons.mp hmem with heq | hmem
          · exact hhead (List.mem_map.mpr ⟨e', he', heq⟩)
          · exact (List.forall_mem_cons.mp hnew).2 e' he' hmem
    · rw [List.filter_cons_of_neg hserves]
      simp only [hserves, Bool.not_false, if_true, ih, and_assoc]

/-- What `Acquire` works on under the mutex. -/
structure Eligible (functionID : GoString) (t : RouteTarget) (endpoints found : List Endpoint) :
    Prop where
  functionID : identifierPattern functionID = true
  target : validateTarget t = .ok ()
  valid : ∀ e ∈ endpoints, e.validate = .ok ()
  distinct : ((endpoints.filter (serves t)).map fun e => e.assignment.assignmentID).Nodup
  nonempty : endpoints.filter (serves t) ≠ []
  sorted : found = sortFunc compareEndpoints (endpoints.filter (serves t))

theorem eligible_ok :
    eligible functionID t endpoints = .ok found ↔ Eligible functionID t endpoints found := by
  rw [eligible, after_ok, after_ok, bind_ok]
  simp only [checks_ok, List.mem_singleton, forall_eq, mustNot_fails, Bool.not_eq_false',
    eligibleFrom_ok]
  constructor
  · rintro ⟨hid, htarget, l, ⟨hvalid, rfl, hnd, -⟩, h⟩
    by_cases hempty : endpoints.filter (serves t) = []
    · rw [hempty] at h
      cases h
    · have hlength : ((endpoints.filter (serves t)).length == 0) = false := by
        simpa using hempty
      simp only [hlength] at h
      exact ⟨hid, htarget, hvalid, hnd, hempty, (Except.ok.inj h).symm⟩
  · intro h
    have hlength : ((endpoints.filter (serves t)).length == 0) = false := by
      simpa using h.nonempty
    refine ⟨h.functionID, h.target, _, ⟨h.valid, rfl, h.distinct, by simp⟩, ?_⟩
    simp only [hlength, h.sorted]
    rfl

instance : Std.TransCmp compareEndpoints :=
  inferInstanceAs (Std.TransCmp (compareOn fun e : Endpoint => e.assignment.assignmentID))

theorem compareEndpoints_eq {a b : Endpoint} (h : compareEndpoints a b = .eq) :
    a.assignment.assignmentID = b.assignment.assignmentID := by
  simpa only [compareEndpoints, compareOn, Std.LawfulEqOrd.compare_eq_iff_eq] using h

/-- The order of the Endpoints given has no part in it. -/
theorem Eligible.perm {endpoints' : List Endpoint} (h : Eligible functionID t endpoints found)
    (hp : endpoints.Perm endpoints') : Eligible functionID t endpoints' found := by
  have hfilter := hp.filter (serves t)
  have hdistinct := ((hfilter.map fun e => e.assignment.assignmentID).nodup_iff).mp h.distinct
  refine ⟨h.functionID, h.target, fun e he => h.valid e (hp.mem_iff.mpr he), hdistinct, ?_, ?_⟩
  · intro hnil
    rw [hnil] at hfilter
    exact h.nonempty hfilter.eq_nil
  · rw [h.sorted]
    refine sortFunc_eq_of_perm hfilter fun a ha b hb heq => ?_
    exact List.inj_on_of_nodup_map h.distinct ha hb (compareEndpoints_eq heq)

theorem Eligible.mem (h : Eligible functionID t endpoints found) :
    e ∈ found ↔ e ∈ endpoints ∧ Fits t e.assignment := by
  rw [h.sorted, mem_sortFunc, List.mem_filter]
  constructor
  · rintro ⟨he, hserves⟩
    exact ⟨he, (serves_iff (h.valid e he)).mp hserves⟩
  · rintro ⟨he, hfits⟩
    exact ⟨he, (serves_iff (h.valid e he)).mpr hfits⟩

/-! ## The least occupied -/

/-- The occupancy of an identity as a number. -/
def State.load (s : State) (identity : AssignmentIdentity) : ℕ :=
  (s.balancer.inflightOf identity).toNat

theorem min_toNat (a b : UInt64) : (min a b).toNat = min a.toNat b.toNat := by
  change (if a ≤ b then a else b).toNat = _
  by_cases h : a ≤ b
  · rw [if_pos h, Nat.min_eq_left (UInt64.le_iff_toNat_le.mp h)]
  · have hle : b.toNat ≤ a.toNat := by
      have := mt UInt64.le_iff_toNat_le.mpr h
      omega
    rw [if_neg h, Nat.min_eq_right hle]

/-- The loop's minimum is the occupancy of one of the Endpoints and at most that of each. -/
theorem minimum_least (b : Balancer) (first : Endpoint) (rest : List Endpoint) :
    (∃ e ∈ first :: rest, b.minimum first rest = b.inflightOf e.assignment) ∧
    ∀ e ∈ first :: rest, (b.minimum first rest).toNat ≤ (b.inflightOf e.assignment).toNat := by
  -- the fold over what is left, from the least so far
  have hfold : ∀ (l : List Endpoint) (least : UInt64),
      (l.foldl (fun least e => min least (b.inflightOf e.assignment)) least = least ∨
        ∃ e ∈ l, l.foldl (fun least e => min least (b.inflightOf e.assignment)) least =
          b.inflightOf e.assignment) ∧
      (l.foldl (fun least e => min least (b.inflightOf e.assignment)) least).toNat ≤
        least.toNat ∧
      ∀ e ∈ l, (l.foldl (fun least e => min least (b.inflightOf e.assignment)) least).toNat ≤
        (b.inflightOf e.assignment).toNat := by
    intro l
    induction l with
    | nil =>
      intro least
      simp
    | cons e l ih =>
      intro least
      obtain ⟨hsome, hle, hall⟩ := ih (min least (b.inflightOf e.assignment))
      have hmin := min_toNat least (b.inflightOf e.assignment)
      rw [List.foldl_cons]
      refine ⟨?_, by omega, List.forall_mem_cons.mpr ⟨by omega, hall⟩⟩
      rcases hsome with h | ⟨e', he', h⟩
      · rw [h]
        by_cases hcase : least.toNat ≤ (b.inflightOf e.assignment).toNat
        · exact .inl (UInt64.toNat_inj.mp (by omega))
        · exact .inr ⟨e, List.mem_cons_self, UInt64.toNat_inj.mp (by omega)⟩
      · exact .inr ⟨e', List.mem_cons_of_mem _ he', h⟩
  obtain ⟨hsome, hle, hall⟩ := hfold rest (b.inflightOf first.assignment)
  refine ⟨?_, List.forall_mem_cons.mpr ⟨hle, hall⟩⟩
  rcases hsome with h | ⟨e, he, h⟩
  · exact ⟨first, List.mem_cons_self, h⟩
  · exact ⟨e, List.mem_cons_of_mem _ he, h⟩

theorem mem_tied :
    e ∈ s.balancer.tied endpoints ↔
      e ∈ endpoints ∧ ∀ e' ∈ endpoints, s.load e.assignment ≤ s.load e'.assignment := by
  cases endpoints with
  | nil => simp [Balancer.tied]
  | cons first rest =>
    obtain ⟨⟨least, hleast, heq⟩, hle⟩ := minimum_least s.balancer first rest
    rw [Balancer.tied, List.mem_filter, beq_iff_eq]
    refine and_congr_right fun he => ?_
    constructor
    · intro h e' he'
      unfold State.load
      rw [h]
      exact hle e' he'
    · intro h
      have h₁ := hle e he
      have h₂ := h least hleast
      unfold State.load at h₂
      rw [heq] at h₁ ⊢
      exact UInt64.toNat_inj.mp (by omega)

theorem tied_ne_nil {b : Balancer} (h : endpoints ≠ []) : b.tied endpoints ≠ [] := by
  cases endpoints with
  | nil => exact absurd rfl h
  | cons first rest =>
    obtain ⟨⟨least, hleast, heq⟩, -⟩ := minimum_least b first rest
    refine List.ne_nil_of_mem (a := least) ?_
    rw [Balancer.tied, List.mem_filter, beq_iff_eq]
    exact ⟨hleast, heq.symm⟩

/-! ## What a call does -/

/-- The balancer after one of its Endpoints was chosen. -/
def Balancer.taken (b : Balancer) (key : TargetKey) (identity : AssignmentIdentity) : Balancer :=
  ⟨b.inflight.set identity (b.inflightOf identity + 1), b.roundRobin.set key (b.cursor key + 1)⟩

/-- Everything a call can do. -/
inductive Does (s : State) : Call → Option (Except GoError Lease) → State → Prop where
  | refused {functionID : GoString} {t : RouteTarget} {endpoints : List Endpoint} {err : GoError}
      (h : eligible functionID t endpoints = .error err) :
      Does s (.acquire functionID t endpoints) (some (.error err)) s
  | acquired {functionID : GoString} {t : RouteTarget} {endpoints found : List Endpoint}
      {chosen : Endpoint} (h : Eligible functionID t endpoints found)
      (hchosen : (s.balancer.tied found)[(s.balancer.cursor (targetKey functionID t)).toNat %
        (s.balancer.tied found).length]? = some chosen) :
      Does s (.acquire functionID t endpoints) (some (.ok ⟨chosen, some s.states.length⟩))
        ⟨s.balancer.taken (targetKey functionID t) chosen.assignment,
          s.states ++ [⟨chosen.assignment, false⟩]⟩
  | kept {state : Option Nat} : Does s (.release state) none s
  | released {pointer : Nat} {identity : AssignmentIdentity}
      (h : s.states[pointer]? = some ⟨identity, false⟩) :
      Does s (.release (some pointer)) none
        ⟨s.balancer.release identity, s.states.set pointer ⟨identity, true⟩⟩

/-- The panic of the index expression is not reached: some Endpoint is tied. -/
theorem choose_ok {b : Balancer} {key : TargetKey} (h : endpoints ≠ []) : ∃ chosen,
      (b.tied endpoints)[(b.cursor key).toNat % (b.tied endpoints).length]? = some chosen ∧
      b.choose key endpoints = .ok (chosen, b.taken key chosen.assignment) := by
  have hlength := List.length_pos_of_ne_nil (tied_ne_nil (b := b) h)
  have hlt := Nat.mod_lt (b.cursor key).toNat hlength
  refine ⟨_, List.getElem?_eq_getElem hlt, ?_⟩
  rw [Balancer.choose, List.getElem?_eq_getElem hlt]
  rfl

theorem Eligible.ne_nil (h : Eligible functionID t endpoints found) : found ≠ [] := by
  intro hnil
  have hp := sortFunc_perm compareEndpoints (endpoints.filter (serves t))
  rw [← h.sorted, hnil] at hp
  exact h.nonempty hp.symm.eq_nil

theorem step_does (s : State) (c : Call) :
    Does s c (machine.step s c).1 (machine.step s c).2 := by
  cases c with
  | acquire functionID t endpoints =>
    simp only [machine, State.acquire]
    cases hfound : eligible functionID t endpoints with
    | error err => exact .refused hfound
    | ok found =>
      have helig := eligible_ok.mp hfound
      obtain ⟨chosen, hchosen, hchoose⟩ :=
        @choose_ok _ s.balancer (targetKey functionID t) helig.ne_nil
      simp only [hchoose]
      exact .acquired helig hchosen
  | release state =>
    simp only [machine, State.release]
    cases state with
    | none => exact .kept
    | some pointer =>
      dsimp only
      cases hr : s.states[pointer]? with
      | none => exact .kept
      | some r =>
        obtain ⟨identity, done⟩ := r
        cases done with
        | true => exact .kept
        | false => exact .released hr

/-! ## Occupancy -/

theorem load_taken (s : State) (key : TargetKey) (identity id : AssignmentIdentity)
    (states : List ReleaseState) :
    State.load ⟨s.balancer.taken key identity, states⟩ id =
      if id = identity then (s.load identity + 1) % 2 ^ 64 else s.load id := by
  unfold State.load Balancer.inflightOf
  simp only [Balancer.taken, GoMap.get?_set]
  by_cases h : id = identity
  · simp only [h, if_true, Option.getD_some, UInt64.toNat_add, Balancer.inflightOf]
    rfl
  · simp only [h, if_false]

/-- A release takes one off, unless there is nothing to take. -/
theorem load_release (s : State) (identity id : AssignmentIdentity) (states : List ReleaseState) :
    State.load ⟨s.balancer.release identity, states⟩ id =
      if id = identity then s.load identity - 1 else s.load id := by
  unfold State.load Balancer.release
  by_cases hone : s.balancer.inflightOf identity ≤ 1
  · have hnat : (s.balancer.inflightOf identity).toNat ≤ 1 := UInt64.le_iff_toNat_le.mp hone
    rw [if_pos hone]
    unfold Balancer.inflightOf at hnat ⊢
    simp only [GoMap.get?_delete]
    by_cases h : id = identity
    · simp only [h, if_true, Option.getD_none, UInt64.toNat_zero]
      omega
    · simp only [h, if_false]
  · rw [if_neg hone]
    have hle : 1 ≤ s.balancer.inflightOf identity := by
      rw [UInt64.le_iff_toNat_le] at hone ⊢
      omega
    have hsub := UInt64.toNat_sub_of_le _ _ hle
    unfold Balancer.inflightOf at hsub ⊢
    simp only [GoMap.get?_set]
    by_cases h : id = identity
    · simp only [h, if_true, Option.getD_some]
      exact hsub
    · simp only [h, if_false]

theorem unreleased_append (l : List ReleaseState) (identity id : AssignmentIdentity) :
    unreleased (l ++ [⟨identity, false⟩]) id =
      unreleased l id + if id = identity then 1 else 0 := by
  unfold unreleased
  rw [List.countP_append, List.countP_singleton]
  by_cases h : identity = id
  · simp [h]
  · simp [h, Ne.symm h]

theorem unreleased_set {l : List ReleaseState} {pointer : Nat} {identity : AssignmentIdentity}
    (h : l[pointer]? = some ⟨identity, false⟩) (id : AssignmentIdentity) :
    unreleased (l.set pointer ⟨identity, true⟩) id + (if id = identity then 1 else 0) =
      unreleased l id := by
  obtain ⟨hlt, hget⟩ := List.getElem?_eq_some_iff.mp h
  unfold unreleased
  rw [List.countP_set hlt, hget]
  by_cases hid : identity = id
  · have hpos : 0 < l.countP (fun r => r.identity == id && !r.done) := by
      refine List.countP_pos_iff.mpr ⟨_, List.getElem_mem hlt, ?_⟩
      simp [hget, hid]
    simp only [hid, beq_self_eq_true, Bool.not_false, Bool.and_self, if_true, Bool.not_true,
      Bool.and_false, Bool.false_eq_true, if_false]
    omega
  · simp [hid, Ne.symm hid]

abbrev Step := Event State Call (Option (Except GoError Lease))

/-- No identity has more Leases out than a 64-bit counter can say. -/
def Countable (e : Step) : Prop := ∀ id, e.post.outstanding id < 2 ^ 64

/-- The occupancy of every identity is the number of its Leases that are out. -/
def Accounted (s : State) : Prop := ∀ id, s.load id = s.outstanding id

theorem accounted_new : Accounted State.new := by
  intro id
  rfl

theorem accounted_step (h : Accounted s) (hcount : Countable (machine.event s c)) :
    Accounted (machine.step s c).2 := by
  unfold Countable Machine.event at hcount
  intro id
  have hid := h id
  have hcount := hcount id
  revert hcount
  dsimp only
  generalize hout : (machine.step s c).1 = out
  generalize hpost : (machine.step s c).2 = s'
  have hdoes := step_does s c
  rw [hout, hpost] at hdoes
  intro hcount
  cases hdoes with
  | refused | kept => exact hid
  | @acquired functionID t endpoints found chosen helig hchosen =>
    rw [load_taken]
    unfold State.outstanding at hcount hid ⊢
    rw [unreleased_append] at hcount ⊢
    by_cases heq : id = chosen.assignment
    · subst heq
      rw [if_pos rfl] at hcount ⊢
      rw [if_pos rfl, hid]
      exact Nat.mod_eq_of_lt hcount
    · rw [if_neg heq, if_neg heq]
      exact hid
  | @released pointer identity hr =>
    rw [load_release]
    have hset := unreleased_set hr id
    unfold State.outstanding at hid ⊢
    dsimp only at hid ⊢
    by_cases heq : id = identity
    · subst heq
      rw [if_pos rfl] at hset ⊢
      omega
    · rw [if_neg heq] at hset ⊢
      omega

theorem accounted_run (h : Accounted s) (calls : List Call)
    (hcount : ∀ e ∈ machine.events s calls, Countable e) : Accounted (machine.run s calls) :=
  Machine.run_keeps (X := fun e => ¬ Countable e)
    (fun _ _ _ hx hs => accounted_step hs (not_not.mp hx)) .init h calls
    fun e he => not_not.mpr (hcount e he)

/-! ## Selection -/

/-- What a successful `Acquire` has selected. -/
structure Selects (s : State) (functionID : GoString) (t : RouteTarget) (endpoints : List Endpoint)
    (lease : Lease) : Prop where
  offered : lease.endpoint ∈ endpoints
  fits : Fits t lease.endpoint.assignment
  least : ∀ e ∈ endpoints, Fits t e.assignment →
    s.load lease.endpoint.assignment ≤ s.load e.assignment
  unordered : ∀ endpoints', endpoints.Perm endpoints' →
    machine.step s (.acquire functionID t endpoints') =
      machine.step s (.acquire functionID t endpoints)

theorem step_perm {endpoints' : List Endpoint} (h : Eligible functionID t endpoints found)
    (hp : endpoints.Perm endpoints') :
    machine.step s (.acquire functionID t endpoints') =
      machine.step s (.acquire functionID t endpoints) := by
  simp only [machine, State.acquire, eligible_ok.mpr h, eligible_ok.mpr (h.perm hp)]

theorem selects {lease : Lease}
    (h : (machine.step s (.acquire functionID t endpoints)).1 = some (.ok lease)) :
    Selects s functionID t endpoints lease := by
  have hdoes := step_does s (.acquire functionID t endpoints)
  rw [h] at hdoes
  generalize (machine.step s (.acquire functionID t endpoints)).2 = s' at hdoes
  cases hdoes with
  | acquired helig hchosen =>
    obtain ⟨hmem, hleast⟩ := mem_tied.mp (List.mem_of_getElem? hchosen)
    obtain ⟨hoffered, hfits⟩ := helig.mem.mp hmem
    refine ⟨hoffered, hfits, fun e he hfits' => ?_, fun _ => step_perm helig⟩
    exact hleast e (helig.mem.mpr ⟨he, hfits'⟩)

/-! ## Alone with a target -/

/-- The identities that serve the target among the Endpoints given. -/
def Matching (t : RouteTarget) (members : List AssignmentIdentity) (endpoints : List Endpoint) :
    Prop :=
  ∀ id, id ∈ members ↔ ∃ e ∈ endpoints, Fits t e.assignment ∧ e.assignment = id

/--
The matching identities stay the same in every `Acquire` of the target, and no `Acquire` of
another chooses one of them.
-/
structure Alone (functionID : GoString) (t : RouteTarget) (members : List AssignmentIdentity)
    (e : Step) : Prop where
  own : ∀ endpoints, e.input = .acquire functionID t endpoints → Matching t members endpoints
  other : ∀ functionID' t' endpoints lease, e.input = .acquire functionID' t' endpoints →
    e.output = some (.ok lease) → (functionID', t') ≠ (functionID, t) →
    lease.endpoint.assignment ∉ members

/-- The call does not release a Lease on one of the identities. -/
def Keeps (members : List AssignmentIdentity) (e : Step) : Prop :=
  ∀ pointer r, e.input = .release (some pointer) → e.pre.states[pointer]? = some r →
    r.identity ∉ members

theorem Eligible.least {chosen : Endpoint} (h : Eligible functionID t endpoints found)
    (hmatch : Matching t members endpoints) (hchosen : chosen ∈ s.balancer.tied found) :
    ∀ a ∈ members, s.load chosen.assignment ≤ s.load a := by
  intro a ha
  obtain ⟨e, he, hfits, rfl⟩ := (hmatch a).mp ha
  exact (mem_tied.mp hchosen).2 e (h.mem.mpr ⟨he, hfits⟩)

theorem even_step (haccounted : Accounted s) (heven : Balance.Even s.load members)
    (hcount : Countable (machine.event s c))
    (halone : Alone functionID t members (machine.event s c))
    (hkeeps : Keeps members (machine.event s c)) :
    Balance.Even (machine.step s c).2.load members := by
  have haccounted' := accounted_step haccounted hcount
  revert hcount halone hkeeps haccounted'
  unfold Machine.event
  generalize hout : (machine.step s c).1 = out
  generalize hpost : (machine.step s c).2 = s'
  have hdoes := step_does s c
  rw [hout, hpost] at hdoes
  intro hcount halone hkeeps haccounted'
  cases hdoes with
  | refused | kept => exact heven
  | @acquired functionID' t' endpoints found chosen helig hchosen =>
    have hload := load_taken s (targetKey functionID' t') chosen.assignment
    by_cases hown : (functionID', t') = (functionID, t)
    · obtain ⟨rfl, rfl⟩ := Prod.mk.inj hown
      have hmatch := halone.own endpoints rfl
      refine heven.bump (helig.least hmatch (List.mem_of_getElem? hchosen)) ?_ ?_
      · -- the count does not wrap: it is a number of Leases that are out
        rw [haccounted' chosen.assignment, haccounted chosen.assignment]
        unfold State.outstanding
        rw [unreleased_append, if_pos rfl]
      · intro a ha
        rw [hload, if_neg ha]
    · have hnot := halone.other functionID' t' endpoints _ rfl rfl hown
      intro a ha b hb
      have hne : ∀ id ∈ members, id ≠ chosen.assignment := by
        rintro id hid rfl
        exact hnot hid
      rw [hload, hload, if_neg (hne a ha), if_neg (hne b hb)]
      exact heven a ha b hb
  | @released pointer identity hr =>
    have hnot : identity ∉ members := hkeeps pointer _ rfl hr
    intro a ha b hb
    have hne : ∀ id ∈ members, id ≠ identity := by
      rintro id hid rfl
      exact hnot hid
    rw [load_release, load_release, if_neg (hne a ha), if_neg (hne b hb)]
    exact heven a ha b hb

theorem even_run (haccounted : Accounted s) (heven : Balance.Even s.load members)
    (calls : List Call)
    (hcalls : ∀ e ∈ machine.events s calls, Countable e ∧ Alone functionID t members e ∧
      Keeps members e) :
    Balance.Even (machine.run s calls).load members := by
  have hboth : Accounted (machine.run s calls) ∧
      Balance.Even (machine.run s calls).load members := by
    refine Machine.run_keeps (P := fun s => Accounted s ∧ Balance.Even s.load members)
      (X := fun e => ¬ (Countable e ∧ Alone functionID t members e ∧ Keeps members e))
      ?_ .init ⟨haccounted, heven⟩ calls fun e he => not_not.mpr (hcalls e he)
    intro s c _ hx hs
    obtain ⟨hcount, halone, hkeeps⟩ := not_not.mp hx
    exact ⟨accounted_step hs.1 hcount, even_step hs.1 hs.2 hcount halone hkeeps⟩
  exact hboth.2

/-! ## Turns -/

theorem cursor_taken (b : Balancer) (key key' : TargetKey) (identity : AssignmentIdentity) :
    (b.taken key identity).cursor key' = if key' = key then b.cursor key + 1 else b.cursor key' := by
  simp only [Balancer.cursor, Balancer.taken, GoMap.get?_set]
  by_cases h : key' = key
  · simp [h]
  · simp [h]

theorem cursor_release (b : Balancer) (key : TargetKey) (identity : AssignmentIdentity) :
    (b.release identity).cursor key = b.cursor key := by
  unfold Balancer.release
  by_cases h : b.inflightOf identity ≤ 1
  · rw [if_pos h]
    rfl
  · rw [if_neg h]
    rfl

/-- A cursor has moved at most once for every Lease handed out. -/
def Paced (s : State) : Prop := ∀ key, (s.balancer.cursor key).toNat ≤ s.states.length

theorem paced_step (h : Paced s) (hdoes : Does s c out s') : Paced s' := by
  intro key
  have hkey := h key
  cases hdoes with
  | refused | kept => exact hkey
  | @acquired functionID t endpoints found chosen helig hchosen =>
    dsimp only
    rw [cursor_taken, List.length_append, List.length_singleton]
    by_cases heq : key = targetKey functionID t
    · subst heq
      rw [if_pos rfl, UInt64.toNat_add]
      have hone : (1 : UInt64).toNat = 1 := rfl
      have hmod := Nat.mod_le
        ((s.balancer.cursor (targetKey functionID t)).toNat + (1 : UInt64).toNat) (2 ^ 64)
      omega
    · rw [if_neg heq]
      omega
  | released hr =>
    dsimp only
    rw [cursor_release, List.length_set]
    exact hkey

theorem paced_run (h : Paced s) (calls : List Call) : Paced (machine.run s calls) := by
  induction calls generalizing s with
  | nil => exact h
  | cons c calls ih => exact ih (paced_step h (step_does s c))

/-- Release states are only added. -/
theorem length_step (hdoes : Does s c out s') : s.states.length ≤ s'.states.length := by
  cases hdoes with
  | refused | kept => exact Nat.le_refl _
  | acquired _ _ =>
    dsimp only
    rw [List.length_append]
    omega
  | released _ =>
    dsimp only
    rw [List.length_set]

theorem length_run (s : State) (calls : List Call) :
    s.states.length ≤ (machine.run s calls).states.length := by
  induction calls generalizing s with
  | nil => exact Nat.le_refl _
  | cons c calls ih => exact (length_step (step_does s c)).trans (ih _)

theorem outstanding_le (s : State) (id : AssignmentIdentity) :
    s.outstanding id ≤ s.states.length := List.countP_le_length

/--
The Leases on the identities are released in time. Those of this stretch of calls are the ones
handed out from position `base` on.
-/
structure Timely (functionID : GoString) (t : RouteTarget) (members : List AssignmentIdentity)
    (base : Nat) (e : Step) : Prop where
  /-- Each is released before the next `Acquire`. -/
  released : ∀ endpoints, e.input = .acquire functionID t endpoints → ∀ pointer r, base ≤ pointer →
    e.pre.states[pointer]? = some r → r.identity ∈ members → r.done = true
  /-- No Lease from before is released. -/
  mine : ∀ pointer r, e.input = .release (some pointer) → e.pre.states[pointer]? = some r →
    r.identity ∈ members → base ≤ pointer

/-- An `Acquire` of another target does not move the cursor of this one. -/
def Steers (functionID : GoString) (t : RouteTarget) (e : Step) : Prop :=
  ∀ functionID' t' endpoints, e.input = .acquire functionID' t' endpoints →
    (functionID', t') ≠ (functionID, t) → targetKey functionID' t' ≠ targetKey functionID t

/-- One call in a stretch in which a target takes its turns. -/
structure Turn (functionID : GoString) (t : RouteTarget) (members : List AssignmentIdentity)
    (base : Nat) (e : Step) : Prop where
  alone : Alone functionID t members e
  timely : Timely functionID t members base e
  steers : Steers functionID t e

/-- The identity an `Acquire` of the target chose. -/
def choice (functionID : GoString) (t : RouteTarget) (e : Step) : Option AssignmentIdentity :=
  match e.input, e.output with
  | .acquire functionID' t' _, some (.ok lease) =>
    if (functionID', t') = (functionID, t) then some lease.endpoint.assignment else none
  | _, _ => none

/-- The choices of a run, in order. -/
def choices (functionID : GoString) (t : RouteTarget) (s : State) (calls : List Call) :
    List AssignmentIdentity :=
  (machine.events s calls).filterMap (choice functionID t)

/-- Above a common level, the occupancy is made of Leases of this stretch. -/
structure Level (members : List AssignmentIdentity) (base level : Nat) (s : State) : Prop where
  started : base ≤ s.states.length
  load : ∀ id ∈ members, s.load id = level + unreleased (s.states.drop base) id

def compareIDs : AssignmentIdentity → AssignmentIdentity → Ordering :=
  compareOn AssignmentIdentity.assignmentID

instance : Std.TransCmp compareIDs :=
  inferInstanceAs (Std.TransCmp (compareOn AssignmentIdentity.assignmentID))

/-- The sorted Endpoints of an `Acquire` carry the sorted matching identities. -/
theorem Eligible.identities (hnd : members.Nodup) (h : Eligible functionID t endpoints found)
    (hmatch : Matching t members endpoints) :
    found.map Endpoint.assignment = sortFunc compareIDs members := by
  have hdistinct : (((endpoints.filter (serves t)).map Endpoint.assignment).map
      AssignmentIdentity.assignmentID).Nodup := by
    rw [List.map_map]
    exact h.distinct
  have hperm : ((endpoints.filter (serves t)).map Endpoint.assignment).Perm members := by
    refine (List.perm_ext_iff_of_nodup (List.Nodup.of_map _ hdistinct) hnd).mpr fun id => ?_
    rw [hmatch id, List.mem_map]
    constructor
    · rintro ⟨e, he, rfl⟩
      obtain ⟨hmem, hserves⟩ := List.mem_filter.mp he
      exact ⟨e, hmem, (serves_iff (h.valid e hmem)).mp hserves, rfl⟩
    · rintro ⟨e, hmem, hfits, rfl⟩
      exact ⟨e, List.mem_filter.mpr ⟨hmem, (serves_iff (h.valid e hmem)).mpr hfits⟩, rfl⟩
  rw [h.sorted, sortFunc, List.map_insertionSort (fun a b => (compareEndpoints a b).isLE = true)
    (fun a b => (compareIDs a b).isLE = true) Endpoint.assignment _ fun _ _ _ _ => Iff.rfl]
  refine sortFunc_eq_of_perm hperm fun a ha b hb heq => ?_
  refine List.inj_on_of_nodup_map hdistinct ha hb ?_
  simpa only [compareIDs, compareOn, Std.LawfulEqOrd.compare_eq_iff_eq] using heq

/-- Where no Lease of the stretch is out, all are tied and the cursor alone decides. -/
theorem Level.chosen {chosen : Endpoint} (hlevel : Level members base level s)
    (hnd : members.Nodup) (h : Eligible functionID t endpoints found)
    (hmatch : Matching t members endpoints)
    (hreleased : ∀ pointer r, base ≤ pointer → s.states[pointer]? = some r → r.identity ∈ members →
      r.done = true)
    (hchosen : (s.balancer.tied found)[(s.balancer.cursor (targetKey functionID t)).toNat %
      (s.balancer.tied found).length]? = some chosen) :
    (sortFunc compareIDs members)[(s.balancer.cursor (targetKey functionID t)).toNat %
      (sortFunc compareIDs members).length]? = some chosen.assignment := by
  have hnone : ∀ id ∈ members, unreleased (s.states.drop base) id = 0 := by
    intro id hid
    refine List.countP_eq_zero.mpr fun r hr hbad => ?_
    obtain ⟨i, hi⟩ := List.mem_iff_getElem?.mp hr
    rw [List.getElem?_drop] at hi
    simp only [Bool.and_eq_true, beq_iff_eq, Bool.not_eq_true'] at hbad
    have hdone := hreleased (base + i) r (by omega) hi (hbad.1 ▸ hid)
    rw [hdone] at hbad
    exact absurd hbad.2 (by decide)
  have hmem : ∀ e ∈ found, e.assignment ∈ members := by
    intro e he
    obtain ⟨hoffered, hfits⟩ := h.mem.mp he
    exact (hmatch _).mpr ⟨e, hoffered, hfits, rfl⟩
  have htied : s.balancer.tied found = found := by
    have hall : ∀ e ∈ found, e ∈ s.balancer.tied found := by
      intro e he
      refine mem_tied.mpr ⟨he, fun e' he' => ?_⟩
      rw [hlevel.load _ (hmem e he), hlevel.load _ (hmem e' he'), hnone _ (hmem e he),
        hnone _ (hmem e' he')]
    cases found with
    | nil => rfl
    | cons first rest =>
      rw [Balancer.tied]
      refine List.filter_eq_self.mpr fun e he => ?_
      exact (List.mem_filter.mp (hall e he)).2
  rw [htied] at hchosen
  rw [← h.identities hnd hmatch, List.length_map, List.getElem?_map, hchosen, Option.map_some]

theorem Level.step (h : Level members base level s) (haccounted : Accounted s)
    (hdoes : Does s c out s') (hturn : Turn functionID t members base ⟨s, c, out, s'⟩)
    (htotal : s'.states.length < 2 ^ 64) : Level members base level s' := by
  cases hdoes with
  | refused | kept => exact h
  | @acquired functionID' t' endpoints found chosen helig hchosen =>
    dsimp only at htotal
    rw [List.length_append, List.length_singleton] at htotal
    refine ⟨by dsimp only; rw [List.length_append]; have := h.started; omega, fun id hid => ?_⟩
    have hid' := h.load id hid
    have hle := outstanding_le s id
    have hacc := haccounted id
    rw [load_taken]
    dsimp only
    rw [List.drop_append_of_le_length h.started, unreleased_append]
    by_cases heq : id = chosen.assignment
    · subst heq
      rw [if_pos rfl, if_pos rfl, Nat.mod_eq_of_lt (by omega)]
      omega
    · rw [if_neg heq, if_neg heq]
      omega
  | @released pointer identity hr =>
    refine ⟨by dsimp only; rw [List.length_set]; exact h.started, fun id hid => ?_⟩
    have hid' := h.load id hid
    rw [load_release]
    dsimp only
    by_cases hbase : base ≤ pointer
    · -- one of this stretch: the part after `base` loses what the count loses
      have hdrop : (s.states.set pointer ⟨identity, true⟩).drop base =
          (s.states.drop base).set (pointer - base) ⟨identity, true⟩ := by
        rw [List.drop_set, if_neg (by omega)]
      have hget : (s.states.drop base)[pointer - base]? = some ⟨identity, false⟩ := by
        rw [List.getElem?_drop, Nat.add_sub_cancel' hbase]
        exact hr
      have hset := unreleased_set hget id
      rw [hdrop]
      by_cases heq : id = identity
      · subst heq
        rw [if_pos rfl] at hset ⊢
        omega
      · rw [if_neg heq] at hset ⊢
        omega
    · have hdrop : (s.states.set pointer ⟨identity, true⟩).drop base = s.states.drop base := by
        rw [List.drop_set, if_pos (by omega)]
      have hne : id ≠ identity := by
        rintro rfl
        exact hbase (hturn.timely.mine pointer _ rfl hr hid)
      rw [hdrop, if_neg hne]
      exact hid'

/-- The choices of a stretch follow the sorted identities, from where the cursor stands. -/
theorem choices_turns (hnd : members.Nodup) (calls : List Call)
    (hlevel : Level members base level s) (haccounted : Accounted s) (hpaced : Paced s)
    (hturns : ∀ e ∈ machine.events s calls, Turn functionID t members base e)
    (htotal : (machine.run s calls).states.length < 2 ^ 64) :
    ∀ i < (choices functionID t s calls).length, (choices functionID t s calls)[i]? =
      (sortFunc compareIDs members)[((s.balancer.cursor (targetKey functionID t)).toNat + i) %
        (sortFunc compareIDs members).length]? := by
  induction calls generalizing s with
  | nil =>
    intro i hi
    exact absurd hi (Nat.not_lt_zero i)
  | cons c calls ih =>
    have hturn := hturns _ List.mem_cons_self
    have hlength : (machine.step s c).2.states.length < 2 ^ 64 :=
      lt_of_le_of_lt (length_run _ calls) htotal
    have hcount : Countable (machine.event s c) := by
      intro id
      exact lt_of_le_of_lt (outstanding_le _ id) hlength
    have hrest := ih (hlevel.step haccounted (step_does s c) hturn hlength) (accounted_step haccounted hcount)
      (paced_step hpaced (step_does s c)) (fun e he => hturns e (List.mem_cons_of_mem _ he)) htotal
    have hcons : choices functionID t s (c :: calls) =
        (choice functionID t (machine.event s c)).toList ++
          choices functionID t (machine.step s c).2 calls := by
      unfold choices
      rw [Machine.events, List.filterMap_cons]
      cases choice functionID t (machine.event s c) <;> rfl
    rw [hcons]
    have hdoes := step_does s c
    revert hturn hlength hrest
    unfold Machine.event
    generalize (machine.step s c).1 = out at hdoes
    generalize (machine.step s c).2 = s' at hdoes
    intro hturn hlength hrest
    cases hdoes with
    | refused | kept => exact hrest
    | released hr =>
      rw [cursor_release] at hrest
      exact hrest
    | @acquired functionID' t' endpoints found chosen helig hchosen =>
      rw [cursor_taken] at hrest
      by_cases hown : (functionID', t') = (functionID, t)
      · obtain ⟨rfl, rfl⟩ := Prod.mk.inj hown
        have hfirst := hlevel.chosen hnd helig (hturn.alone.own endpoints rfl)
          (hturn.timely.released endpoints rfl) hchosen
        have hnext : (s.balancer.cursor (targetKey functionID' t') + 1).toNat =
            (s.balancer.cursor (targetKey functionID' t')).toNat + 1 := by
          have hpace := hpaced (targetKey functionID' t')
          dsimp only at hlength
          rw [List.length_append, List.length_singleton] at hlength
          rw [UInt64.toNat_add]
          exact Nat.mod_eq_of_lt (by simp only [UInt64.toNat_one]; omega)
        rw [if_pos rfl, hnext] at hrest
        simp only [choice, if_true, Option.toList_some, List.singleton_append]
        intro i hi
        cases i with
        | zero =>
          rw [List.getElem?_cons_zero, Nat.add_zero, hfirst]
        | succ i =>
          rw [List.getElem?_cons_succ, hrest i (by simpa using hi)]
          congr 2
          omega
      · have hkey := hturn.steers functionID' t' endpoints rfl hown
        rw [if_neg (Ne.symm hkey)] at hrest
        simp only [choice, hown, if_false, Option.toList_none, List.nil_append]
        exact hrest

/-! ## Accounting, selection and fairness -/

theorem countable_of_total {calls : List Call} (h : (machine.run s calls).states.length < 2 ^ 64) :
    ∀ e ∈ machine.events s calls, Countable e := by
  intro e he id
  obtain ⟨front, rest, rfl, hpre, heq⟩ := Machine.mem_events he
  have hpost : e.post = (machine.step e.pre e.input).2 := by rw [heq]; rfl
  have hle := length_run (machine.step e.pre e.input).2 rest
  rw [hpre, ← Machine.run_cons, ← Machine.run_append] at hle
  rw [hpost, hpre]
  exact lt_of_le_of_lt (outstanding_le _ id) (lt_of_le_of_lt hle h)

theorem paced_new : Paced State.new := fun _ => Nat.le_refl 0

/--
**The balancer counts, prefers the least occupied and takes turns.** In every run in which no
identity ever has `2 ^ 64` Leases out, the occupancy of an identity is the number of its Leases
that are out and every `Acquire` selects accordingly. In any stretch of it in which a target is
alone with a fixed set of matching identities, from equal counts on: without releases the counts
stay within one of each other; and if each Lease is released before the next `Acquire`, no other
target uses the cursor and fewer than `2 ^ 64` Leases are handed out in all, then as many
consecutive choices as there are identities are a permutation of them.
-/
theorem balancer_counts_and_turns {before calls : List Call} {s : State}
    (hs : machine.run State.new before = s)
    (hcount : ∀ e ∈ machine.events State.new (before ++ calls), Countable e) :
    (∀ id, (machine.run s calls).load id = (machine.run s calls).outstanding id) ∧
    (∀ e ∈ machine.events s calls, ∀ functionID t endpoints lease,
      e.input = .acquire functionID t endpoints → e.output = some (.ok lease) →
      Selects e.pre functionID t endpoints lease) ∧
    (∀ functionID t members, (∀ a ∈ members, ∀ b ∈ members, s.load a = s.load b) →
      (∀ e ∈ machine.events s calls, Alone functionID t members e ∧ Keeps members e) →
      Balance.Even (machine.run s calls).load members) ∧
    (∀ functionID t members, members.Nodup → (∀ a ∈ members, ∀ b ∈ members, s.load a = s.load b) →
      (∀ e ∈ machine.events s calls, Turn functionID t members s.states.length e) →
      (machine.run s calls).states.length < 2 ^ 64 →
      ∀ j, j + members.length ≤ (choices functionID t s calls).length →
        (((choices functionID t s calls).drop j).take members.length).Perm members) := by
  subst hs
  rw [Machine.events_append] at hcount
  have haccounted := accounted_run accounted_new before fun e he =>
    hcount e (List.mem_append_left _ he)
  have hcount' := fun e he => hcount e (List.mem_append_right _ he)
  refine ⟨accounted_run haccounted calls hcount', ?_, ?_, ?_⟩
  · intro e he functionID t endpoints lease hinput houtput
    obtain ⟨-, -, -, -, heq⟩ := Machine.mem_events he
    have hout : e.output = (machine.step e.pre e.input).1 := by rw [heq]; rfl
    rw [hout, hinput] at houtput
    exact selects houtput
  · intro functionID t members hequal hcalls
    exact even_run haccounted (Balance.even_of_equal hequal) calls fun e he =>
      ⟨hcount' e he, hcalls e he⟩
  · intro functionID t members hnd hequal hturns htotal j hj
    have hlevel : ∃ level, Level members (machine.run State.new before).states.length level
        (machine.run State.new before) := by
      cases members with
      | nil => exact ⟨0, Nat.le_refl _, fun id hid => absurd hid List.not_mem_nil⟩
      | cons first rest =>
        refine ⟨(machine.run State.new before).load first, Nat.le_refl _, fun id hid => ?_⟩
        rw [List.drop_length, hequal id hid first List.mem_cons_self]
        rfl
    obtain ⟨level, hlevel⟩ := hlevel
    have hturned := choices_turns hnd calls hlevel haccounted (paced_run paced_new before) hturns
      htotal
    have hperm := sortFunc_perm compareIDs members
    have hlength := hperm.length_eq
    have hwindow := Balance.window_perm hturned (j := j) (by omega)
    rw [hlength] at hwindow
    exact hwindow.trans hperm

/-! ## Where counting ends, and a shared cursor -/

def sampleEndpoint (assignmentID : GoString) (epoch : UInt64) : Endpoint where
  assignment := { sampleIdentity assignmentID "version-1" with admissionEpoch := epoch }
  address := "10.0.0.7:8080"
  state := .ready

/-- The same version and generation at two admission epochs. -/
def sampleTarget (epoch : UInt64) : RouteTarget := ⟨"version-1", epoch, 1, samplePolicy, 10000⟩

def sampleEndpoints : List Endpoint :=
  [sampleEndpoint "a" 1, sampleEndpoint "b" 1, sampleEndpoint "c" 2]

def sampleMembers : List AssignmentIdentity :=
  [(sampleEndpoint "a" 1).assignment, (sampleEndpoint "b" 1).assignment]

def sampleAcquire (epoch : UInt64) : Call :=
  .acquire "function-1" (sampleTarget epoch) sampleEndpoints

/-- Two choices of one target with one of another in between. -/
def sharedCalls : List Call :=
  [sampleAcquire 1, .release (some 0), sampleAcquire 2, .release (some 1), sampleAcquire 1]

theorem sample_matching : Matching (sampleTarget 1) sampleMembers sampleEndpoints := by
  intro id
  constructor
  · intro hid
    simp only [sampleMembers, List.mem_cons, List.not_mem_nil, or_false] at hid
    rcases hid with rfl | rfl
    · exact ⟨sampleEndpoint "a" 1, by simp [sampleEndpoints], ⟨rfl, rfl, rfl, rfl⟩, rfl⟩
    · exact ⟨sampleEndpoint "b" 1, by simp [sampleEndpoints], ⟨rfl, rfl, rfl, rfl⟩, rfl⟩
  · rintro ⟨e, he, hfits, rfl⟩
    simp only [sampleEndpoints, List.mem_cons, List.not_mem_nil, or_false] at he
    rcases he with rfl | rfl | rfl
    · simp [sampleMembers]
    · simp [sampleMembers]
    · exact absurd hfits.epoch (by decide)

theorem sample_epoch {id : AssignmentIdentity} (h : id ∈ sampleMembers) : id.admissionEpoch = 1 := by
  simp only [sampleMembers, List.mem_cons, List.not_mem_nil, or_false] at h
  rcases h with rfl | rfl
  · rfl
  · rfl

theorem sample_alone (h : c = sampleAcquire 1 ∨ c = sampleAcquire 2 ∨ ∃ state, c = .release state) :
    Alone "function-1" (sampleTarget 1) sampleMembers (machine.event s c) := by
  constructor
  · intro endpoints hinput
    change c = _ at hinput
    rcases h with rfl | rfl | ⟨state, rfl⟩
    · cases hinput
      exact sample_matching
    · exact absurd (Call.acquire.inj hinput).2.1 (by decide)
    · cases hinput
  · intro functionID t endpoints lease hinput houtput hother hmem
    change c = _ at hinput
    change (machine.step s c).1 = _ at houtput
    rcases h with rfl | rfl | ⟨state, rfl⟩
    · cases hinput
      exact hother rfl
    · cases hinput
      have hepoch := (selects houtput).fits.epoch
      rw [sample_epoch hmem] at hepoch
      exact absurd hepoch (by decide)
    · cases hinput

/-- A balancer that has handed out `n` Leases of one Endpoint. -/
def crowded (n : ℕ) : State :=
  machine.run State.new
    (List.replicate n (.acquire "function-1" (sampleTarget 1) [sampleEndpoint "a" 1]))

/-- The count goes round, the Leases do not. -/
theorem crowded_counts (n : ℕ) :
    (crowded n).balancer.inflightOf (sampleEndpoint "a" 1).assignment = UInt64.ofNat n ∧
      (crowded n).outstanding (sampleEndpoint "a" 1).assignment = n := by
  have hfound : eligible "function-1" (sampleTarget 1) [sampleEndpoint "a" 1] =
      .ok [sampleEndpoint "a" 1] := by decide +kernel
  unfold crowded
  induction n with
  | zero => exact ⟨rfl, rfl⟩
  | succ n ih =>
    rw [List.replicate_succ', Machine.run_append, Machine.run_cons, Machine.run_nil]
    generalize machine.run State.new _ = s at ih ⊢
    have hdoes := step_does s (.acquire "function-1" (sampleTarget 1) [sampleEndpoint "a" 1])
    generalize (machine.step s _).1 = out at hdoes
    generalize (machine.step s _).2 = s' at hdoes ⊢
    cases hdoes with
    | refused h =>
      cases hfound.symm.trans h
    | @acquired _ _ _ found chosen helig hchosen =>
      have heq : found = [sampleEndpoint "a" 1] :=
        Except.ok.inj ((eligible_ok.mpr helig).symm.trans hfound)
      subst heq
      have hmem := (mem_tied.mp (List.mem_of_getElem? hchosen)).1
      rw [List.mem_singleton] at hmem
      subst hmem
      constructor
      · have hprev := ih.1
        unfold Balancer.inflightOf at hprev
        simp only [Balancer.inflightOf, Balancer.taken, GoMap.get?_set_self, Option.getD_some]
        rw [hprev]
        simp [UInt64.ofNat_add]
      · unfold State.outstanding
        dsimp only
        rw [unreleased_append, if_pos rfl]
        exact congrArg (· + 1) ih.2

theorem shared_choices : choices "function-1" (sampleTarget 1) State.new sharedCalls =
    [(sampleEndpoint "a" 1).assignment, (sampleEndpoint "a" 1).assignment] := by
  decide +kernel

theorem timely_of_done (h : ∀ r ∈ s.states, r.done = true) :
    Timely "function-1" (sampleTarget 1) sampleMembers 0 (machine.event s c) := by
  refine ⟨fun endpoints _ pointer r _ hr _ => ?_, fun _ _ _ _ _ => Nat.zero_le _⟩
  exact h r (List.mem_of_getElem? hr)

theorem timely_release {state : Option Nat} :
    Timely "function-1" (sampleTarget 1) sampleMembers 0 (machine.event s (.release state)) := by
  refine ⟨fun endpoints hinput => ?_, fun _ _ _ _ _ => Nat.zero_le _⟩
  cases hinput

/--
`2 ^ 64` Leases of one Endpoint leave its occupancy at zero. And with two matching Endpoints, the
same one is chosen twice in a row although each Lease is released at once: another target of the
version and generation has moved the cursor in between, without touching the two.
-/
theorem balancer_wraps_and_shares :
    ((crowded (2 ^ 64)).load (sampleEndpoint "a" 1).assignment = 0 ∧
      (crowded (2 ^ 64)).outstanding (sampleEndpoint "a" 1).assignment = 2 ^ 64) ∧
    (∀ e ∈ machine.events State.new sharedCalls,
      Alone "function-1" (sampleTarget 1) sampleMembers e ∧
        Timely "function-1" (sampleTarget 1) sampleMembers 0 e) ∧
    (∀ id, State.new.load id = 0) ∧ sampleMembers.Nodup ∧
    choices "function-1" (sampleTarget 1) State.new sharedCalls =
      [(sampleEndpoint "a" 1).assignment, (sampleEndpoint "a" 1).assignment] := by
  refine ⟨?_, ?_, fun _ => rfl, by decide +kernel, shared_choices⟩
  · obtain ⟨hcount, hout⟩ := crowded_counts (2 ^ 64)
    refine ⟨?_, hout⟩
    unfold State.load
    rw [hcount, UInt64.toNat_ofNat']
    exact Nat.mod_self _
  · have hfirst : ∀ r ∈ (machine.run State.new (sharedCalls.take 2)).states, r.done = true := by
      decide +kernel
    have hsecond : ∀ r ∈ (machine.run State.new (sharedCalls.take 4)).states, r.done = true := by
      decide +kernel
    simp only [sharedCalls, Machine.events, List.forall_mem_cons]
    exact ⟨⟨sample_alone (.inl rfl), timely_of_done fun r hr => absurd hr List.not_mem_nil⟩,
      ⟨sample_alone (.inr (.inr ⟨_, rfl⟩)), timely_release⟩,
      ⟨sample_alone (.inr (.inl rfl)), timely_of_done hfirst⟩,
      ⟨sample_alone (.inr (.inr ⟨_, rfl⟩)), timely_release⟩,
      ⟨sample_alone (.inl rfl), timely_of_done hsecond⟩, fun _ h => absurd h List.not_mem_nil⟩

/-- Two choices, the Lease of the first released before the second. -/
def turnCalls : List Call := [sampleAcquire 1, .release (some 0), sampleAcquire 1]

theorem turns_steer (h : c = sampleAcquire 1 ∨ ∃ state, c = .release state) :
    Steers "function-1" (sampleTarget 1) (machine.event s c) := by
  intro functionID t endpoints hinput hother
  change c = _ at hinput
  rcases h with rfl | ⟨state, rfl⟩
  · cases hinput
    exact absurd rfl hother
  · cases hinput

theorem turnCalls_turn : ∀ e ∈ machine.events State.new turnCalls,
    Turn "function-1" (sampleTarget 1) sampleMembers State.new.states.length e := by
  have hreleased : ∀ r ∈ (machine.run State.new (turnCalls.take 2)).states, r.done = true := by
    decide +kernel
  simp only [turnCalls, Machine.events, List.forall_mem_cons]
  exact ⟨⟨sample_alone (.inl rfl), timely_of_done fun r hr => absurd hr List.not_mem_nil,
      turns_steer (.inl rfl)⟩,
    ⟨sample_alone (.inr (.inr ⟨_, rfl⟩)), timely_release, turns_steer (.inr ⟨_, rfl⟩)⟩,
    ⟨sample_alone (.inl rfl), timely_of_done hreleased, turns_steer (.inl rfl)⟩,
    fun _ h => absurd h List.not_mem_nil⟩

/-- Both Endpoints have had their turn. -/
theorem balancer_counts_and_turns_sample :
    (((choices "function-1" (sampleTarget 1) State.new turnCalls).drop 0).take 2).Perm
      sampleMembers := by
  have htotal : (machine.run State.new turnCalls).states.length < 2 ^ 64 := by decide +kernel
  have hlength : (choices "function-1" (sampleTarget 1) State.new turnCalls).length = 2 := by
    decide +kernel
  have hcount : ∀ e ∈ machine.events State.new ([] ++ turnCalls), Countable e :=
    countable_of_total htotal
  refine (balancer_counts_and_turns rfl hcount).2.2.2 "function-1" (sampleTarget 1)
    sampleMembers (by decide +kernel) (fun _ _ _ _ => rfl) turnCalls_turn htotal 0 ?_
  rw [Machine.run_nil, hlength]
  exact Nat.le_refl 2

end MiniCloud.GatewayRoute
