import MiniCloud.Proof.OperationSteps
import MiniCloud.Proof.RequestDigest

/-!
# Management operations are exactly-once

The system interleaves the phases of one operation at a time with admission steps. Two facts
carry everything: a key that has been looked up or prepared has no record yet, and a plan is still
good when it is committed, since only the holder of the lock writes the catalog. So the step that
changes the stores for a key is the step that records the key, and there is one of it.
-/

namespace MiniCloud.LocalController

open Lib Problem Digest Model ControlPlane Op

variable {σ : Type} {src : Sources σ}

variable {s : System σ} {operation : Operation} {c : Controller σ} {request : Request} {d : SHA256}
  {k : OperationKey} {plan : Plan} {move : Move σ} {r : Record} {view : Option View}

/-! ## The invariant -/

/-- The answer is the record of the key, found under an equal request digest. -/
structure Replayed (l : Ledger) (operation : Operation) (completed : CompletionResult)
    (err : Option GoError) : Prop where
  found : l.records.get? operation.key = some completed.record
  asked : ∃ request, operation.input.request = .ok request ∧
    request.digest = .ok completed.record.digest
  failed : completed.record.outcome.status = .failed ↔ err.isSome

def HolderInv (c : Controller σ) : Phase → Prop
  | .lookedUp operation request =>
    operation.input.request = .ok request ∧ c.ledger.records.get? operation.key = none
  | .prepared operation request plan =>
    operation.input.request = .ok request ∧ c.ledger.records.get? operation.key = none ∧
      Planned c.stores operation.input plan
  | .replying operation result view err =>
    (view.isSome → err = none ∧ ∃ completed, result = some completed ∧
      completed.disposition = .applied) ∧
    ∀ completed, result = some completed → completed.disposition ≠ .applied →
      Replayed c.ledger operation completed err

/-- A reply that carries neither a view nor a record. -/
theorem holderInv_error {err : Option GoError} :
    HolderInv c (.replying operation none none err) := by
  refine ⟨fun h => ?_, fun completed h => ?_⟩
  · cases h
  · cases h

structure SystemInv (s : System σ) : Prop where
  stores : s.controller.stores.Reachable
  ledger : LedgerInv defaultLedgerConfig s.controller.ledger
  holder : ∀ phase, s.holder = some phase → HolderInv s.controller phase

theorem systemInv_new (sources : σ) : SystemInv (newSystem sources) := by
  refine ⟨?_, ?_, ?_⟩
  · exact Machine.Reachable.init
  · exact ledgerInv_new defaultLedgerConfig
  · intro phase h
    cases h

/-- The invariant looks at the stores and the ledger only. -/
theorem holderInv_kept {c' : Controller σ} {phase : Phase} (hk : c'.kept = c.kept)
    (h : HolderInv c phase) : HolderInv c' phase := by
  have hs : c'.stores = c.stores := congrArg Prod.fst hk
  have hl : c'.ledger = c.ledger := congrArg Prod.snd hk
  cases phase with
  | lookedUp operation request => simpa [HolderInv, hl] using h
  | prepared operation request plan => simpa [HolderInv, hl, hs] using h
  | replying operation result view err =>
    exact ⟨h.1, fun completed hc hne => hl ▸ h.2 completed hc hne⟩

theorem systemInv_kept {c' : Controller σ} (h : SystemInv s) (hk : c'.kept = s.controller.kept)
    {holder : Option Phase} (hh : ∀ phase, holder = some phase → HolderInv s.controller phase) :
    SystemInv ⟨c', holder⟩ where
  stores := by
    rw [show c'.stores = s.controller.stores from congrArg Prod.fst hk]
    exact h.stores
  ledger := by
    rw [show c'.ledger = s.controller.ledger from congrArg Prod.snd hk]
    exact h.ledger
  holder := fun phase hp => holderInv_kept hk (hh phase hp)

/-! ## Looking up -/

theorem validate_not_found {e : GoError} (h : k.validate = .error e) :
    (problemCode e).text ≠ Code.text .notFound := by
  obtain ⟨c, hc, rfl⟩ := checks_error h
  simp only [List.mem_cons, List.not_mem_nil, or_false] at hc
  have hne : Code.text .invalidArgument ≠ Code.text .notFound := by decide
  rcases hc with rfl | rfl | rfl <;> exact hne

/-- The lookup of a key, by what the ledger knows of it. -/
theorem exec_lookupOperation (l : Ledger) (k : OperationKey) (request : Request) :
    exec (lookupOperation k request) l =
      (match k.validate with
        | .error e => .error e
        | .ok () =>
          match l.slot k with
          | .dead _ => .error expiredError
          | .absent => .ok none
          | .live r =>
            match request.digest with
            | .error e => .error e
            | .ok d => if r.digest = d then .ok (some (cloneRecord r)) else .error conflictError,
        l) := by
  unfold lookupOperation
  rw [exec_bind, exec_attempt, exec_lookup]
  cases hk : k.validate with
  | error e =>
    have hne := validate_not_found hk
    simp only [if_neg hne, exec_throw]
  | ok u =>
    cases l.slot k with
    | absent | dead => rfl
    | live r =>
      simp only [exec_ofExcept_bind]
      cases request.digest with
      | error e => rfl
      | ok d =>
        by_cases hd : r.digest = d
        · have hsame : ((cloneRecord r).digest != d) = false := by simp [cloneRecord, hd]
          simp only [exec_failIf_bind, hsame, hd, if_true, Bool.false_eq_true, if_false, exec_pure]
        · have hother : ((cloneRecord r).digest != d) = true := by simp [cloneRecord, hd]
          simp only [exec_failIf_bind, hother, hd, if_true, if_false]

/-- The phase after the lookup: a key goes on to be prepared only if it has no record. -/
theorem holderInv_lookedUp (hl : LedgerInv defaultLedgerConfig c.ledger)
    (hrequest : operation.input.request = .ok request) :
    HolderInv c
      (operation.lookedUp request (exec (lookupOperation operation.key request) c.ledger).1) := by
  rw [exec_lookupOperation]
  cases operation.key.validate with
  | error e => exact holderInv_error
  | ok u =>
    cases hslot : c.ledger.slot operation.key with
    | absent => exact ⟨hrequest, (slot_absent.mp hslot).2⟩
    | dead t => exact holderInv_error
    | live r =>
      have hr := hl.slot_live.mp hslot
      cases hdigest : request.digest with
      | error e => exact holderInv_error
      | ok d =>
        by_cases hd : r.digest = d
        · simp only [if_pos hd, (hl.records _ _ hr).2.2]
          refine ⟨nofun, ?_⟩
          rintro completed heq -
          cases heq
          refine ⟨hr, ⟨request, hrequest, hd ▸ hdigest⟩, ?_⟩
          by_cases hfailed : r.outcome.status = .failed
          · simp [hfailed]
          · simp [hfailed]
        · simp only [if_neg hd]
          exact holderInv_error

/-! ## What a step does -/

/-- A step is quiet, or an admission command, or the commit of the operation that holds the lock. -/
inductive Effect (s : System σ) : Move σ → System σ → Prop
  | quiet (move : Move σ) (s' : System σ) (hk : s'.controller.kept = s.controller.kept)
      (hh : ∀ phase, s'.holder = some phase → HolderInv s.controller phase) : Effect s move s'
  | admitted (admission : Admission) (lastCommand : CommandMeta) (sources : σ) :
      Effect s (.admission admission lastCommand sources)
        (s.admission admission lastCommand sources).2
  | committed (operation : Operation) (request : Request) (plan : Plan)
      (h : s.holder = some (.prepared operation request plan)) (phase : Phase)
      (c : Controller σ) (hc : Commits s.controller operation request plan (phase, c)) :
      Effect s .commit ⟨c, some phase⟩

theorem effect_call (hi : SystemInv s) (ctx : Option GoError) (operation : Operation) :
    Effect s (.call ctx operation) (s.call ctx operation).2 := by
  unfold System.call
  split
  · exact .quiet _ _ rfl hi.holder
  · exact .quiet _ _ rfl hi.holder
  · exact .quiet _ _ rfl hi.holder
  · rename_i request _ hrequest _
    refine .quiet _ _ ?_ ?_
    · rw [exec_lookupOperation]
    · intro phase hphase
      cases hphase
      exact holderInv_lookedUp hi.ledger hrequest

theorem effect_prepare (hi : SystemInv s) : Effect s .prepare (s.prepare src).2 := by
  unfold System.prepare
  split
  · rename_i operation request hholder
    obtain ⟨hrequest, hnew⟩ := hi.holder _ hholder
    obtain ⟨hkept, hplan⟩ := leaves_prepare src operation.input s.controller
    rcases he : exec (operation.input.prepare src) s.controller with ⟨err | plan, c⟩
    · rw [he] at hkept
      refine .quiet _ _ hkept ?_
      rintro _ ⟨⟩
      exact holderInv_error
    · rw [he] at hkept hplan
      refine .quiet _ _ hkept ?_
      rintro _ ⟨⟩
      exact ⟨hrequest, hnew, hplan plan rfl⟩
  · exact .quiet _ _ rfl hi.holder

theorem effect (hi : SystemInv s) (move : Move σ) : Effect s move (s.step src move).2 := by
  cases move with
  | call ctx operation => exact effect_call hi ctx operation
  | prepare => exact effect_prepare hi
  | commit =>
    show Effect s .commit s.commit.2
    unfold System.commit
    split
    · rename_i operation request plan hholder
      obtain ⟨-, hnew, hplan⟩ := hi.holder _ hholder
      exact .committed operation request plan hholder _ _
        (commits s.controller operation request plan hnew hplan)
    · exact .quiet _ _ rfl hi.holder
  | reply =>
    show Effect s .reply s.reply.2
    unfold System.reply
    split
    · exact .quiet _ _ rfl fun phase hphase => by cases hphase
    · exact .quiet _ _ rfl hi.holder
  | admission admission lastCommand sources => exact .admitted admission lastCommand sources
  | resolveVersion result => exact .quiet _ _ rfl hi.holder

/-! ## Keeping the invariant -/

/-- Admission writes neither the catalog nor the routes. -/
theorem admission_frame (s : Stores) (admission : Admission) :
    (exec admission.command.run s).2.catalog = s.catalog ∧
      (exec admission.command.run s).2.routes = s.routes := by
  rcases step_commit s admission.command with hsame | ⟨reply, s', hstep, hc⟩
  · exact ⟨congrArg Stores.catalog hsame, congrArg Stores.routes hsame⟩
  · rw [show (exec admission.command.run s).2 = s' from congrArg Prod.snd hstep]
    cases admission with
    | start command =>
      cases hc with
      | validationStarted => exact ⟨rfl, rfl⟩
    | complete command =>
      cases hc with
      | validationFailed | validationPassed => exact ⟨rfl, rfl⟩

theorem systemInv_admission (hi : SystemInv s) (admission : Admission) (lastCommand : CommandMeta)
    (sources : σ) : SystemInv (s.admission admission lastCommand sources).2 where
  stores := Machine.Reachable.tail admission.command hi.stores
  ledger := hi.ledger
  holder := by
    intro phase hphase
    have h := hi.holder phase hphase
    cases phase with
    | lookedUp | replying => exact h
    | prepared operation request plan =>
      exact ⟨h.1, h.2.1, h.2.2.congr (admission_frame s.controller.stores admission).1⟩

theorem systemInv_committed {phase : Phase} (hi : SystemInv s)
    (hc : Commits s.controller operation request plan (phase, c)) : SystemInv ⟨c, some phase⟩ := by
  cases hc with
  | unrecorded err =>
    refine ⟨hi.stores, hi.ledger, ?_⟩
    rintro _ ⟨⟩
    exact holderInv_error
  | failed err completion d hins hkey hrequest hout result hres =>
    refine ⟨hi.stores, ledgerInv_insert hi.ledger hins, ?_⟩
    rintro _ ⟨⟩
    refine ⟨nofun, ?_⟩
    rintro _ ⟨⟩ hne
    exact (hne hres).elim
  | succeeded view stores d hins hs result hres =>
    refine ⟨hs.reachable hi.stores, ledgerInv_insert hi.ledger hins, ?_⟩
    rintro _ ⟨⟩
    refine ⟨fun _ => ⟨rfl, result, rfl, hres⟩, ?_⟩
    rintro _ ⟨⟩ hne
    exact (hne hres).elim

theorem systemInv_effect {s' : System σ} (hi : SystemInv s) (he : Effect s move s') :
    SystemInv s' := by
  cases he with
  | quiet _ s' hk hh => exact systemInv_kept hi hk hh
  | admitted admission lastCommand sources =>
    exact systemInv_admission hi admission lastCommand sources
  | committed operation request plan h phase c hc => exact systemInv_committed hi hc

theorem systemInv_reachable {sources : σ}
    (h : (controllerMachine src).Reachable (newSystem sources) s) : SystemInv s :=
  Machine.invariant (systemInv_new sources)
    (fun _ move _ hi => systemInv_effect hi (effect hi move)) h

/-! ## Records and mutations -/

def System.record (s : System σ) (k : OperationKey) : Option Record :=
  s.controller.ledger.records.get? k

/-- The step belongs to a call with key `k`. -/
def By (k : OperationKey) (e : ControllerEvent σ) : Prop :=
  match e.input with
  | .call _ operation => operation.key = k
  | .prepare | .commit | .reply => ∃ phase, e.pre.holder = some phase ∧ phase.operation.key = k
  | .admission _ _ _ | .resolveVersion _ => False

def Mutates (e : ControllerEvent σ) : Prop := e.post.controller.stores ≠ e.pre.controller.stores

/-- What a record says about the step that wrote it. -/
def Truthful (s : Stores) (input : OperationInput) (r : Record) (s' : Stores) : Prop :=
  (r.outcome.status = .failed ∧ s' = s) ∨
    (r.outcome.status = .succeeded ∧ (∀ x ∈ r.outcome.affectedResources, Present s' x) ∧
      (s' ≠ s ∨ (s' = s ∧ Unchanging s input)))

theorem truthful_performed {s s' : Stores} {input : OperationInput} {key : OperationKey}
    (hr : s.Reachable) (hp : Planned s input plan) (hs : Performs s plan.storeCommand s') :
    Truthful s input ((plan.completion key request).record d) s' := by
  -- a stored outcome is a copy, with its resources in order
  have hlist : ∀ {Q : AffectedResource → Prop}, (∀ x ∈ plan.affectedResources, Q x) →
      ∀ x ∈ ((plan.completion key request).record d).outcome.affectedResources, Q x :=
    fun h x hx => h x (mem_sortFunc.mp hx)
  obtain ⟨reply, -, hs⟩ := hs
  generalize hcommand : plan.storeCommand = command at hs
  cases hs with
  | kept command function hc heq =>
    obtain ⟨hun, hpresent⟩ := present_kept hr hp hcommand hc heq
    exact .inr ⟨rfl, hlist hpresent, .inr ⟨rfl, hun⟩⟩
  | committed _ _ _ hc =>
    subst hcommand
    exact .inr ⟨rfl, hlist (present_committed hr hp hc), .inl (commit_changes hr hc)⟩

/-- The step that writes the record of the operation in the lock. -/
structure Writes (s : System σ) (move : Move σ) (s' : System σ) (operation : Operation)
    (r : Record) : Prop where
  commit : move = .commit
  held : ∃ request plan, s.holder = some (.prepared operation request plan)
  asked : ∃ request, operation.input.request = .ok request ∧ request.digest = .ok r.digest
  unrecorded : s.record operation.key = none
  records : ∀ k, s'.record k = if k = operation.key then some r else s.record k
  truthful : Truthful s.controller.stores operation.input r s'.controller.stores
  planned : r.outcome.status = .succeeded → ∃ plan,
    Planned s.controller.stores operation.input plan ∧ r.outcome = cloneOutcome plan.outcome ∧
      Performs s.controller.stores plan.storeCommand s'.controller.stores

/-- **One step**: it leaves every record as it is, or writes one. Only the step that writes a
record changes the stores for an operation. -/
theorem step_records {s' : System σ} (hi : SystemInv s) (he : Effect s move s') :
    ((∀ k, s'.record k = s.record k) ∧ (s'.controller.stores = s.controller.stores ∨
        ∃ admission lastCommand sources, move = .admission admission lastCommand sources)) ∨
      ∃ operation r, Writes s move s' operation r := by
  cases he with
  | quiet _ s' hk hh =>
    have hs : s'.controller.stores = s.controller.stores := congrArg Prod.fst hk
    have hl : s'.controller.ledger = s.controller.ledger := congrArg Prod.snd hk
    exact .inl ⟨fun k => by rw [System.record, System.record, hl], .inl hs⟩
  | admitted admission lastCommand sources =>
    exact .inl ⟨fun k => rfl, .inr ⟨admission, lastCommand, sources, rfl⟩⟩
  | committed operation request plan h phase c hc =>
    obtain ⟨hrequest, hnew, hplan⟩ := hi.holder _ h
    cases hc with
    | unrecorded err => exact .inl ⟨fun k => rfl, .inl rfl⟩
    | failed err completion d hins hkey hreq hout result hres =>
      have hfailed : (completion.record d).outcome.status = .failed := by
        rw [Completion.record, hout]
        rfl
      refine .inr ⟨operation, completion.record d, {
        commit := rfl
        held := ⟨request, plan, h⟩
        asked := ⟨request, hrequest, hreq ▸ hins.digest⟩
        unrecorded := hnew
        records := fun k => ?_
        truthful := .inl ⟨hfailed, rfl⟩
        planned := fun hs => ?_ }⟩
      · rw [← hkey]
        exact GoMap.get?_set _ _ _ _
      · cases hfailed.symm.trans hs
    | succeeded view stores d hins hs result hres =>
      exact .inr ⟨operation, (plan.completion operation.key request).record d, {
        commit := rfl
        held := ⟨request, plan, h⟩
        asked := ⟨request, hrequest, hins.digest⟩
        unrecorded := hnew
        records := fun k => GoMap.get?_set _ _ _ _
        truthful := truthful_performed hi.stores hplan hs
        planned := fun _ => ⟨plan, hplan, rfl, hs⟩ }⟩

/-! ## The history of a key -/

/-- The record of `k` was written by one step of the run, and no other step of a call with that
key has changed the stores. -/
def Accounted (k : OperationKey) (r : Record) (events : List (ControllerEvent σ)) : Prop :=
  ∃ before e after operation, events = before ++ e :: after ∧ operation.key = k ∧
    Writes e.pre e.input e.post operation r ∧ ∀ f ∈ before ++ after, By k f → ¬ Mutates f

def History (events : List (ControllerEvent σ)) (s : System σ) : Prop :=
  (∀ k, s.record k = none → ∀ e ∈ events, By k e → ¬ Mutates e) ∧
    ∀ k r, s.record k = some r → Accounted k r events

theorem Accounted.snoc {events : List (ControllerEvent σ)} {e : ControllerEvent σ}
    (h : Accounted k r events) (he : By k e → ¬ Mutates e) : Accounted k r (events ++ [e]) := by
  obtain ⟨before, w, after, operation, rfl, hk, hw, hothers⟩ := h
  refine ⟨before, w, after ++ [e], operation, by simp, hk, hw, fun f hf => ?_⟩
  rw [← List.append_assoc, List.mem_append, List.mem_singleton] at hf
  rcases hf with hf | rfl
  · exact hothers f hf
  · exact he

/-- A step that is not `k`'s own commit changes no store for `k`. -/
theorem not_mutates (hi : SystemInv s)
    (hk : ∀ operation r, Writes s move ((controllerMachine src).step s move).2 operation r →
      operation.key ≠ k)
    (hby : By k ((controllerMachine src).event s move)) :
    ¬ Mutates ((controllerMachine src).event s move) := by
  have he : Effect s move ((controllerMachine src).step s move).2 := effect hi move
  rcases step_records hi he with ⟨-, hs | ⟨a, l, x, rfl⟩⟩ | ⟨op, r, hw⟩
  · exact fun h => h hs
  · exact hby.elim
  · exfalso
    obtain ⟨request, plan, hheld⟩ := hw.held
    obtain rfl := hw.commit
    obtain ⟨phase, hphase, hkey⟩ := hby
    have heq : s.holder = some phase := hphase
    cases hheld.symm.trans heq
    exact hk op r hw hkey

theorem history_step {events : List (ControllerEvent σ)} (move : Move σ) (hi : SystemInv s)
    (h : History events s) :
    History (events ++ [(controllerMachine src).event s move])
      ((controllerMachine src).step s move).2 := by
  have he : Effect s move ((controllerMachine src).step s move).2 := effect hi move
  rcases step_records hi he with ⟨hsame, hstores⟩ | ⟨operation, r, hw⟩
  · -- nothing is written, and what is left of the stores' changes is admission
    have hquiet : ∀ k, By k ((controllerMachine src).event s move) →
        ¬ Mutates ((controllerMachine src).event s move) := by
      intro k
      refine not_mutates hi fun operation r hw hkey => ?_
      have hnone := hw.unrecorded
      have hsome := hw.records operation.key
      rw [if_pos rfl, hsame, hnone] at hsome
      cases hsome
    refine ⟨fun k hk e hmem => ?_, fun k r hk => ?_⟩
    · rw [hsame] at hk
      rw [List.mem_append, List.mem_singleton] at hmem
      rcases hmem with hmem | rfl
      · exact h.1 k hk e hmem
      · exact hquiet k
    · rw [hsame] at hk
      exact (h.2 k r hk).snoc (hquiet k)
  · have hother : ∀ k, k ≠ operation.key → By k ((controllerMachine src).event s move) →
        ¬ Mutates ((controllerMachine src).event s move) := by
      intro k hk
      refine not_mutates hi fun operation' r' hw' hkey => ?_
      obtain ⟨request, plan, hheld⟩ := hw.held
      obtain ⟨request', plan', hheld'⟩ := hw'.held
      cases hheld.symm.trans hheld'
      exact hk hkey.symm
    refine ⟨fun k hk e hmem => ?_, fun k r' hk => ?_⟩
    · rw [hw.records] at hk
      split at hk <;> rename_i hkey
      · cases hk
      · rw [List.mem_append, List.mem_singleton] at hmem
        rcases hmem with hmem | rfl
        · exact h.1 k hk e hmem
        · exact hother k hkey
    · rw [hw.records] at hk
      split at hk <;> rename_i hkey
      · -- the key just recorded: no earlier step has changed the stores for it
        subst hkey
        obtain rfl := Option.some.inj hk
        refine ⟨events, _, [], operation, rfl, rfl, hw, fun f hf => ?_⟩
        rw [List.append_nil] at hf
        exact h.1 operation.key hw.unrecorded f hf
      · exact (h.2 k r' hk).snoc (hother k hkey)

theorem history (sources : σ) (moves : List (Move σ)) :
    History ((controllerMachine src).events (newSystem sources) moves)
      ((controllerMachine src).run (newSystem sources) moves) := by
  have hnew : History (σ := σ) [] (newSystem sources) := by
    refine ⟨fun k _ e he => ?_, fun k r hk => ?_⟩
    · cases he
    · cases hk
  exact Machine.trace hnew
    (fun events s move hr h => history_step move (systemInv_reachable hr) h) moves

/-! ## Replies -/

/-- A call that finds its record goes straight to its reply. -/
theorem call_replay {ctx : Option GoError} (hi : SystemInv s)
    (hrequest : operation.input.request = .ok request) (hr : s.record operation.key = some r)
    (hd : request.digest = .ok r.digest) :
    (s.call ctx operation).2.controller = s.controller ∧
      (ctx = none → s.holder = none → ∃ err, (s.call ctx operation).2.holder =
        some (.replying operation (some ⟨replayDisposition r, r⟩) none err)) := by
  have hkey : operation.key.validate = .ok () := (hi.ledger.records _ _ hr).2.1
  have hclone : cloneRecord r = r := (hi.ledger.records _ _ hr).2.2
  have hslot : s.controller.ledger.slot operation.key = .live r := hi.ledger.slot_live.mpr hr
  have hlooked : exec (lookupOperation operation.key request) s.controller.ledger =
      (.ok (some r), s.controller.ledger) := by
    rw [exec_lookupOperation, hkey, hslot, hd]
    simp only [if_true, hclone]
  unfold System.call
  rw [hrequest]
  cases ctx with
  | some err => exact ⟨rfl, nofun⟩
  | none =>
    cases hholder : s.holder with
    | some phase => exact ⟨rfl, nofun⟩
    | none =>
      simp only [checkContext, hlooked]
      exact ⟨trivial, fun _ _ => ⟨_, rfl⟩⟩

/-- A step of a call that is answered from the ledger. Whatever the step, the controller with its
stores, its ledger, its last command and its sources is untouched, and the call never gets to
prepare. -/
def Replays (e : ControllerEvent σ) : Prop :=
  (∀ ctx operation request r, e.input = .call ctx operation →
      operation.input.request = .ok request → e.pre.record operation.key = some r →
      request.digest = .ok r.digest →
      e.post.controller = e.pre.controller ∧
        (ctx = none → e.pre.holder = none → ∃ err, e.post.holder =
          some (.replying operation (some ⟨replayDisposition r, r⟩) none err))) ∧
    ∀ operation result view err, e.pre.holder = some (.replying operation result view err) →
      e.input = .prepare ∨ e.input = .commit ∨ e.input = .reply →
      e.post.controller = e.pre.controller ∧
        (e.post.holder = e.pre.holder ∨ (e.input = .reply ∧ e.post.holder = none))

theorem replays (move : Move σ) (hi : SystemInv s) :
    Replays ((controllerMachine src).event s move) := by
  refine ⟨?_, ?_⟩
  · rintro ctx operation request r rfl hrequest hr hd
    exact call_replay hi hrequest hr hd
  · rintro operation result view err (hh : s.holder = _) (rfl | rfl | rfl)
    · show (s.prepare src).2.controller = _ ∧ ((s.prepare src).2.holder = s.holder ∨ _)
      unfold System.prepare
      rw [hh]
      exact ⟨rfl, .inl hh⟩
    · show s.commit.2.controller = _ ∧ (s.commit.2.holder = s.holder ∨ _)
      unfold System.commit
      rw [hh]
      exact ⟨rfl, .inl hh⟩
    · show s.reply.2.controller = _ ∧ (_ ∨ _ ∧ s.reply.2.holder = none)
      unfold System.reply
      rw [hh]
      exact ⟨rfl, .inr ⟨rfl, rfl⟩⟩

/-! ## Tokens -/

/-- The result carries a plaintext token. -/
def Answer.HasToken (a : Answer) : Prop :=
  ∃ v : FunctionView, a.view = some (.function v) ∧ v.invocationToken ≠ []

def Answer.Applied (a : Answer) : Prop :=
  ∃ completed, a.result = some completed ∧ completed.disposition = .applied

theorem resolveFunctionView_token {s : Stores} {id : GoString} {v : FunctionView}
    (h : resolveFunctionView s r id = .ok v) : v.invocationToken = [] := by
  have hread : ∀ functionID, (wrapping "resolving function operation result"
      (s.catalog.getFunction functionID) >>= fun found =>
        Except.ok (⟨found.1, found.2, []⟩ : FunctionView)) = .ok v → v.invocationToken = [] := by
    intro functionID h
    obtain ⟨found, -, h⟩ := bind_ok.mp h
    cases h
    rfl
  unfold resolveFunctionView at h
  dsimp only at h
  split at h
  · exact hread _ h
  · split at h
    · cases h
    · exact hread _ h

theorem functionOperationResult_token {s : Stores} {result : CompletionResult} {id : GoString}
    (h : (functionOperationResult s result view id).HasToken) :
    (functionOperationResult s result view id).Applied := by
  unfold functionOperationResult at h ⊢
  cases hv : functionResultView s result view id with
  | error err =>
    rw [hv] at h
    obtain ⟨v, hnone, -⟩ := h
    cases hnone
  | ok w =>
    rw [hv] at h
    obtain ⟨v, heq, htoken⟩ := h
    cases heq
    refine ⟨result, rfl, ?_⟩
    -- a resolved view has no token, so the view is the captured one
    unfold functionResultView at hv
    split at hv
    · assumption
    · exact (htoken (resolveFunctionView_token hv)).elim

theorem operation_answer_token {result : Option CompletionResult} {err : Option GoError}
    (hi : HolderInv c (.replying operation result view err))
    (h : (operation.answer c.stores result view err).HasToken) :
    (operation.answer c.stores result view err).Applied := by
  unfold Operation.answer at h ⊢
  split at h
  · rename_i completed
    have hview : ∀ {a : Answer}, a.result = some completed → a.view = view → a.HasToken →
        a.Applied := by
      rintro a hresult rfl ⟨v, hv, -⟩
      obtain ⟨-, completed', heq, happlied⟩ := hi.1 (by rw [hv]; rfl)
      cases heq
      exact ⟨completed, hresult, happlied⟩
    cases hinput : operation.input with
    | createFunction | setFunctionLifecycle | rotateInvocationToken =>
      rw [hinput] at h
      exact functionOperationResult_token h
    | createVersion input =>
      rw [hinput] at h
      exact hview rfl rfl h
    | publishRoute input =>
      rw [hinput] at h
      by_cases happlied : completed.disposition = .applied
      · simp only [OperationInput.result, if_pos happlied] at h ⊢
        exact hview rfl rfl h
      · simp only [OperationInput.result, if_neg happlied, replayedRouteResult] at h
        split at h
        · obtain ⟨v, hnone, -⟩ := h
          cases hnone
        · obtain ⟨v, hroute, -⟩ := h
          cases hroute
  · obtain ⟨v, hnone, -⟩ := h
    cases hnone

/-- A plaintext token is only ever in the answer of an applied operation. -/
def TokenApplied (e : ControllerEvent σ) : Prop :=
  ∀ a, e.output = .answered a → a.HasToken → a.Applied

theorem tokenApplied (move : Move σ) (hi : SystemInv s) :
    TokenApplied ((controllerMachine src).event s move) := by
  intro a ha htoken
  have hno : a.view = none → False := by
    intro hnone
    obtain ⟨v, hv, -⟩ := htoken
    cases hnone.symm.trans hv
  cases move with
  | call ctx operation =>
    have ha : (s.call ctx operation).1 = .answered a := ha
    unfold System.call at ha
    split at ha <;> cases ha <;> exact (hno rfl).elim
  | prepare =>
    have ha : (s.prepare src).1 = .answered a := ha
    unfold System.prepare at ha
    split at ha
    · split at ha <;> cases ha
    · cases ha
  | commit =>
    have ha : s.commit.1 = .answered a := ha
    unfold System.commit at ha
    split at ha <;> cases ha
  | reply =>
    have ha : s.reply.1 = .answered a := ha
    unfold System.reply at ha
    split at ha
    · rename_i operation result view err hholder
      cases ha
      exact operation_answer_token (hi.holder _ hholder) htoken
    · cases ha
  | admission admission lastCommand sources => cases ha
  | resolveVersion result =>
    have ha : Response.answered (replayedVersionResult s.controller.stores result) = .answered a :=
      ha
    obtain ⟨v, hv, -⟩ := htoken
    cases ha
    unfold replayedVersionResult at hv
    dsimp only at hv
    split at hv <;> cases hv

/-! ## Exactly once -/

/--
The records of a run say what its steps have done. The step behind a `Succeeded` record is the
commit that wrote it, for the operation then holding the lock; it changes the stores unless that
very operation asks for the lifecycle the Function has.
-/
theorem operations_exactly_once (src : Sources σ) (sources : σ) (moves : List (Move σ)) :
    let events := (controllerMachine src).events (newSystem sources) moves
    let final := (controllerMachine src).run (newSystem sources) moves
    (∀ k, events.Pairwise fun e f => ¬ ((By k e ∧ Mutates e) ∧ (By k f ∧ Mutates f))) ∧
    (∀ k r, final.record k = some r → r.outcome.status = .succeeded →
      ∃ before e after, ∃ operation : Operation,
        events = before ++ e :: after ∧ operation.key = k ∧ By k e ∧
        Writes e.pre e.input e.post operation r ∧
        (∀ x ∈ r.outcome.affectedResources, Present e.post.controller.stores x) ∧
        (Mutates e ∨ (¬ Mutates e ∧ Unchanging e.pre.controller.stores operation.input)) ∧
        ∀ f ∈ before ++ after, By k f → ¬ Mutates f) ∧
    (∀ k r, final.record k = some r → r.outcome.status = .failed →
      ∀ e ∈ events, By k e → ¬ Mutates e) ∧
    (∀ e ∈ events, Replays e) ∧ ∀ e ∈ events, TokenApplied e := by
  intro events final
  have hhistory : History events final := history sources moves
  refine ⟨fun k => ?_, fun k r hk hstatus => ?_, fun k r hk hstatus => ?_, fun e he => ?_,
    fun e he => ?_⟩
  · cases hk : final.record k with
    | none =>
      refine List.pairwise_of_forall_mem_list fun e he f _ hboth => ?_
      exact hhistory.1 k hk e he hboth.1.1 hboth.1.2
    | some r =>
      -- all steps but one are known not to write for `k`
      obtain ⟨before, w, after, operation, hevents, -, -, hothers⟩ := hhistory.2 k r hk
      have hbefore : ∀ e ∈ before, By k e → ¬ Mutates e :=
        fun e he => hothers e (List.mem_append_left _ he)
      have hafter : ∀ e ∈ after, By k e → ¬ Mutates e :=
        fun e he => hothers e (List.mem_append_right _ he)
      rw [hevents, List.pairwise_append, List.pairwise_cons]
      refine ⟨?_, ⟨fun f hf hboth => hafter f hf hboth.2.1 hboth.2.2, ?_⟩, ?_⟩
      · exact List.pairwise_of_forall_mem_list fun e he f _ hboth =>
          hbefore e he hboth.1.1 hboth.1.2
      · exact List.pairwise_of_forall_mem_list fun e he f _ hboth =>
          hafter e he hboth.1.1 hboth.1.2
      · exact fun e he f _ hboth => hbefore e he hboth.1.1 hboth.1.2
  · obtain ⟨before, e, after, operation, hevents, hkey, hw, hothers⟩ := hhistory.2 k r hk
    have hby : By k e := by
      obtain ⟨request, plan, hheld⟩ := hw.held
      rw [By, hw.commit]
      exact ⟨_, hheld, hkey⟩
    rcases hw.truthful with ⟨hfailed, -⟩ | ⟨-, hpresent, hchange⟩
    · cases hstatus.symm.trans hfailed
    · refine ⟨before, e, after, operation, hevents, hkey, hby, hw, hpresent, ?_, hothers⟩
      rcases hchange with hne | ⟨hsame, hun⟩
      · exact .inl hne
      · exact .inr ⟨fun hne => hne hsame, hun⟩
  · obtain ⟨before, w, after, operation, hevents, -, hw, hothers⟩ := hhistory.2 k r hk
    intro e he
    rw [hevents, List.mem_append, List.mem_cons] at he
    rcases he with he | rfl | he
    · exact hothers e (List.mem_append_left _ he)
    · intro _ hmutates
      rcases hw.truthful with ⟨-, hsame⟩ | ⟨hsucceeded, -, -⟩
      · exact hmutates hsame
      · cases hstatus.symm.trans hsucceeded
    · exact hothers e (List.mem_append_right _ he)
  · obtain ⟨hr, heq⟩ := Machine.event_reachable .init he
    rw [heq]
    exact replays e.input (systemInv_reachable hr)
  · obtain ⟨hr, heq⟩ := Machine.event_reachable .init he
    rw [heq]
    exact tokenApplied e.input (systemInv_reachable hr)

/-- Identifiers and commands count up; there are no tokens and one artifact for each digest. -/
def sampleSources : Sources ℕ where
  newID kind := do
    let n ← get
    set (n + 1)
    pure (kind ++ [0x2D, UInt8.ofNat (0x30 + n)])
  newSalt := pure (List.replicate routeSaltBytes 0)
  newToken := throw (.text "no tokens")
  next := do
    let n ← get
    set (n + 1)
    pure ⟨UInt64.ofNat (n + 1), ⟨1, .utc⟩⟩
  openVerified digest := pure (some ⟨.ok ()⟩, ⟨digest, 1⟩)

def sampleKey (id : GoString) : OperationKey := ⟨"alice", "default", id⟩

def sampleCreation : Operation :=
  ⟨sampleKey "op-1", .createFunction ⟨"fn", none, .public⟩⟩

def sampleCreationRequest : Request :=
  ⟨"POST", functionsPath, ⟨true, none, none⟩, true,
    some (CreateFunctionInput.toJSON ⟨"fn", none, .public⟩).marshal, none⟩

/-- Activating the Function that is `Active` already. -/
def sampleActivation : Operation :=
  ⟨sampleKey "op-2", .setFunctionLifecycle ⟨"function-0", 1, .active⟩⟩

/-- What the creation prepares; the other branch is not taken. -/
def samplePlan : Plan :=
  match exec (sampleCreation.input.prepare sampleSources) (newController 0) with
  | (.ok plan, _) => plan
  | (.error _, _) => .setFunctionLifecycle ⟨[], 0, .active⟩ ⟨0, Time.zero⟩ 0

/-- The controller once the Function is there. -/
def sampleController (d : SHA256) : Controller ℕ where
  stores := (exec samplePlan.apply newStores).2
  ledger := newLedger.insert (samplePlan.completion sampleCreation.key sampleCreationRequest) d
  lastCommand := ⟨3, ⟨1, .utc⟩⟩
  sources := 3

def sampleCreationMoves : List (Move ℕ) := [.call none sampleCreation, .prepare, .commit, .reply]

/-- Creating the Function, and activating it once more. -/
def sampleActivationMoves : List (Move ℕ) :=
  sampleCreationMoves ++ [.call none sampleActivation, .prepare, .commit]

/-- The activation is recorded, and no step that holds the lock for it changes the stores. -/
theorem sampleActivation_run :
    (((controllerMachine sampleSources).run (newSystem 0) sampleActivationMoves).record
      sampleActivation.key).any (fun r => r.outcome.status = .succeeded) = true ∧
    ((controllerMachine sampleSources).events (newSystem 0) sampleActivationMoves).all (fun e =>
      e.post.controller.stores = e.pre.controller.stores ||
        e.pre.holder.all fun phase => phase.operation.key ≠ sampleActivation.key) = true := by
  decide +kernel

/-- A lifecycle that is held already is an accepted no-op: the record says Succeeded, and no step
of the operation has changed anything. -/
theorem lifecycle_operation_unchanging : ∃ (moves : List (Move ℕ)) (k : OperationKey) (r : Record),
    ((controllerMachine sampleSources).run (newSystem 0) moves).record k = some r ∧
      r.outcome.status = .succeeded ∧
      ∀ e ∈ (controllerMachine sampleSources).events (newSystem 0) moves, By k e → ¬ Mutates e := by
  obtain ⟨hrecord, hsame⟩ := sampleActivation_run
  obtain ⟨r, hr, hstatus⟩ := (Option.any_eq_true ..).mp hrecord
  obtain ⟨before, w, after, operation, hevents, hkey, hw, hothers⟩ :=
    (history 0 sampleActivationMoves).2 _ r hr
  refine ⟨sampleActivationMoves, _, r, hr, of_decide_eq_true hstatus, fun e he hby => ?_⟩
  have hunchanged := List.all_eq_true.mp hsame e he
  rw [hevents, List.mem_append, List.mem_cons] at he
  rcases he with he | rfl | he
  · exact hothers e (List.mem_append_left _ he) hby
  · obtain ⟨request, plan, hheld⟩ := hw.held
    rw [hheld] at hunchanged
    exact fun hne => hne (by simpa [Phase.operation, hkey] using hunchanged)
  · exact hothers e (List.mem_append_right _ he) hby

end MiniCloud.LocalController
