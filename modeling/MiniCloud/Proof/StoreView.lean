import MiniCloud.Proof.StoreSteps

/-!
# The gateway's view is a fold of the stream

What the store holds is the content of the last Full event it installed, overlaid by the
incremental events it has installed since, and those stand at consecutive positions. The invariant
follows the history one call at a time: `step_effect` says what a call installs and what the store
then holds, and everything else it leaves alone.

An incremental event beyond the next position closes the store. It stays closed until a Full event
is installed, because nothing else clears the flag.
-/

namespace MiniCloud.GatewayDiscovery

open Lib Problem Digest ServingAuth Discovery

variable {s s' : Store} {call : Call} {answer : Answer} {event normalized : Event}
  {fingerprint : SHA256} {now : Duration} {body snapshot : Snapshot} {e : StoreEvent}
  {sequence : UInt64} {functionID : GoString}

/-! ## Histories -/

/-- The event a call installed: accepted, and not a repetition of the current position. -/
def installed (e : StoreEvent) : Option Event :=
  match e.input, e.output with
  | .apply event, .done (.ok ()) => if samePosition event e.pre.position then none else some event
  | _, _ => none

theorem installed_apply {s' : Store} (hfresh : samePosition event s.position = false) :
    installed ⟨s, .apply event, .done (.ok ()), s'⟩ = some event := if_neg (by simp [hfresh])

/-- The events a history installed, oldest first. -/
def installs (h : List StoreEvent) : List Event := h.filterMap installed

theorem installs_snoc (h : List StoreEvent) (e : StoreEvent) :
    installs (h ++ [e]) = installs h ++ (installed e).toList := by
  rw [installs, List.filterMap_append, List.filterMap_cons, List.filterMap_nil]
  cases installed e <;> rfl

/-- Epoch and sequence, in lexicographic order. -/
def Event.place (event : Event) : ℕ ×ₗ ℕ :=
  toLex (event.discoveryEpoch.toNat, event.servingSequence.toNat)

def EventPosition.place (position : EventPosition) : ℕ ×ₗ ℕ :=
  toLex (position.epoch.toNat, position.sequence.toNat)

/-- The content of a Full event under later events: the last one to have a Function decides. -/
def overlay (full : Event) (rest : List Event) : GoString → Option Snapshot :=
  rest.foldl (fun view event functionID =>
    (contents event.snapshots functionID).or (view functionID)) (contents full.snapshots)

/-- What the store holds for each Function. -/
def Store.held (s : Store) (functionID : GoString) : Option Snapshot :=
  (s.functions.get? functionID).map (·.snapshot)

/--
The history ends in a Full event and the incremental events `rest`, installed at the consecutive
positions after it, up to the position of the store.
-/
structure Streams (h : List StoreEvent) (s : Store) (full : Event) (rest : List Event) : Prop where
  ends : ∃ earlier, installs h = earlier ++ full :: rest
  whole : full.full = true
  incremental : ∀ event ∈ rest, event.full = false
  contiguous : ∀ i event, rest[i]? = some event → event.discoveryEpoch = full.discoveryEpoch ∧
    event.servingSequence.toNat = full.servingSequence.toNat + 1 + i
  epoch : s.position.epoch = full.discoveryEpoch
  sequence : s.position.sequence.toNat = full.servingSequence.toNat + rest.length

/-! ## One call -/

theorem overlay_snoc (full : Event) (rest : List Event) (event : Event) :
    overlay full (rest ++ [event]) =
      fun functionID => (contents event.snapshots functionID).or (overlay full rest functionID) := by
  rw [overlay, List.foldl_append]
  rfl

theorem contents_functionID {snapshots : List Snapshot}
    (h : contents snapshots functionID = some snapshot) :
    snapshot ∈ snapshots ∧ snapshot.functionID = functionID :=
  ⟨List.mem_of_find?_eq_some h, by simpa using List.find?_some h⟩

theorem contents_isSome {snapshots : List Snapshot} :
    (contents snapshots functionID).isSome = true ↔
      functionID ∈ snapshots.map (·.functionID) := by
  simp [contents, List.find?_isSome]

theorem get?_replaced (h : Replaces s event normalized fingerprint now) (functionID : GoString) :
    (s.ticked.replaced normalized fingerprint now).functions.get? functionID =
      (contents event.snapshots functionID).map fun snapshot => s.ticked.received snapshot now := by
  have hnd := (h.normal.perm.map (·.functionID)).nodup_iff.mpr h.normal.distinct
  rw [← h.normal.contents_eq, contents, Store.replaced,
    GoMap.get?_foldl_set (·.functionID) (fun snapshot => s.ticked.received snapshot now)
      functionID normalized.snapshots ∅ hnd, GoMap.get?_empty, Option.or_none]

/-- An incremental event speaks of one Function. -/
theorem Advances.contents_eq (h : Advances s event normalized snapshot fingerprint now)
    (functionID : GoString) : contents event.snapshots functionID =
      if functionID = snapshot.functionID then some snapshot else none := by
  rw [h.only, contents, List.find?_singleton]
  by_cases hid : functionID = snapshot.functionID
  · simp [hid]
  · simp [hid, Ne.symm hid]

theorem held_replaced (h : Replaces s event normalized fingerprint now) :
    (s.ticked.replaced normalized fingerprint now).held = contents event.snapshots := by
  funext functionID
  rw [Store.held, get?_replaced h]
  cases contents event.snapshots functionID <;> rfl

theorem get?_advanced (functionID : GoString) :
    (s.ticked.advanced normalized snapshot fingerprint now).functions.get? functionID =
      if functionID = snapshot.functionID then some (s.ticked.received snapshot now)
      else s.functions.get? functionID := by
  rw [Store.advanced, GoMap.get?_set, ticked_functions]

theorem held_advanced (h : Advances s event normalized snapshot fingerprint now) :
    (s.ticked.advanced normalized snapshot fingerprint now).held =
      fun functionID => (contents event.snapshots functionID).or (s.held functionID) := by
  funext functionID
  rw [Store.held, get?_advanced, h.contents_eq]
  split_ifs <;> rfl

/-- The store has no more than what it had before. -/
structure Untouched (s s' : Store) : Prop where
  held : s'.held = s.held
  position : s'.position = s.position
  fullSynced : s'.fullSynced = s.fullSynced

/-- What a call installs, and what the store holds afterwards. -/
inductive Effect (e : StoreEvent) : Prop where
  | nothing (hin : installed e = none) (h : Untouched e.pre e.post)
  | full {event normalized : Event} {fingerprint : SHA256} {now : Duration}
      (hin : installed e = some event) (h : Replaces e.pre event normalized fingerprint now)
      (hpost : e.post = e.pre.ticked.replaced normalized fingerprint now)
      (hheld : e.post.held = contents event.snapshots)
      (hposition : e.post.position = ⟨event.discoveryEpoch, event.servingSequence, fingerprint⟩)
      (hsynced : e.post.fullSynced = true)
  | incremental {event normalized : Event} {snapshot : Snapshot} {fingerprint : SHA256}
      {now : Duration} (hin : installed e = some event)
      (h : Advances e.pre event normalized snapshot fingerprint now)
      (hpost : e.post = e.pre.ticked.advanced normalized snapshot fingerprint now)
      (hheld : e.post.held = fun functionID =>
        (contents event.snapshots functionID).or (e.pre.held functionID))
      (hposition : e.post.position = ⟨event.discoveryEpoch, event.servingSequence, fingerprint⟩)
      (hsynced : e.post.fullSynced = true)

theorem untouched_ticked (s : Store) : Untouched s s.ticked where
  held := by
    funext functionID
    rw [Store.held, ticked_functions, Store.held]
  position := ticked_position s
  fullSynced := ticked_fullSynced s

/-- A suppression replaces a record by one with the same snapshot. -/
theorem untouched_suppressed {record : FunctionRecord}
    (hheld : s.functions.get? functionID = some record)
    (suppressed : GoMap GoString AssignmentIdentity) :
    Untouched s { s with
      functions := s.functions.set functionID { record with suppressed := suppressed } } where
  held := by
    funext id
    simp only [Store.held, GoMap.get?_set]
    split_ifs with hid
    · rw [hid, hheld]
      rfl
    · rfl
  position := rfl
  fullSynced := rfl

theorem acts_effect (hacts : Acts s call answer s') : Effect ⟨s, call, answer, s'⟩ := by
  cases hacts with
  | idle hidle =>
    refine .nothing ?_ ⟨rfl, rfl, rfl⟩
    cases call with
    | apply event => exact absurd hidle id
    | _ => rfl
  | refused | latched | watched => exact .nothing rfl ⟨rfl, rfl, rfl⟩
  | repeated hnormal hhealthy hsame hprint => exact .nothing (if_pos hsame) ⟨rfl, rfl, rfl⟩
  | stopped _ => exact .nothing rfl (untouched_ticked s)
  | @replaced event normalized fingerprint now hr =>
    refine .full (installed_apply hr.fresh) hr rfl (held_replaced hr) ?_ rfl
    · show (⟨_, _, _⟩ : EventPosition) = _
      rw [hr.normal.epoch, hr.normal.sequence]
  | @advanced event normalized snapshot fingerprint now ha =>
    refine .incremental (installed_apply ha.fresh) ha rfl (held_advanced ha) ?_ ?_
    · show (⟨_, _, _⟩ : EventPosition) = _
      rw [ha.normal.epoch, ha.normal.sequence]
    · show s.ticked.fullSynced = true
      rw [ticked_fullSynced]
      exact ha.synced
  | looked hl =>
    refine .nothing ?_ (untouched_ticked s)
    rcases hl with ⟨id, rfl⟩ | rfl <;> rfl
  | suppressed hheld hmem => exact .nothing rfl (untouched_suppressed hheld _)

theorem step_effect (s : Store) (call : Call) : Effect (storeMachine.event s call) :=
  acts_effect (step_acts s call)

/-! ## The invariant -/

structure ViewInv (h : List StoreEvent) (s : Store) : Prop where
  unsynced : s.fullSynced = false →
    s.held = (fun _ => none) ∧ s.position = ⟨0, 0, []⟩ ∧ installs h = []
  synced : s.fullSynced = true → ∃ full rest, Streams h s full rest ∧ s.held = overlay full rest
  epoch : ∀ functionID snapshot, s.held functionID = some snapshot →
    snapshot.discoveryEpoch = s.position.epoch ∧ snapshot.functionID = functionID
  ordered : (installs h).Pairwise fun a b => a.place < b.place
  bounded : ∀ event ∈ installs h, event.place ≤ s.position.place

variable {h : List StoreEvent}

/-- The order of positions as the source tests it. -/
theorem place_lt {position : EventPosition} (hepoch : position.epoch ≤ event.discoveryEpoch)
    (hseq : event.discoveryEpoch = position.epoch → position.sequence < event.servingSequence) :
    position.place < event.place := by
  rw [EventPosition.place, Event.place, Prod.Lex.toLex_lt_toLex]
  rcases Nat.lt_or_eq_of_le (UInt64.le_iff_toNat_le.mp hepoch) with hlt | heq
  · exact .inl hlt
  · exact .inr ⟨heq, UInt64.lt_iff_toNat_lt.mp (hseq (UInt64.toNat_inj.mp heq.symm))⟩

/-- The order is kept by an event that is installed beyond the current position. -/
theorem ordered_snoc (hinv : ViewInv h e.pre) (hin : installed e = some event)
    (hlt : e.pre.position.place < event.place)
    (hposition : e.post.position = ⟨event.discoveryEpoch, event.servingSequence, fingerprint⟩) :
    (installs (h ++ [e])).Pairwise (fun a b => a.place < b.place) ∧
      ∀ ev ∈ installs (h ++ [e]), ev.place ≤ e.post.position.place := by
  have hplace : e.post.position.place = event.place := by rw [hposition]; rfl
  rw [installs_snoc, hin, hplace]
  have hbelow : ∀ a ∈ installs h, a.place < event.place := fun a ha =>
    lt_of_le_of_lt (hinv.bounded a ha) hlt
  refine ⟨List.pairwise_append.mpr ⟨hinv.ordered, List.pairwise_singleton _ _, ?_⟩, ?_⟩
  · intro a ha b hb
    rw [Option.toList_some, List.mem_singleton] at hb
    rw [hb]
    exact hbelow a ha
  · intro ev hev
    rcases List.mem_append.mp hev with hev | hev
    · exact le_of_lt (hbelow ev hev)
    · rw [Option.toList_some, List.mem_singleton] at hev
      rw [hev]

theorem viewInv_full (hinv : ViewInv h e.pre) (hin : installed e = some event)
    (hr : Replaces e.pre event normalized fingerprint now)
    (hheld : e.post.held = contents event.snapshots)
    (hposition : e.post.position = ⟨event.discoveryEpoch, event.servingSequence, fingerprint⟩)
    (hsynced : e.post.fullSynced = true) : ViewInv (h ++ [e]) e.post := by
  obtain ⟨hordered, hbounded⟩ := ordered_snoc hinv hin (place_lt hr.epoch hr.sequence) hposition
  refine ⟨fun hno => absurd hno (by simp [hsynced]), fun _ => ⟨event, [], ?_, hheld⟩, ?_,
    hordered, hbounded⟩
  · exact {
      ends := ⟨installs h, by rw [installs_snoc, hin]; rfl⟩
      whole := hr.full
      incremental := by simp
      contiguous := by simp
      epoch := by rw [hposition]
      sequence := by rw [hposition]; rfl }
  · intro functionID snapshot hs
    rw [hheld] at hs
    obtain ⟨hmem, hid⟩ := contents_functionID hs
    rw [hposition]
    exact ⟨(hr.normal.valid snapshot hmem).2.1, hid⟩

theorem Streams.snoc {full : Event} {rest : List Event} (hst : Streams h e.pre full rest)
    (hin : installed e = some event)
    (ha : Advances e.pre event normalized snapshot fingerprint now)
    (hposition : e.post.position = ⟨event.discoveryEpoch, event.servingSequence, fingerprint⟩) :
    Streams (h ++ [e]) e.post full (rest ++ [event]) where
  ends := by
    obtain ⟨earlier, hearlier⟩ := hst.ends
    exact ⟨earlier, by rw [installs_snoc, hin, hearlier]; simp⟩
  whole := hst.whole
  incremental := by
    intro ev hev
    rcases List.mem_append.mp hev with hev | hev
    · exact hst.incremental ev hev
    · rw [List.mem_singleton.mp hev]
      exact ha.incremental
  contiguous := by
    intro i ev hi
    rw [List.getElem?_append] at hi
    split_ifs at hi with hlt
    · exact hst.contiguous i ev hi
    · -- the last one is the event of this call
      have hlast : i = rest.length := by
        by_contra hne
        rw [List.getElem?_eq_none (by simp; omega)] at hi
        cases hi
      rw [hlast, Nat.sub_self, List.getElem?_cons_zero] at hi
      cases hi
      refine ⟨ha.epoch.trans hst.epoch, ?_⟩
      rw [ha.sequence, hst.sequence, hlast]
      omega
  epoch := by rw [hposition]; exact ha.epoch.trans hst.epoch
  sequence := by
    rw [hposition]
    show event.servingSequence.toNat = _
    rw [ha.sequence, hst.sequence, List.length_append, List.length_singleton]
    omega

theorem viewInv_incremental (hinv : ViewInv h e.pre) (hin : installed e = some event)
    (ha : Advances e.pre event normalized snapshot fingerprint now)
    (hheld : e.post.held = fun functionID =>
      (contents event.snapshots functionID).or (e.pre.held functionID))
    (hposition : e.post.position = ⟨event.discoveryEpoch, event.servingSequence, fingerprint⟩)
    (hsynced : e.post.fullSynced = true) : ViewInv (h ++ [e]) e.post := by
  have hseq : event.discoveryEpoch = e.pre.position.epoch →
      e.pre.position.sequence < event.servingSequence := fun _ =>
    UInt64.lt_iff_toNat_lt.mpr (by rw [ha.sequence]; omega)
  have hepoch : e.pre.position.epoch ≤ event.discoveryEpoch := by
    rw [ha.epoch]
    exact UInt64.le_refl _
  obtain ⟨hordered, hbounded⟩ := ordered_snoc hinv hin (place_lt hepoch hseq) hposition
  obtain ⟨full, rest, hst, hview⟩ := hinv.synced ha.synced
  refine ⟨fun hno => absurd hno (by simp [hsynced]), fun _ => ?_, ?_, hordered, hbounded⟩
  · exact ⟨full, rest ++ [event], hst.snoc hin ha hposition, by rw [hheld, overlay_snoc, hview]⟩
  · intro functionID snap hs
    rw [hheld] at hs
    rw [hposition]
    rcases Option.or_eq_some_iff.mp hs with hs | ⟨-, hs⟩
    · obtain ⟨hmem, hid⟩ := contents_functionID hs
      exact ⟨(ha.normal.valid snap hmem).2.1, hid⟩
    · obtain ⟨hsame, hid⟩ := hinv.epoch functionID snap hs
      exact ⟨hsame.trans ha.epoch.symm, hid⟩

theorem viewInv_nothing (hinv : ViewInv h e.pre) (hin : installed e = none)
    (hu : Untouched e.pre e.post) : ViewInv (h ++ [e]) e.post := by
  have hsame : installs (h ++ [e]) = installs h := by rw [installs_snoc, hin]; simp
  refine ⟨fun hno => ?_, fun hyes => ?_, ?_, ?_, ?_⟩
  · rw [hu.held, hu.position, hsame]
    exact hinv.unsynced (hu.fullSynced ▸ hno)
  · obtain ⟨full, rest, hst, hview⟩ := hinv.synced (hu.fullSynced ▸ hyes)
    refine ⟨full, rest, ⟨?_, hst.whole, hst.incremental, hst.contiguous, ?_, ?_⟩, ?_⟩
    · rw [hsame]
      exact hst.ends
    · rw [hu.position]
      exact hst.epoch
    · rw [hu.position]
      exact hst.sequence
    · rw [hu.held]
      exact hview
  · rw [hu.held, hu.position]
    exact hinv.epoch
  · rw [hsame]
    exact hinv.ordered
  · rw [hsame, hu.position]
    exact hinv.bounded

theorem viewInv_step (hinv : ViewInv h s) (call : Call) :
    ViewInv (h ++ [storeMachine.event s call]) (storeMachine.step s call).2 := by
  cases step_effect s call with
  | nothing hin hu => exact viewInv_nothing hinv hin hu
  | full hin hr _ hheld hposition hsynced =>
    exact viewInv_full hinv hin hr hheld hposition hsynced
  | incremental hin ha _ hheld hposition hsynced =>
    exact viewInv_incremental hinv hin ha hheld hposition hsynced

/-! ## Closed stores -/

/-- Nothing is served: the clock has failed, or a Full Sync is owed. -/
def Closed (s : Store) : Prop :=
  s.clockHealthy = false ∨ s.fullSynced = false ∨ s.needsFullSync = true

theorem not_opens_of_closed (hc : Closed s) : ¬ Opens s now := by
  intro hopen
  rcases hc with hclock | hsynced | hneeds
  · have hread := hopen.reading
    rw [(ClockGuard.read_unhealthy hclock).1] at hread
    cases hread
  · cases hopen.synced.symm.trans hsynced
  · cases hopen.current.symm.trans hneeds

theorem closed_not_served (hc : Closed s) :
    (∀ functionID view, (Op.exec (Store.lookup functionID) s).1 ≠ .ok view) ∧
      ∀ views, (Op.exec Store.lookupAll s).1 ≠ .ok views := by
  refine ⟨fun functionID view hok => ?_, fun views hok => ?_⟩
  · obtain ⟨-, record, now, hopen, -⟩ := lookup_ok.mp hok
    exact not_opens_of_closed hc hopen
  · obtain ⟨now, hopen, -⟩ := lookupAll_ok.mp hok
    exact not_opens_of_closed hc hopen

theorem closed_ticked (hc : Closed s) : Closed s.ticked := by
  cases hnow : (s.toClockGuard.read s.clock).1 with
  | none =>
    rw [ticked_of_none hnow]
    exact .inr (.inr rfl)
  | some now =>
    rw [ticked_of_some hnow]
    rcases hc with hclock | hrest
    · rw [(ClockGuard.read_unhealthy hclock).1] at hnow
      cases hnow
    · exact .inr hrest

/-- Only an installed Full event opens a closed store. -/
theorem closed_step (hc : Closed s) (hacts : Acts s call answer s')
    (hno : ∀ full, installed ⟨s, call, answer, s'⟩ = some full → full.full = false) :
    Closed s' := by
  cases hacts with
  | idle | refused | repeated | watched | suppressed => exact hc
  | latched _ _ => exact .inr (.inr rfl)
  | stopped | looked => exact closed_ticked hc
  | @replaced event _ _ _ hr =>
    cases hr.full.symm.trans (hno event (installed_apply hr.fresh))
  | advanced ha =>
    -- an incremental event is only installed by an open store
    rcases hc with hclock | hsynced | hneeds
    · cases ha.healthy.symm.trans hclock
    · cases ha.synced.symm.trans hsynced
    · cases ha.current.symm.trans hneeds

/-- A well-formed incremental event beyond the next position leaves the store closed. -/
theorem closed_of_ahead (hwf : WellFormed s event) (hahead : Ahead s event)
    (hacts : Acts s (.apply event) answer s') : Closed s' := by
  cases hacts with
  | idle hidle => exact absurd hidle id
  | refused hclosed => exact hclosed hwf hahead
  | repeated _ _ hsame _ => exact absurd hsame hahead.not_same
  | latched _ _ => exact .inr (.inr rfl)
  | stopped hclock =>
    rw [ticked_of_none hclock]
    exact .inr (.inr rfl)
  | replaced hr => cases hr.full.symm.trans hahead.1
  | advanced ha =>
    have hgap := hahead.gap ha.epoch
    rw [ha.sequence] at hgap
    omega
  | looked hl => rcases hl with ⟨id, hl⟩ | hl <;> cases hl

/-! ## Whole runs -/

section Runs

variable {processClock : MonotonicClock} {config : Config} {s₀ : Store}

/-- What `New` returns. -/
theorem new_ok (hnew : new processClock config = .ok s₀) :
    s₀.toClockGuard = ClockGuard.start s₀.clock ∧ s₀.functions = ∅ ∧ s₀.position = ⟨0, 0, []⟩ ∧
      s₀.fullSynced = false ∧ s₀.needsFullSync = true := by
  obtain ⟨-, -, hnew⟩ := bind_ok.mp hnew
  cases hnew
  exact ⟨rfl, rfl, rfl, rfl, rfl⟩

theorem viewInv_run (hnew : new processClock config = .ok s₀) (calls : List Call) :
    ViewInv (storeMachine.events s₀ calls) (storeMachine.run s₀ calls) := by
  obtain ⟨-, hempty, hposition, hsynced, -⟩ := new_ok hnew
  have hnone : s₀.held = fun _ => none := by
    funext functionID
    rw [Store.held, hempty]
    rfl
  refine Machine.trace (P := ViewInv) ?_ (fun h s call _ hinv => viewInv_step hinv call) calls
  refine ⟨fun _ => ⟨hnone, hposition, rfl⟩, fun hyes => ?_, ?_, List.Pairwise.nil,
    List.forall_mem_nil _⟩
  · cases hsynced.symm.trans hyes
  · simp [hnone]

section

variable
  (hkeys : ∀ functionID snapshot, s.held functionID = some snapshot → snapshot.functionID = functionID)
include hkeys

/-- Every view is of a held snapshot, and every held snapshot has its view. -/
theorem mem_views :
    (∃ view ∈ s.functions.toList.map fun entry => visibleSnapshot entry.2,
        view.snapshot = snapshot) ↔ s.held snapshot.functionID = some snapshot := by
  simp only [List.mem_map, Prod.exists, GoMap.mem_toList, Store.held, Option.map_eq_some_iff]
  constructor
  · rintro ⟨view, ⟨functionID, record, hrec, rfl⟩, rfl⟩
    have hid := hkeys functionID record.snapshot (by rw [Store.held, hrec]; rfl)
    exact ⟨record, (congrArg _ hid).trans hrec, rfl⟩
  · rintro ⟨record, hrec, rfl⟩
    exact ⟨visibleSnapshot record, ⟨_, record, hrec, rfl⟩, rfl⟩

theorem views_distinct :
    ((s.functions.toList.map fun entry => visibleSnapshot entry.2).map
      fun view => view.snapshot.functionID).Nodup := by
  have hsame : (s.functions.toList.map fun entry => visibleSnapshot entry.2).map
      (fun view => view.snapshot.functionID) = s.functions.toList.map Prod.fst := by
    rw [List.map_map]
    refine List.map_congr_left fun entry hentry => ?_
    exact hkeys entry.1 entry.2.snapshot
      (by rw [Store.held, GoMap.mem_toList.mp hentry]; rfl)
  rw [hsame]
  exact GoMap.toList_keys_nodup _

end

/--
**The gateway's view is the fold of a contiguous stream.** After any run from `New`, what a lookup
serves is the last installed Full event overlaid by the incremental events installed since, at the
consecutive positions up to the current one; all of one epoch. Positions are installed in strictly
increasing order. A malformed event is refused wherever it claims to be and changes nothing; once a
well-formed incremental event was ahead of the next position, nothing is served until a Full event
is installed.
-/
theorem gateway_view (hnew : new processClock config = .ok s₀) (calls : List Call) :
    let h := storeMachine.events s₀ calls
    let s := storeMachine.run s₀ calls
    (∀ functionID view, (Op.exec (Store.lookup functionID) s).1 = .ok view →
      ∃ full rest, Streams h s full rest ∧ overlay full rest functionID = some view.snapshot) ∧
    (∀ views, (Op.exec Store.lookupAll s).1 = .ok views →
      ∃ full rest, Streams h s full rest ∧
        (views.map fun view => view.snapshot.functionID).Nodup ∧
        ∀ snapshot, (∃ view ∈ views, view.snapshot = snapshot) ↔
          overlay full rest snapshot.functionID = some snapshot) ∧
    (∀ functionID snapshot, s.held functionID = some snapshot →
      snapshot.discoveryEpoch = s.position.epoch) ∧
    (installs h).Pairwise (fun a b => a.place < b.place) ∧
    (∀ e ∈ h, ∀ event err, e.input = .apply event →
      normalizeEvent event e.pre.maxFunctions = .error err →
      e.output = .done (.error err) ∧ e.post = e.pre) ∧
    ∀ before e after event, h = before ++ e :: after → e.input = .apply event →
      WellFormed e.pre event → Ahead e.pre event →
      (∀ e' ∈ after, ∀ full, installed e' = some full → full.full = false) →
      (∀ functionID view, (Op.exec (Store.lookup functionID) s).1 ≠ .ok view) ∧
        ∀ views, (Op.exec Store.lookupAll s).1 ≠ .ok views := by
  intro h s
  have hinv : ViewInv h s := viewInv_run hnew calls
  have hkeys := fun functionID snapshot hs => (hinv.epoch functionID snapshot hs).2
  refine ⟨fun functionID view hok => ?_, fun views hok => ?_, fun functionID snapshot hs =>
    (hinv.epoch functionID snapshot hs).1, hinv.ordered, ?_, ?_⟩
  · obtain ⟨-, record, now, hopen, hrec, -, rfl⟩ := lookup_ok.mp hok
    obtain ⟨full, rest, hst, hview⟩ := hinv.synced hopen.synced
    refine ⟨full, rest, hst, ?_⟩
    rw [← hview, Store.held, hrec]
    rfl
  · obtain ⟨now, hopen, -, rfl⟩ := lookupAll_ok.mp hok
    obtain ⟨full, rest, hst, hview⟩ := hinv.synced hopen.synced
    refine ⟨full, rest, hst, ?_, fun snapshot => ?_⟩
    · exact ((sortFunc_perm _ _).map _).nodup_iff.mpr (views_distinct hkeys)
    · simp only [mem_sortFunc]
      rw [← hview]
      exact mem_views hkeys
  · intro e he event err hin hmalformed
    obtain ⟨-, heq⟩ := Machine.event_reachable .init he
    rw [hin] at heq
    rw [heq, Machine.event, step_apply, apply_malformed hmalformed]
    exact ⟨rfl, rfl⟩
  · intro before e after event hcut hin hwf hahead hafter
    obtain ⟨calls₁, call, calls₂, hcalls, -, he, hrest⟩ := Machine.events_split hcut
    -- the event closed the store, and nothing since has opened it
    have hclosed : Closed e.post := by
      rw [he] at hin hwf hahead ⊢
      obtain rfl : call = .apply event := hin
      exact closed_of_ahead hwf hahead (step_acts _ _)
    have hrun : s = storeMachine.run e.post calls₂ := by
      show storeMachine.run s₀ calls = _
      rw [hcalls, Machine.run_append, he]
      rfl
    rw [hrun]
    have hr : storeMachine.Reachable e.post e.post := .init
    refine closed_not_served (Machine.run_keeps (P := Closed)
      (X := fun e' => ∃ full, installed e' = some full ∧ full.full = true) ?_ hr hclosed calls₂ ?_)
    · intro t i _ hx hct
      exact closed_step hct (step_acts _ i) fun full hin => Bool.eq_false_iff.mpr fun hf => hx ⟨full, hin, hf⟩
    · rintro e' he' ⟨full, hin, hf⟩
      rw [← hrest] at he'
      rw [hafter e' he' full hin] at hf
      cases hf

end Runs

/-! ## A sample stream -/

/-- A store whose clock stands still. -/
def sampleConfig : Config := ⟨some fun _ => 0, none, 0⟩

def sampleStore : Store where
  toClockGuard := ClockGuard.start fun _ => 0
  clock := fun _ => 0
  maxStale := defaultMaxStale
  maxFunctions := defaultMaxFunctions
  functions := ∅
  position := ⟨0, 0, []⟩
  fullSynced := false
  needsFullSync := true
  watchConnected := false

theorem sampleStore_new : new (fun _ => 0) sampleConfig = .ok sampleStore := rfl

def sampleDigest : SHA256 :=
  "sha256:0000000000000000000000000000000000000000000000000000000000000000"

def sampleAssignment : AssignmentIdentity where
  worker := ⟨"worker-1", "boot-1", 1⟩
  assignmentID := "assignment-1"
  versionID := "version-1"
  admissionEpoch := 1
  deploymentGeneration := 1
  policyDigest := sampleDigest
  mode := .normal

def sampleEndpoint : Endpoint := ⟨sampleAssignment, "10.0.0.7:8080", .ready⟩

/-- A Function with one Route target and one Endpoint. -/
def sampleBody (sequence : UInt64) : Snapshot where
  schemaVersion := servingSchemaVersion
  functionID := "function-1"
  discoveryEpoch := 1
  servingSequence := sequence
  generatedAt := ⟨1, .utc⟩
  function := ⟨"function-1", "hello", 1, .active⟩
  trigger := ⟨"trigger-1", "function-1", 1, true, .public, none⟩
  route := {
    present := true
    functionID := "function-1"
    resourceRevision := 1
    routeRevision := 1
    enabled := true
    targets := [⟨"version-1", 1, 1, sampleDigest, 10000⟩]
    affinity := .requestID
    affinityHeader := []
    hashVersion := Model.hashVersionSHA256BPSV1
    saltID := "salt-1"
    salt := List.replicate 16 0 }
  endpoints := some [sampleEndpoint]
  checksum := []

theorem sampleBody_wellFormed (h : sequence ≠ 0) : (sampleBody sequence).WellFormed where
  header := by
    rw [Snapshot.validateHeader, checks_ok]
    simp only [List.forall_mem_cons, mustNot_fails, sampleBody, beq_eq_false_iff_ne]
    exact ⟨rfl, rfl, by decide, h, rfl, List.forall_mem_nil _⟩
  function := rfl
  named := rfl
  trigger := rfl
  route := rfl
  bounded := by
    show 1 ≤ 1000
    decide
  explicit := rfl
  targets := rfl
  ordered := rfl
  serving := fun _ => rfl
  endpoints := rfl

def sampleSnapshot (sequence : UInt64) : Snapshot := (sampleBody sequence).stamped

def sampleFull (sequence : UInt64) : Event := ⟨true, 1, sequence, [sampleSnapshot sequence]⟩

theorem sampleFull_acceptable (h : sequence ≠ 0) :
    (sampleFull sequence).Acceptable defaultMaxFunctions where
  distinct := List.nodup_singleton _
  valid := List.forall_mem_singleton.mpr ⟨(sampleBody_wellFormed h).stamped, rfl, rfl⟩
  epoch_pos := (by decide : (1 : UInt64) ≠ 0)
  sequence_pos := h
  bounded := (by decide : 1 ≤ defaultMaxFunctions)

/-- One snapshot is in order already. -/
theorem sampleFull_installed (h : sequence ≠ 0) : ∃ fingerprint,
    normalizeEvent (sampleFull sequence) defaultMaxFunctions =
      .ok (sampleFull sequence, fingerprint) ∧
    Op.exec (Store.apply (sampleFull sequence)) sampleStore =
      (.ok (), sampleStore.ticked.replaced (sampleFull sequence) fingerprint 0) := by
  obtain ⟨fingerprint, hnormalize, -, hexec⟩ := apply_full (s := sampleStore)
    (sampleFull_acceptable h) rfl rfl (rfl : _ = some (0 : Duration)) (by decide : (0 : UInt64) ≤ 1)
    (fun h => absurd h (by decide : (1 : UInt64) ≠ 0)) (List.forall_mem_singleton.mpr rfl)
  exact ⟨fingerprint, hnormalize, hexec⟩

/-- The event after it. -/
def sampleNext : Event := ⟨false, 1, 6, [sampleSnapshot 6]⟩

/-- The theorem at a run that serves: the incremental snapshot is what the stream amounts to. -/
theorem gateway_view_sample : ∃ view full rest,
    (Op.exec (Store.lookup "function-1")
      (storeMachine.run sampleStore [.apply (sampleFull 5), .apply sampleNext])).1 = .ok view ∧
    view.snapshot = sampleSnapshot 6 ∧
    Streams (storeMachine.events sampleStore [.apply (sampleFull 5), .apply sampleNext])
      (storeMachine.run sampleStore [.apply (sampleFull 5), .apply sampleNext]) full rest ∧
    overlay full rest "function-1" = some view.snapshot := by
  obtain ⟨fingerprint, -, hexec⟩ := sampleFull_installed (by decide : (5 : UInt64) ≠ 0)
  have haccept := sampleFull_acceptable (by decide : (6 : UInt64) ≠ 0)
  set s₁ := sampleStore.ticked.replaced (sampleFull 5) fingerprint 0
  have hnext : sampleNext.Acceptable s₁.maxFunctions :=
    ⟨haccept.distinct, haccept.valid, haccept.epoch_pos, haccept.sequence_pos, haccept.bounded⟩
  have hopen : Opens s₁ 0 := ⟨rfl, rfl, rfl⟩
  obtain ⟨normalized, print, -, hadvanced⟩ :=
    apply_incremental hnext rfl rfl rfl hopen rfl rfl rfl rfl
  have hok : (Op.exec (Store.lookup "function-1") (storeMachine.run sampleStore
      [.apply (sampleFull 5), .apply sampleNext])).1 =
        .ok (visibleSnapshot (s₁.ticked.received (sampleSnapshot 6) 0)) := by
    rw [Machine.run_cons, step_apply, hexec, Machine.run_cons, step_apply, hadvanced,
      Machine.run_nil]
    rfl
  obtain ⟨full, rest, hst, hoverlay⟩ := (gateway_view sampleStore_new
    [.apply (sampleFull 5), .apply sampleNext]).1 "function-1" _ hok
  exact ⟨_, full, rest, hok, rfl, hst, hoverlay⟩

/-- An incremental event with no snapshot, four positions ahead. -/
def sampleMalformed : Event := ⟨false, 1, 9, []⟩

/-- A malformed event beyond the next position is rejected, and the store still serves. -/
theorem malformed_gap_served :
    let s := storeMachine.run sampleStore [.apply (sampleFull 5)]
    Ahead s sampleMalformed ∧
    (∃ e, (storeMachine.step s (.apply sampleMalformed)).1 = .done (.error e)) ∧
    ∃ view, (Op.exec (Store.lookup "function-1")
      (storeMachine.run sampleStore [.apply (sampleFull 5), .apply sampleMalformed])).1 =
        .ok view := by
  obtain ⟨fingerprint, -, hexec⟩ := sampleFull_installed (by decide : (5 : UInt64) ≠ 0)
  have hfirst : storeMachine.run sampleStore [.apply (sampleFull 5)] =
      sampleStore.ticked.replaced (sampleFull 5) fingerprint 0 := by
    rw [Machine.run_cons, Machine.run_nil, step_apply, hexec]
  have hboth : storeMachine.run sampleStore [.apply (sampleFull 5), .apply sampleMalformed] =
      sampleStore.ticked.replaced (sampleFull 5) fingerprint 0 := by
    rw [Machine.run_cons, step_apply, hexec]
    rfl
  rw [hfirst, hboth]
  exact ⟨⟨rfl, .inr ⟨rfl, (by decide : 5 + 1 < 9)⟩⟩, ⟨_, rfl⟩, _, rfl⟩

/-! ## What a Full event settles -/

/-- A store that was never synchronised asks for a Full Sync. -/
theorem unsynced_needs_step (hs : s.fullSynced = false → s.needsFullSync = true)
    (hacts : Acts s call answer s') : s'.fullSynced = false → s'.needsFullSync = true := by
  have hticked : s.ticked.fullSynced = false → s.ticked.needsFullSync = true := by
    cases hnow : (s.toClockGuard.read s.clock).1 with
    | none =>
      rw [ticked_of_none hnow]
      exact fun _ => rfl
    | some now =>
      rw [ticked_of_some hnow]
      exact hs
  cases hacts with
  | idle | refused | repeated | watched | suppressed => exact hs
  | latched _ _ => exact fun _ => rfl
  | stopped | advanced | looked => exact hticked
  | replaced _ => exact fun h => by cases h

theorem unsynced_needs {processClock : MonotonicClock} {config : Config} {s₀ : Store}
    (hnew : new processClock config = .ok s₀) (hr : storeMachine.Reachable s₀ s) :
    s.fullSynced = false → s.needsFullSync = true :=
  Machine.invariant (P := fun s => s.fullSynced = false → s.needsFullSync = true)
    (fun _ => (new_ok hnew).2.2.2.2) (fun _ call _ hs => unsynced_needs_step hs (step_acts _ call)) hr

theorem lookup_not_requiresFullSync (hsynced : s.fullSynced = true)
    (hcurrent : s.needsFullSync = false) (functionID : GoString) :
    (Op.exec (Store.lookup functionID) s).1 ≠ .error Store.requiresFullSync := by
  -- the other errors of a lookup have other texts
  have hother : ∀ code message field,
      message ≠ ("gateway serving view requires Full Sync" : GoString) →
      (.error (.problem ⟨code, message, field⟩) : Except GoError View) ≠
        .error Store.requiresFullSync := by
    intro code message field hne heq
    simp only [Store.requiresFullSync, classified, Except.error.injEq, GoError.problem.injEq,
      Problem.Error.mk.injEq] at heq
    exact hne heq.2.1
  rw [Store.lookup, Op.exec_failIf_bind]
  cases hid : identifierPattern functionID with
  | false =>
    exact hother .invalidArgument "must be a valid identifier" "function_id" (by decide)
  | true =>
    simp only [Bool.not_true, Bool.false_eq_true, if_false, exec_elapsedLocked_bind]
    cases hnow : (s.toClockGuard.read s.clock).1 with
    | none => exact hother _ _ _ (by decide)
    | some now =>
      have hopen : Opens s now := ⟨hnow, hsynced, hcurrent⟩
      simp only [Op.exec_get_bind, Op.exec_failIf_bind, if_neg (Bool.eq_false_iff.mp hopen.ticked),
        Op.exec_orFail_bind]
      cases s.ticked.functions.get? functionID with
      | none => exact hother _ _ _ (by decide)
      | some record =>
        simp only
        split_ifs
        · exact hother _ _ _ (by decide)
        · intro h
          cases h

/--
**When a successful Full Sync synchronises.** `Apply` of a Full event in a reachable state,
returning nil (so the clock is healthy), leaves a synchronised store with exactly the event's
snapshots if and only if the event was installed or there was nothing to do. At the current position
an event is taken for a repetition, which changes nothing, also when a Full Sync is owed.
-/
theorem full_sync_settles {processClock : MonotonicClock} {config : Config} {s₀ s : Store}
    (hnew : new processClock config = .ok s₀) (hr : storeMachine.Reachable s₀ s)
    {event : Event} (hfull : event.full = true)
    (hok : (Op.exec (Store.apply event) s).1 = .ok ()) :
    ((Op.exec (Store.apply event) s).2.needsFullSync = false ∧
      (Op.exec (Store.apply event) s).2.held = contents event.snapshots ∧
      ∀ snapshot ∈ event.snapshots,
        (Op.exec (Store.lookup snapshot.functionID) (Op.exec (Store.apply event) s).2).1 ≠
          .error Store.requiresFullSync) ↔
      samePosition event s.position = false ∨
        (s.needsFullSync = false ∧ s.held = contents event.snapshots) := by
  have hneeds := unsynced_needs hnew hr
  have hacts := acts_apply s event
  simp only [Store.perform, hok] at hacts
  generalize (Op.exec (Store.apply event) s).2 = s' at hacts ⊢
  cases hacts with
  | idle hidle => exact absurd hidle id
  | repeated _ _ hsame _ =>
    rw [hsame]
    refine ⟨fun h => .inr ⟨h.1, h.2.1⟩, fun h => ?_⟩
    obtain ⟨hcurrent, hheld⟩ := h.resolve_left (by simp)
    have hsynced : s.fullSynced = true := by
      by_contra hno
      rw [hneeds (Bool.eq_false_iff.mpr hno)] at hcurrent
      cases hcurrent
    exact ⟨hcurrent, hheld, fun snapshot _ => lookup_not_requiresFullSync hsynced hcurrent _⟩
  | replaced hrep =>
    exact ⟨fun _ => .inl hrep.fresh, fun _ => ⟨rfl, held_replaced hrep, fun snapshot _ =>
      lookup_not_requiresFullSync rfl rfl _⟩⟩
  | advanced ha =>
    cases ha.incremental.symm.trans hfull
  | looked hl => rcases hl with ⟨id, hl⟩ | hl <;> cases hl

/-- At a fresh store the sample is installed, and settles it. -/
theorem full_sync_settles_sample :
    (Op.exec (Store.apply (sampleFull 5)) sampleStore).2.needsFullSync = false ∧
      (Op.exec (Store.apply (sampleFull 5)) sampleStore).2.held =
        contents (sampleFull 5).snapshots := by
  obtain ⟨fingerprint, -, hexec⟩ := sampleFull_installed (by decide : (5 : UInt64) ≠ 0)
  have hsettled := (full_sync_settles sampleStore_new .init rfl (congrArg Prod.fst hexec)).mpr
    (.inl rfl)
  exact ⟨hsettled.1, hsettled.2.1⟩

/-- An incremental event that skips a position. -/
def sampleGap : Event := ⟨false, 1, 7, [sampleSnapshot 7]⟩

/--
A Full event, an incremental event that skips a position, and the Full event again: the second Full
Sync is answered with nil, and the store still asks for one.
-/
theorem full_sync_repeated_unsettled :
    let s := storeMachine.run sampleStore [.apply (sampleFull 5), .apply sampleGap]
    s.clockHealthy = true ∧ (Op.exec (Store.apply (sampleFull 5)) s).1 = .ok () ∧
      (Op.exec (Store.apply (sampleFull 5)) s).2.needsFullSync = true ∧
      (Op.exec (Store.lookup "function-1") (Op.exec (Store.apply (sampleFull 5)) s).2).1 =
        .error Store.requiresFullSync := by
  obtain ⟨fingerprint, hnormalize, hexec⟩ := sampleFull_installed (by decide : (5 : UInt64) ≠ 0)
  have haccept := sampleFull_acceptable (by decide : (7 : UInt64) ≠ 0)
  obtain ⟨gapPrint, hgap⟩ := @normalizeEvent_exists sampleGap _ haccept.distinct
    haccept.valid (fun _ => rfl) haccept.epoch_pos haccept.sequence_pos haccept.bounded
  set s₁ := sampleStore.ticked.replaced (sampleFull 5) fingerprint 0
  have hlatched : storeMachine.run sampleStore [.apply (sampleFull 5), .apply sampleGap] =
      { s₁ with needsFullSync := true } := by
    obtain ⟨e, hskip⟩ : ∃ e, Op.exec (Store.apply sampleGap) s₁ =
        (.error e, { s₁ with needsFullSync := true }) := by
      rw [Store.apply, Op.exec_get_bind, show s₁.maxFunctions = defaultMaxFunctions from rfl,
        Op.exec_ofExcept_ok_bind hgap]
      exact ⟨_, rfl⟩
    rw [Machine.run_cons, step_apply, hexec, Machine.run_cons, step_apply, hskip, Machine.run_nil]
  have hagain : Op.exec (Store.apply (sampleFull 5)) { s₁ with needsFullSync := true } =
      (.ok (), { s₁ with needsFullSync := true }) := apply_repeated hnormalize rfl rfl rfl
  intro s
  rw [show s = { s₁ with needsFullSync := true } from hlatched, hagain]
  exact ⟨rfl, rfl, rfl, rfl⟩

end MiniCloud.GatewayDiscovery
