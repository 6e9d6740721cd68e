import MiniCloud.Proof.GateSteps

/-!
# The gate is exact

A permission is a matter of history: it was installed, it has not been refreshed since, and nothing
has ended it. `Granted` says so with `Since`, and the invariant ties the gate to it in both
directions. Every stored record is granted; a granted record is stored unless it is spent, that is,
was found invalid at some call and dropped, which no later call can change without ending or
refreshing it first.

A granted record pins the gate down: its epochs are the current ones, its identity is the tracked
one and its connection is the current one. That is why a second identity under the same Assignment
ID, or a disconnect of another connection, cannot interfere.
-/

namespace MiniCloud.ServingAuth

open Lib Problem

variable {g' : Gate} {now : Duration} {call : Call} {answer : Answer}

/-! ## Histories -/

/-- The call installed `authorization`, received on `connection`. -/
def Installs (connection : ControlConnection) (authorization : Authorization) (e : GateEvent) :
    Prop :=
  e.input = .install connection authorization ∧ e.output = .done (.ok ())

/-- The value the call got from the clock. -/
def reading (e : GateEvent) : Duration := e.pre.clock e.pre.reads

/-- The call installed an authorization with exactly this fence. -/
def Refreshes (fence : InvocationFence) (e : GateEvent) : Prop :=
  ∃ connection authorization, Installs connection authorization e ∧ authorization.fence = fence

/--
The call ends every permission of this fence: a revocation of its Assignment, a well-formed control
connection of a higher discovery epoch, or an accepted one of a higher session epoch.
-/
def Ends (fence : InvocationFence) (e : GateEvent) : Prop :=
  e.input = .revoke fence.assignment.assignmentID ∨
  ∃ connection, e.input = .acceptAuthoritativeControl connection ∧
    ((connection.validate = .ok () ∧ fence.discoveryEpoch < connection.discoveryEpoch) ∨
      (e.output = .done (.ok ()) ∧
        fence.assignment.worker.sessionEpoch < connection.sessionEpoch))

/--
By its history the gate owes `fence` permission at clock reading `now`: the latest installation of
this fence has not been ended and has neither expired nor lost its connection.
-/
def Owed (history : List GateEvent) (fence : InvocationFence) (now : Duration) : Prop :=
  ∃ before e after connection authorization,
    history = before ++ e :: after ∧ Installs connection authorization e ∧
    authorization.fence = fence ∧ (∀ e' ∈ after, ¬ Refreshes fence e' ∧ ¬ Ends fence e') ∧
    ((authorization.lifetime = .ttl ∧ now - reading e < authorization.ttl) ∨
      (authorization.lifetime = .liveOnly ∧
        ∀ e' ∈ after, e'.input ≠ .disconnectControl connection))

abbrev AuthorizationRecord.fence (r : AuthorizationRecord) : InvocationFence := r.authorization.fence

abbrev AuthorizationRecord.id (r : AuthorizationRecord) : GoString := r.fence.assignment.assignmentID

/-- The call that `r` records. -/
def Grants (r : AuthorizationRecord) (e : GateEvent) : Prop :=
  Installs r.connection r.authorization e ∧ reading e = r.receivedAt

def Undisturbed (r : AuthorizationRecord) (e : GateEvent) : Prop :=
  ¬ Refreshes r.fence e ∧ ¬ Ends r.fence e

/-- `r` records the latest installation of its fence, and nothing has ended it. -/
def Granted (h : List GateEvent) (r : AuthorizationRecord) : Prop :=
  Since (Grants r) (Undisturbed r) h

/-- Nor has its connection been closed. -/
def Connected (h : List GateEvent) (r : AuthorizationRecord) : Prop :=
  Since (Grants r) (fun e => Undisturbed r e ∧ e.input ≠ .disconnectControl r.connection) h

theorem owed_iff {h : List GateEvent} {fence : InvocationFence} :
    Owed h fence now ↔ ∃ r : AuthorizationRecord, r.fence = fence ∧
      ((r.authorization.lifetime = .ttl ∧ Granted h r ∧ now - r.receivedAt < r.authorization.ttl) ∨
        (r.authorization.lifetime = .liveOnly ∧ Connected h r)) := by
  constructor
  · rintro ⟨before, e, after, connection, authorization, rfl, hin, rfl, hafter, hlife⟩
    refine ⟨⟨authorization, connection, reading e⟩, rfl, ?_⟩
    rcases hlife with ⟨httl, hlt⟩ | ⟨hlive, hconn⟩
    · exact .inl ⟨httl, ⟨before, e, after, rfl, ⟨hin, rfl⟩, hafter⟩, hlt⟩
    · exact .inr ⟨hlive, before, e, after, rfl, ⟨hin, rfl⟩,
        fun e' he' => ⟨hafter e' he', hconn e' he'⟩⟩
  · rintro ⟨r, rfl, ⟨httl, hgranted, hlt⟩ | ⟨hlive, hconn⟩⟩
    · obtain ⟨before, e, after, rfl, ⟨hin, hreading⟩, hafter⟩ := hgranted
      rw [← hreading] at hlt
      exact ⟨before, e, after, _, _, rfl, hin, rfl, hafter, .inl ⟨httl, hlt⟩⟩
    · obtain ⟨before, e, after, rfl, ⟨hin, -⟩, hafter⟩ := hconn
      exact ⟨before, e, after, _, _, rfl, hin, rfl, fun e' he' => (hafter e' he').1,
        .inr ⟨hlive, fun e' he' => (hafter e' he').2⟩⟩

theorem Connected.granted {h : List GateEvent} {r : AuthorizationRecord} (hc : Connected h r) :
    Granted h r :=
  hc.mono (fun _ he => he) fun _ he => he.1

/-! ## The invariant -/

/-- `r` was found invalid, and stays so. -/
def Spent (g : Gate) (r : AuthorizationRecord) : Prop :=
  (r.authorization.lifetime = .liveOnly ∧ g.control.connected = false) ∨
  (r.authorization.lifetime = .ttl ∧ r.authorization.ttl ≤ g.lastElapsed - r.receivedAt)

/-- What a granted record says about the gate. -/
structure Standing (h : List GateEvent) (g : Gate) (r : AuthorizationRecord) : Prop where
  lifetime : r.authorization.lifetime = .ttl ∨ r.authorization.lifetime = .liveOnly
  id_ne_nil : r.id ≠ []
  epoch : r.fence.discoveryEpoch = g.highestDiscoveryEpoch
  worker : r.fence.assignment.worker = g.currentWorkerLocked
  tracked : g.assignments.get? r.id = some r.fence.assignment
  connection : g.control.connection = r.connection
  connection_epoch : r.connection.discoveryEpoch = g.highestDiscoveryEpoch
  connected : g.control.connected = true ↔ Connected h r
  received : r.receivedAt ≤ g.lastElapsed
  stored : g.authorizations.get? r.id = some r ∨ Spent g r

structure GateInv (h : List GateEvent) (g : Gate) : Prop where
  tracks : ClockGuard.Tracks g.clock g.toClockGuard
  granted : ∀ id r, g.authorizations.get? id = some r → Granted h r ∧ r.id = id
  standing : ∀ r, Granted h r → Standing h g r

variable {h : List GateEvent} {g : Gate} {r : AuthorizationRecord}

theorem GateInv.stored_standing (hinv : GateInv h g) {id : GoString}
    (hr : g.authorizations.get? id = some r) : Standing h g r ∧ r.id = id :=
  ⟨hinv.standing r (hinv.granted id r hr).1, (hinv.granted id r hr).2⟩

theorem Spent.later (hs : Spent g r) (hcontrol : g'.control = g.control)
    (hlast : g.lastElapsed ≤ g'.lastElapsed) : Spent g' r := by
  rcases hs with ⟨hl, hc⟩ | ⟨hl, ht⟩
  · exact .inl ⟨hl, by rw [hcontrol]; exact hc⟩
  · exact .inr ⟨hl, Int.le_trans ht (Int.sub_le_sub_right hlast _)⟩

/-- A call that leaves the epochs, the connection and the record's own entries alone. -/
theorem Standing.later {h' : List GateEvent} (hst : Standing h g r)
    (hepoch : g'.highestDiscoveryEpoch = g.highestDiscoveryEpoch)
    (hworker : g'.currentWorkerLocked = g.currentWorkerLocked) (hcontrol : g'.control = g.control)
    (htracked : g'.assignments.get? r.id = g.assignments.get? r.id)
    (hlast : g.lastElapsed ≤ g'.lastElapsed) (hconn : Connected h' r ↔ Connected h r)
    (hstored : g.authorizations.get? r.id = some r → g'.authorizations.get? r.id = some r ∨
      Spent g' r) :
    Standing h' g' r where
  lifetime := hst.lifetime
  id_ne_nil := hst.id_ne_nil
  epoch := hst.epoch.trans hepoch.symm
  worker := hst.worker.trans hworker.symm
  tracked := htracked.trans hst.tracked
  connection := hcontrol ▸ hst.connection
  connection_epoch := hst.connection_epoch.trans hepoch.symm
  connected := by rw [hcontrol, hconn]; exact hst.connected
  received := Int.le_trans hst.received hlast
  stored := hst.stored.elim hstored fun hs => .inr (hs.later hcontrol hlast)

/-! ## One call -/

section Step

variable {e : GateEvent}

/-- A call that installs nothing keeps the grants it does not end. -/
theorem granted_snoc (hnot : ∀ c a, ¬ Installs c a e) :
    Granted (h ++ [e]) r ↔ Granted h r ∧ ¬ Ends r.fence e := by
  have hgrants : ¬ Grants r e := fun hg => hnot _ _ hg.1
  have hfresh : ¬ Refreshes r.fence e := fun ⟨c, a, hin, _⟩ => hnot c a hin
  rw [Granted, since_snoc]
  simp [hgrants, Undisturbed, hfresh, Granted]

theorem connected_snoc (hnot : ∀ c a, ¬ Installs c a e) (hends : ¬ Ends r.fence e) :
    Connected (h ++ [e]) r ↔ Connected h r ∧ e.input ≠ .disconnectControl r.connection := by
  have hgrants : ¬ Grants r e := fun hg => hnot _ _ hg.1
  have hfresh : ¬ Refreshes r.fence e := fun ⟨c, a, hin, _⟩ => hnot c a hin
  rw [Connected, since_snoc]
  simp [hgrants, Undisturbed, hfresh, hends, Connected]

/-- The invariant after a call that installs nothing. -/
theorem GateInv.quiet (hinv : GateInv h g) (hnot : ∀ c a, ¬ Installs c a e)
    (htracks : ClockGuard.Tracks g'.clock g'.toClockGuard)
    (hgranted : ∀ id r, g'.authorizations.get? id = some r → g.authorizations.get? id = some r)
    (hkept : ∀ id r, g'.authorizations.get? id = some r → Standing h g r → ¬ Ends r.fence e)
    (hstanding : ∀ r, Standing h g r → ¬ Ends r.fence e → Standing (h ++ [e]) g' r) :
    GateInv (h ++ [e]) g' where
  tracks := htracks
  granted := by
    intro id r hr
    obtain ⟨hst, hid⟩ := hinv.stored_standing (hgranted id r hr)
    have hg := (hinv.granted id r (hgranted id r hr)).1
    exact ⟨(granted_snoc hnot).mpr ⟨hg, hkept id r hr hst⟩, hid⟩
  standing := by
    intro r hr
    obtain ⟨hg, hends⟩ := (granted_snoc hnot).mp hr
    exact hstanding r (hinv.standing r hg) hends

theorem not_installs {c : ControlConnection} {a : Authorization}
    (hne : e.output ≠ .done (.ok ()) ∨ ∀ c a, e.input ≠ .install c a) : ¬ Installs c a e := by
  rintro ⟨hin, hout⟩
  rcases hne with hne | hne
  · exact hne hout
  · exact hne c a hin

theorem Harmless.not_installs (hh : Harmless g call answer) (c : ControlConnection)
    (a : Authorization) : ¬ Installs c a ⟨g, call, answer, g'⟩ := by
  rintro ⟨rfl, rfl⟩
  exact hh rfl

/-- A harmless call ends no permission that stands. -/
theorem Harmless.not_ends (hh : Harmless g call answer) (hst : Standing h g r) :
    ¬ Ends r.fence ⟨g, call, answer, g'⟩ := by
  rintro (hcall | ⟨c, hcall, ⟨hvalid, hlt⟩ | ⟨hans, hlt⟩⟩)
  · obtain rfl : call = _ := hcall
    exact hst.id_ne_nil hh
  · obtain rfl : call = _ := hcall
    rw [hst.epoch] at hlt
    exact UInt64.not_lt.mpr (hh.1 hvalid) hlt
  · obtain rfl : call = _ := hcall
    have hsession : r.fence.assignment.worker.sessionEpoch = g.currentSessionEpoch := by
      rw [hst.worker]
      rfl
    rw [hsession, hh.2 hans] at hlt
    exact UInt64.lt_irrefl _ hlt

theorem Harmless.not_disconnect (hh : Harmless g call answer) (hst : Standing h g r) :
    call ≠ .disconnectControl r.connection := by
  rintro rfl
  exact hh hst.connection

theorem ticked_tracks (ht : ClockGuard.Tracks g.clock g.toClockGuard) :
    ClockGuard.Tracks g.ticked.clock g.ticked.toClockGuard := ht.read

theorem lastElapsed_le_ticked (g : Gate) : g.lastElapsed ≤ g.ticked.lastElapsed :=
  ClockGuard.lastElapsed_le_read

/-- Only a revocation or a control connection ends a permission. -/
theorem not_ends_of_input {fence : InvocationFence} (hrevoke : ∀ id, e.input ≠ .revoke id)
    (haccept : ∀ c, e.input ≠ .acceptAuthoritativeControl c) : ¬ Ends fence e := by
  rintro (hcall | ⟨c, hcall, -⟩)
  · exact hrevoke _ hcall
  · exact haccept c hcall

/-- A record the gate drops was invalid, and is spent from then on. -/
theorem spent_of_invalid (hst : Standing h g r)
    (hnow : (g.toClockGuard.read g.clock).1 = some now) (hdead : g.validLocked r now = false) :
    Spent g.ticked r := by
  obtain ⟨-, hle, hticked⟩ := ClockGuard.read_some hnow
  have hlast : g.ticked.lastElapsed = now := by
    show (g.toClockGuard.read g.clock).2.lastElapsed = now
    rw [hticked]
  have hreceived : ¬ now < r.receivedAt := Int.not_lt.mpr (Int.le_trans hst.received hle)
  have hepoch : r.authorization.fence.discoveryEpoch = g.highestDiscoveryEpoch := hst.epoch
  simp only [Gate.validLocked, hepoch, ne_eq, not_true_eq_false, hreceived, or_self, if_false] at hdead
  rcases hst.lifetime with httl | hlive
  · right
    simp only [httl, reduceCtorEq, if_false, decide_eq_false_iff_not, Int.not_lt] at hdead
    exact ⟨httl, by rw [hlast]; exact hdead⟩
  · left
    simp only [hlive, if_true, Gate.currentControlLocked, hst.connection, hst.connection_epoch,
      beq_self_eq_true, Bool.and_true] at hdead
    exact ⟨hlive, hdead⟩

/-- A call that has read the clock and changes no more than what is stored of spent records. -/
theorem GateInv.read {kept : GoMap GoString AuthorizationRecord} (hinv : GateInv h g)
    (hcall : (∃ c a, call = .install c a ∧ answer ≠ .done (.ok ())) ∨ ∃ f, call = .authorizeSync f)
    (hsub : ∀ id r, kept.get? id = some r → g.authorizations.get? id = some r)
    (hstored : ∀ r, Standing h g r → g.authorizations.get? r.id = some r →
      kept.get? r.id = some r ∨ Spent g.ticked r)
    (hg' : g' = { g.ticked with authorizations := kept }) :
    GateInv (h ++ [⟨g, call, answer, g'⟩]) g' := by
  subst hg'
  have hno : ∀ fence, ¬ Ends fence ⟨g, call, answer, { g.ticked with authorizations := kept }⟩ := by
    rcases hcall with ⟨c, a, rfl, -⟩ | ⟨f, rfl⟩ <;>
      exact fun fence => not_ends_of_input (fun _ hc => by cases hc) (fun _ hc => by cases hc)
  have hnot : ∀ c a, ¬ Installs c a
      ⟨g, call, answer, { g.ticked with authorizations := kept }⟩ := by
    rcases hcall with ⟨c, a, rfl, hfails⟩ | ⟨f, rfl⟩
    · exact fun c a => not_installs (.inl hfails)
    · exact fun c a => not_installs (.inr (by simp))
  have hdis : ∀ c, call ≠ .disconnectControl c := by
    rcases hcall with ⟨c, a, rfl, -⟩ | ⟨f, rfl⟩ <;> simp
  refine hinv.quiet hnot (ticked_tracks hinv.tracks) hsub (fun _ r _ _ => hno r.fence)
    fun r hst hends => ?_
  refine hst.later rfl rfl rfl rfl (lastElapsed_le_ticked g) ?_ (hstored r hst)
  rw [connected_snoc hnot hends]
  exact and_iff_left (hdis _)

/-- The record a successful installation leaves. -/
theorem GateInv.installed {connection : ControlConnection} {authorization : Authorization}
    (hinv : GateInv h g) (hi : Installable g connection authorization now) {e : GateEvent}
    (he : e = ⟨g, .install connection authorization, .done (.ok ()),
      g.ticked.installed connection authorization now⟩) :
    GateInv (h ++ [e]) (g.ticked.installed connection authorization now) := by
  subst he
  set e : GateEvent := ⟨g, .install connection authorization, .done (.ok ()),
    g.ticked.installed connection authorization now⟩ with he
  obtain ⟨hreading, hle, hticked⟩ := ClockGuard.read_some hi.reading
  have hcontrol := hi.current
  simp only [Gate.currentControlLocked, Bool.and_eq_true, beq_iff_eq] at hcontrol
  obtain ⟨⟨hup, hconn⟩, hepoch⟩ := hcontrol
  let new : AuthorizationRecord := ⟨authorization, connection, now⟩
  have hgrants : Grants new e := ⟨⟨rfl, rfl⟩, hreading.symm⟩
  have hends : ∀ fence, ¬ Ends fence e := fun fence =>
    not_ends_of_input (fun _ hc => by cases hc) (fun _ hc => by cases hc)
  have hrefresh : ∀ fence, Refreshes fence e → fence = authorization.fence := by
    rintro fence ⟨c, a, ⟨hin, -⟩, rfl⟩
    cases hin
    rfl
  -- an older grant under the same Assignment ID has the same fence
  have hsame : ∀ r, Standing h g r → r.id = new.id → r.fence = new.fence := by
    intro r hst hid
    have htracked : g.assignments.get? authorization.fence.assignment.assignmentID =
        some r.fence.assignment := by rw [← hst.tracked]; exact congrArg _ hid.symm
    have hident : r.fence.assignment = authorization.fence.assignment :=
      admits_tracked hi.admitted htracked
    have hdisc : r.fence.discoveryEpoch = authorization.fence.discoveryEpoch := by
      rw [hst.epoch, hi.epoch, hepoch]
    exact InvocationFence.ext hident hdisc
  refine ⟨ticked_tracks hinv.tracks, ?_, ?_⟩
  · intro id r hr
    rcases GoMap.get?_set_cases hr with ⟨hid, rfl⟩ | ⟨hid, hr⟩
    · exact ⟨since_snoc.mpr (.inl hgrants), hid.symm⟩
    · obtain ⟨hg, rfl⟩ := hinv.granted id r hr
      refine ⟨since_snoc.mpr (.inr ⟨hg, fun hf => hid ?_, hends _⟩), rfl⟩
      exact congrArg (fun f => f.assignment.assignmentID) (hrefresh _ hf)
  · intro r hr
    rcases since_snoc.mp hr with ⟨⟨hin, -⟩, hrec⟩ | ⟨hg, hund⟩
    · -- the record of this very call
      obtain rfl : r = new := by
        obtain ⟨a, c, t⟩ := r
        cases hin
        exact congrArg _ (hrec.symm.trans hreading.symm)
      exact {
        lifetime := lifetime_of_valid hi.valid
        id_ne_nil := assignmentID_ne_nil (seq_ok.mp (seq_ok.mp hi.valid).1).1
        epoch := hi.epoch.trans hepoch
        worker := hi.worker
        tracked := GoMap.get?_set_self _ _ _
        connection := hconn
        connection_epoch := hepoch
        connected := ⟨fun _ => since_snoc.mpr (.inl hgrants), fun _ => hup⟩
        received := by
          show now ≤ (g.toClockGuard.read g.clock).2.lastElapsed
          rw [hticked]
        stored := .inl (GoMap.get?_set_self _ _ _) }
    · have hst := hinv.standing r hg
      have hid : r.id ≠ new.id := fun hid =>
        hund.1 ⟨connection, authorization, ⟨rfl, rfl⟩, (hsame r hst hid).symm⟩
      have hconn' : Connected (h ++ [e]) r ↔ Connected h r := by
        rw [Connected, since_snoc]
        have hnot : ¬ Grants r e := fun hgr => hund.1 ⟨_, _, hgr.1, rfl⟩
        have hdis : e.input ≠ .disconnectControl r.connection := fun hc => by cases hc
        simp [hnot, hund, hdis, Connected]
      refine hst.later rfl rfl rfl (GoMap.get?_set_ne _ _ hid) (lastElapsed_le_ticked g) hconn' ?_
      intro hs
      left
      exact (GoMap.get?_set_ne _ _ hid).trans hs

theorem gateInv_step (hinv : GateInv h g) (hacts : Acts g call answer g') :
    GateInv (h ++ [⟨g, call, answer, g'⟩]) g' := by
  cases hacts with
  | kept hh =>
    refine hinv.quiet hh.not_installs hinv.tracks (fun _ _ hr => hr)
      (fun _ _ _ hst => hh.not_ends hst) fun r hst hends => ?_
    refine hst.later rfl rfl rfl rfl (Int.le_refl _) ?_ .inl
    rw [connected_snoc hh.not_installs hends]
    exact and_iff_left (hh.not_disconnect hst)
  | @raised connection e hvalid hepoch =>
    have hempty : (g.raised connection.discoveryEpoch).authorizations = ∅ := by
      simp [Gate.raised, hepoch]
    refine hinv.quiet (fun _ _ => not_installs (.inl (by simp))) ?_ ?_ ?_ fun r hst hends => ?_
    · simp only [Gate.raised, if_pos hepoch]
      exact hinv.tracks
    · simp [hempty]
    · simp [hempty]
    · exact absurd (.inr ⟨connection, rfl, .inl ⟨hvalid, by rw [hst.epoch]; exact hepoch⟩⟩) hends
  | @accepted connection hvalid hepoch hsession =>
    refine hinv.quiet (fun _ _ => not_installs (.inr (by simp))) ?_ ?_ ?_ fun r hst hends => ?_
    · simp only [Gate.accepted, Gate.raised]
      split <;> exact hinv.tracks
    · simp [Gate.accepted]
    · simp [Gate.accepted]
    · refine absurd (.inr ⟨connection, rfl, .inr ⟨rfl, ?_⟩⟩) hends
      rw [hst.worker]
      exact hsession
  | @disconnected connection hcurrent =>
    have hno : ∀ fence, ¬ Ends fence ⟨g, .disconnectControl connection, .done (.ok ()),
        { g with control := { g.control with connected := false } }⟩ := fun fence =>
      not_ends_of_input (fun _ hc => by cases hc) (fun _ hc => by cases hc)
    have hnot : ∀ c a, ¬ Installs c a ⟨g, .disconnectControl connection, .done (.ok ()),
        { g with control := { g.control with connected := false } }⟩ := fun c a =>
      not_installs (.inr (by simp))
    refine hinv.quiet hnot hinv.tracks (fun _ _ hr => hr) (fun _ r _ _ => hno r.fence)
      fun r hst hends => ?_
    exact {
      lifetime := hst.lifetime
      id_ne_nil := hst.id_ne_nil
      epoch := hst.epoch
      worker := hst.worker
      tracked := hst.tracked
      connection := hst.connection
      connection_epoch := hst.connection_epoch
      connected := by
        -- the connection that closed is the record's own
        rw [connected_snoc hnot hends]
        simp [← hst.connection, hcurrent]
      received := hst.received
      stored := by
        rcases hst.stored with hs | ⟨hl, -⟩ | hs
        · exact .inl hs
        · exact .inr (.inl ⟨hl, rfl⟩)
        · exact .inr (.inr hs) }
  | ticked hcall =>
    refine hinv.read (hcall.imp_left fun hinstall => ?_) (fun _ _ hr => hr) (fun _ _ => .inl) rfl
    obtain ⟨c, a, hc⟩ := hinstall
    exact ⟨c, a, hc, by simp⟩
  | installed hi => exact hinv.installed hi rfl
  | authorized =>
    exact hinv.read (.inr ⟨_, rfl⟩) (fun _ _ hr => hr) (fun _ _ => .inl) rfl
  | @dropped fence record now e hp hnow hdead =>
    refine hinv.read (.inr ⟨_, rfl⟩) (fun id r hr => (GoMap.get?_delete_some hr).2)
      (fun r hst hs => ?_) rfl
    by_cases hid : r.id = fence.assignment.assignmentID
    · -- the record that was dropped is this one
      rw [hid, hp.stored] at hs
      cases hs
      exact .inr (spent_of_invalid hst hnow hdead)
    · exact .inl ((GoMap.get?_delete_ne _ hid).trans hs)
  | @revoked assignmentID hid =>
    set g' : Gate := { g with
      assignments := g.assignments.delete assignmentID
      authorizations := g.authorizations.delete assignmentID } with hg'
    have hnot : ∀ c a, ¬ Installs c a ⟨g, .revoke assignmentID, .done (.ok ()), g'⟩ :=
      fun c a => not_installs (.inr (by simp))
    have hget : ∀ id r, g'.authorizations.get? id = some r →
        id ≠ assignmentID ∧ g.authorizations.get? id = some r :=
      fun id r hr => GoMap.get?_delete_some hr
    have hends_iff : ∀ f, Ends f ⟨g, .revoke assignmentID, .done (.ok ()), g'⟩ ↔
        assignmentID = f.assignment.assignmentID := by
      intro f
      simp [Ends]
    refine hinv.quiet hnot hinv.tracks (fun id r hr => (hget id r hr).2) ?_ fun r hst hends => ?_
    · intro id r hr _
      rw [hends_iff]
      obtain ⟨hne, hr⟩ := hget id r hr
      rw [← (hinv.granted id r hr).2] at hne
      exact fun heq => hne heq.symm
    · have hne : r.id ≠ assignmentID := fun heq => hends ((hends_iff _).mpr heq.symm)
      refine hst.later rfl rfl rfl (GoMap.get?_delete_ne _ hne) (Int.le_refl _) ?_ fun hs => ?_
      · rw [connected_snoc hnot hends]
        simp
      · exact .inl ((GoMap.get?_delete_ne _ hne).trans hs)

end Step

/-! ## Whole runs -/

section Runs

variable {processClock : MonotonicClock} {config : Config} {g₀ : Gate}

/-- What `New` returns. -/
theorem new_ok (hnew : new processClock config = .ok g₀) :
    g₀.toClockGuard = ClockGuard.start g₀.clock ∧ g₀.worker = config.worker ∧
      g₀.assignments = ∅ ∧ g₀.authorizations = ∅ ∧ 1 ≤ g₀.maxAuthorizations := by
  obtain ⟨-, -, hnew⟩ := bind_ok.mp hnew
  obtain ⟨u, hchecks, hnew⟩ := bind_ok.mp hnew
  cases hnew
  have hlimit := (List.forall_mem_cons.mp (List.forall_mem_cons.mp (checks_ok.mp hchecks)).2).1
  simp only [Bool.or_eq_false_iff, decide_eq_false_iff_not, Int.not_lt] at hlimit
  exact ⟨rfl, rfl, rfl, rfl, hlimit.1⟩

theorem gateInv_run (hnew : new processClock config = .ok g₀) (calls : List Call) :
    GateInv (gateMachine.events g₀ calls) (gateMachine.run g₀ calls) := by
  obtain ⟨hguard, -, -, hempty, -⟩ := new_ok hnew
  refine Machine.trace (P := GateInv) ?_ (fun h s i _ hinv => gateInv_step hinv (step_acts s i)) calls
  refine ⟨?_, by simp [hempty], fun r hr => absurd hr not_since_nil⟩
  rw [hguard]
  exact ClockGuard.tracks_start _

/-- What no call touches. -/
structure SameConfig (g g' : Gate) : Prop where
  clock : g'.clock = g.clock
  worker : g'.worker = g.worker
  maxAuthorizations : g'.maxAuthorizations = g.maxAuthorizations

theorem step_sameConfig (hacts : Acts g call answer g') : SameConfig g g' := by
  cases hacts with
  | raised hvalid hepoch =>
    simp only [Gate.raised, if_pos hepoch]
    exact ⟨rfl, rfl, rfl⟩
  | accepted hvalid hepoch hsession =>
    simp only [Gate.accepted, Gate.raised]
    split <;> exact ⟨rfl, rfl, rfl⟩
  | _ => exact ⟨rfl, rfl, rfl⟩

theorem run_sameConfig (g : Gate) (calls : List Call) : SameConfig g (gateMachine.run g calls) := by
  have hr : gateMachine.Reachable g g := .init
  exact Machine.run_rel (fun _ => ⟨rfl, rfl, rfl⟩)
    (fun _ _ _ hab hbc => ⟨hbc.clock.trans hab.clock, hbc.worker.trans hab.worker,
      hbc.maxAuthorizations.trans hab.maxAuthorizations⟩)
    (fun s i _ => step_sameConfig (step_acts s i)) hr calls

theorem authorizeSync_ok {fence : InvocationFence} :
    (Op.exec (Gate.authorizeSync fence) g).1 = .ok () ↔ ∃ record now, Presented g fence record ∧
      (g.toClockGuard.read g.clock).1 = some now ∧ g.validLocked record now = true := by
  constructor
  · intro hok
    have hacts := acts_authorizeSync g fence
    simp only [Gate.perform, hok] at hacts
    generalize (Op.exec (Gate.authorizeSync fence) g).2 = g' at hacts
    cases hacts with
    | kept hh => exact absurd rfl hh
    | authorized hp hnow hlive => exact ⟨_, _, hp, hnow, hlive⟩
  · rintro ⟨record, now, hp, hnow, hlive⟩
    have hstale : ¬ fence.discoveryEpoch < g.highestDiscoveryEpoch := UInt64.not_lt.mpr hp.epoch
    have hrecord : g.recordFor fence = some record :=
      recordFor_eq_some.mpr ⟨hp.stored, hp.exact_fence⟩
    have hticked : g.ticked.validLocked record now = true := hlive
    rw [Gate.authorizeSync, Op.exec_ofExcept_bind, hp.valid]
    simp only [Op.exec_get_bind, Op.exec_failIf_bind, hstale, hp.mode, hrecord, Op.exec_orFail_bind,
      decide_false, bne_self_eq_false, Bool.false_eq_true, if_false]
    simp [Op.exec_bind, exec_elapsedLocked, hnow, hticked]

/-- A standing record is valid at a reading exactly when it has neither expired nor closed. -/
theorem validLocked_iff (hst : Standing h g r) (hlast : g.lastElapsed ≤ now) :
    g.validLocked r now = true ↔
      (r.authorization.lifetime = .ttl ∧ now - r.receivedAt < r.authorization.ttl) ∨
        (r.authorization.lifetime = .liveOnly ∧ Connected h r) := by
  have hreceived : ¬ now < r.receivedAt := Int.not_lt.mpr (Int.le_trans hst.received hlast)
  have hepoch : r.authorization.fence.discoveryEpoch = g.highestDiscoveryEpoch := hst.epoch
  rw [← hst.connected]
  simp only [Gate.validLocked, hepoch, ne_eq, not_true_eq_false, hreceived, or_self, if_false]
  rcases hst.lifetime with httl | hlive
  · simp [httl]
  · simp [hlive, Gate.currentControlLocked, hst.connection, hst.connection_epoch]

/--
**`AuthorizeSync` is exact.** After any run from `New`, whatever the clock returns, a valid fence
is accepted exactly when its mode is normal, no clock reading up to this one has gone back, and the
history owes it permission at this reading.
-/
theorem authorizeSync_exact (hnew : new processClock config = .ok g₀) (calls : List Call)
    {fence : InvocationFence} (hvalid : fence.validate = .ok ()) :
    (Op.exec (Gate.authorizeSync fence) (gateMachine.run g₀ calls)).1 = .ok () ↔
      fence.assignment.mode = .normal ∧
      ClockGuard.Steady g₀.clock ((gateMachine.run g₀ calls).reads + 1) ∧
      Owed (gateMachine.events g₀ calls) fence (g₀.clock (gateMachine.run g₀ calls).reads) := by
  have hinv := gateInv_run hnew calls
  rw [authorizeSync_ok, owed_iff, ← (run_sameConfig g₀ calls).clock]
  generalize gateMachine.run g₀ calls = g at hinv ⊢
  generalize gateMachine.events g₀ calls = h at hinv ⊢
  constructor
  · rintro ⟨record, now, hp, hnow, hlive⟩
    obtain ⟨hgranted, -⟩ := hinv.granted _ _ hp.stored
    obtain ⟨rfl, hsteady⟩ := (ClockGuard.read_eq_some hinv.tracks).mp hnow
    have hlast := (ClockGuard.read_some hnow).2.1
    refine ⟨hp.mode, hsteady, record, hp.exact_fence, ?_⟩
    rcases (validLocked_iff (hinv.standing _ hgranted) hlast).mp hlive with ⟨httl, hlt⟩ | hconn
    · exact .inl ⟨httl, hgranted, hlt⟩
    · exact .inr hconn
  · rintro ⟨hmode, hsteady, r, rfl, hlife⟩
    have hnow := (ClockGuard.read_eq_some hinv.tracks).mpr ⟨rfl, hsteady⟩
    have hlast := (ClockGuard.read_some hnow).2.1
    have hgranted : Granted h r := by
      rcases hlife with ⟨-, hg, -⟩ | ⟨-, hc⟩
      · exact hg
      · exact hc.granted
    have hst := hinv.standing r hgranted
    have hstored : g.authorizations.get? r.id = some r := by
      refine hst.stored.resolve_right ?_
      rintro (⟨hl, hdown⟩ | ⟨hl, hexpired⟩)
      · rcases hlife with ⟨hl', -⟩ | ⟨-, hc⟩
        · rw [hl] at hl'; cases hl'
        · rw [hst.connected.mpr hc] at hdown; cases hdown
      · rcases hlife with ⟨-, -, hlt⟩ | ⟨hl', -⟩
        · exact absurd (Int.lt_of_le_of_lt (Int.le_trans hexpired (Int.sub_le_sub_right hlast _)) hlt)
            (Int.lt_irrefl _)
        · rw [hl] at hl'; cases hl'
    refine ⟨r, _, ⟨hvalid, ?_, hmode, hstored, rfl⟩, hnow, ?_⟩
    · rw [hst.epoch]
      exact UInt64.le_refl _
    · refine (validLocked_iff hst hlast).mpr ?_
      rcases hlife with ⟨httl, -, hlt⟩ | hconn
      · exact .inl ⟨httl, hlt⟩
      · exact .inr hconn

end Runs

/-! ## A sample run -/

/-- A gate whose clock advances one second a reading. -/
def sampleConfig : Config where
  worker := ⟨"worker-1", "boot-1"⟩
  clock := some fun n => n * Duration.second
  maxTTL := 0
  maxAuthorizations := 0

def sampleGate : Gate where
  toClockGuard := ClockGuard.start fun n => n * Duration.second
  worker := ⟨"worker-1", "boot-1"⟩
  clock := fun n => n * Duration.second
  maxTTL := defaultMaxTTL
  maxAuthorizations := defaultMaxAuthorizations
  highestDiscoveryEpoch := 0
  currentSessionEpoch := 0
  control := ⟨default, false⟩
  assignments := ∅
  authorizations := ∅

def sampleConnection : ControlConnection := ⟨"connection-1", 1, 1⟩

def sampleFence : InvocationFence where
  assignment :=
    { worker := ⟨"worker-1", "boot-1", 1⟩
      assignmentID := "assignment-1"
      versionID := "version-1"
      admissionEpoch := 1
      deploymentGeneration := 1
      policyDigest := "sha256:0000000000000000000000000000000000000000000000000000000000000000"
      mode := .normal }
  discoveryEpoch := 1

def sampleAuthorization : Authorization := ⟨sampleFence, .ttl, 2 * Duration.second⟩

def sampleCalls : List Call :=
  [.acceptAuthoritativeControl sampleConnection, .install sampleConnection sampleAuthorization]

theorem sampleGate_new : new (fun _ => 0) sampleConfig = .ok sampleGate := rfl

theorem sampleFence_valid : sampleFence.validate = .ok () := rfl

/-- One second after it was installed for two, the sample permission is honoured. -/
theorem authorizeSync_exact_sample :
    (Op.exec (Gate.authorizeSync sampleFence) (gateMachine.run sampleGate sampleCalls)).1 =
      .ok () := by
  refine (authorizeSync_exact sampleGate_new sampleCalls sampleFence_valid).mpr ⟨rfl, ?_, ?_⟩
  · intro i j hij _
    show (i : Int) * Duration.second ≤ j * Duration.second
    exact Int.mul_le_mul_of_nonneg_right (by omega) (by decide)
  · refine ⟨[_], _, [], sampleConnection, sampleAuthorization, rfl, ⟨rfl, rfl⟩, rfl, by simp,
      .inl ⟨rfl, ?_⟩⟩
    decide

end MiniCloud.ServingAuth
