import MiniCloud.GatewayHttp.Handler
import MiniCloud.Proof.Balancer
import MiniCloud.Proof.StoreView

/-!
# The Leases of requests side by side

Any number of requests share one store and one balancer. Between the accesses of one of them the
others move, so what a request may do with its Lease is said against the Leases of all (`Leases`).
-/

namespace MiniCloud.GatewayHttp

open Lib Problem Discovery GatewayDiscovery GatewayRoute GatewayInvoke

/-! ## One request alone -/

theorem run_advance {ρ : Type} (h : Handler) {g g' : Gateway} {es : List Exchange} {i : Nat}
    {http : HTTPRequest} {phase phase' : Phase} {sent sent' : List Sent} {outside : Outside ρ}
    (hlt : i < es.length) (hadvance : advancePhase g outside http phase = (g', phase', sent'))
    (moves : List (Move ρ)) :
    (h.machine ρ).run ⟨g, es.set i ⟨http, phase⟩, sent⟩ (.advance i outside :: moves) =
      (h.machine ρ).run ⟨g', es.set i ⟨http, phase'⟩, sent ++ sent'⟩ moves := by
  rw [Machine.run_cons]
  simp only [Handler.machine, Handler.step, List.getElem?_set_self hlt, hadvance, List.set_set]

/-- A request that nothing comes in between of is one call of the coordinator. -/
theorem run_invoke {ρ : Type} (h : Handler) {g : Gateway} {es : List Exchange} {i : Nat}
    {http : HTTPRequest} {view : View} {request : GatewayInvoke.Request} {sent : List Sent}
    (hlt : i < es.length) (outside : Outside ρ) :
    let after := (h.machine ρ).run ⟨g, es.set i ⟨http, .admitted view request⟩, sent⟩
      (List.replicate 4 (.advance i outside))
    after.gateway = (g.invoke outside request).2 ∧ after.exchanges = es.set i ⟨http, .ended⟩ ∧
      after.sent.map (·.call) = sent.map (·.call) ++ (g.invoke outside request).1.forwarded := by
  have hended : ∀ g : Gateway, advancePhase g outside http .ended = (g, .ended, []) := fun _ => rfl
  rw [Gateway.invoke]
  simp only [List.replicate]
  cases hcanceled : outside.canceled with
  | some err =>
    have hfirst : advancePhase g outside http (.admitted view request) = (g, .ended, []) := by
      simp only [advancePhase, hcanceled]
    rw [run_advance h hlt hfirst, run_advance h hlt (hended _), run_advance h hlt (hended _),
      run_advance h hlt (hended _)]
    simp [refused, Machine.run_nil]
  | none =>
    rcases hlook : Op.exec (look request) g.discovery with ⟨err | ⟨found, decision⟩, discovery⟩
    · have hfirst : advancePhase g outside http (.admitted view request) =
          (⟨discovery, g.balancer⟩, .ended, []) := by
        simp only [advancePhase, hcanceled, hlook]
      rw [run_advance h hlt hfirst, run_advance h hlt (hended _), run_advance h hlt (hended _),
        run_advance h hlt (hended _)]
      simp [refused, Machine.run_nil]
    · have hfirst : advancePhase g outside http (.admitted view request) =
          (⟨discovery, g.balancer⟩, .routed found decision request, []) := by
        simp only [advancePhase, hcanceled, hlook]
      rcases hlease : g.balancer.acquire request.functionID decision.target found.endpoints with
        ⟨err | lease, balancer⟩
      · have hsecond : advancePhase ⟨discovery, g.balancer⟩ outside http
            (.routed found decision request) = (⟨discovery, balancer⟩, .ended, []) := by
          simp only [advancePhase, hlease]
        rw [run_advance h hlt hfirst, run_advance h hlt hsecond, run_advance h hlt (hended _),
          run_advance h hlt (hended _)]
        simp [refused, Machine.run_nil, hlease]
      · have hsecond : advancePhase ⟨discovery, g.balancer⟩ outside http
            (.routed found decision request) =
              (⟨discovery, balancer⟩, .leased found decision request lease, []) := by
          simp only [advancePhase, hlease]
        rw [run_advance h hlt hfirst, run_advance h hlt hsecond, run_advance h hlt rfl,
          run_advance h hlt rfl]
        simp only [Machine.run_nil, hlease, List.append_nil, List.map_append, List.map_map]
        exact ⟨trivial, trivial, congrArg (sent.map (·.call) ++ ·) (List.map_id _)⟩

/-! ## Leases -/

def Phase.lease : Phase → Option Lease
  | .leased _ _ _ lease | .forwarded lease => some lease
  | _ => none

/-- What is held is a Lease on this identity. -/
def on (id : ServingAuth.AssignmentIdentity) (lease : Option Lease) : Bool :=
  lease.any fun l => l.endpoint.assignment == id

/-- What is held is the Lease with this release state. -/
def points (p : Nat) (lease : Option Lease) : Bool := lease.any fun l => l.state == some p

@[simp] theorem on_none (id : ServingAuth.AssignmentIdentity) : on id none = false := rfl

@[simp] theorem on_some (id : ServingAuth.AssignmentIdentity) (l : Lease) :
    on id (some l) = (l.endpoint.assignment == id) := rfl

@[simp] theorem points_none (p : Nat) : points p none = false := rfl

@[simp] theorem points_some (p : Nat) (l : Lease) : points p (some l) = (l.state == some p) := rfl

/-- Only Leases that are out are held, each once, and as many on an identity as are out on it. -/
structure Leases (held : List (Option Lease)) (states : List ReleaseState) : Prop where
  out : ∀ l, some l ∈ held →
    ∃ p, l.state = some p ∧ states[p]? = some ⟨l.endpoint.assignment, false⟩
  once : ∀ p, held.countP (points p) ≤ 1
  counted : ∀ id, held.countP (on id) = unreleased states id

namespace Leases

variable {held : List (Option Lease)} {states : List ReleaseState} {i : Nat} {l : Lease}

theorem acquire (h : Leases held states) (hi : held[i]? = some none) (e : Endpoint) :
    Leases (held.set i (some ⟨e, some states.length⟩)) (states ++ [⟨e.assignment, false⟩]) := by
  obtain ⟨hlt, hget⟩ := List.getElem?_eq_some_iff.mp hi
  refine ⟨fun l hl => ?_, fun p => ?_, fun id => ?_⟩
  · rcases List.mem_or_eq_of_mem_set hl with hl | hl
    · obtain ⟨p, hp, hstate⟩ := h.out l hl
      obtain ⟨hbound, -⟩ := List.getElem?_eq_some_iff.mp hstate
      exact ⟨p, hp, (List.getElem?_append_left hbound).trans hstate⟩
    · cases hl
      exact ⟨_, rfl, List.getElem?_concat_length⟩
  · rw [List.countP_set hlt, hget]
    by_cases hp : p = states.length
    · -- nobody holds a Lease that is not out yet
      have hzero : held.countP (points p) = 0 := by
        refine List.countP_eq_zero.mpr fun lease hlease hpoints => ?_
        cases lease with
        | none => cases hpoints
        | some l =>
          obtain ⟨q, hq, hstate⟩ := h.out l hlease
          obtain ⟨hbound, -⟩ := List.getElem?_eq_some_iff.mp hstate
          rw [points_some, hq, beq_iff_eq, Option.some_inj] at hpoints
          omega
      rw [hzero]
      split_ifs <;> omega
    · simpa [Ne.symm hp] using h.once p
  · rw [List.countP_set hlt, hget, h.counted, unreleased_append]
    by_cases hid : id = e.assignment
    · simp [hid]
    · simp [hid, Ne.symm hid]

theorem release (h : Leases held states) (hi : held[i]? = some (some l)) :
    ∃ p, l.state = some p ∧ states[p]? = some ⟨l.endpoint.assignment, false⟩ ∧
      Leases (held.set i none) (states.set p ⟨l.endpoint.assignment, true⟩) := by
  obtain ⟨hlt, hget⟩ := List.getElem?_eq_some_iff.mp hi
  obtain ⟨p, hp, hstate⟩ := h.out l (List.mem_of_getElem? hi)
  -- the request was the only one with this Lease
  have hgone : (held.set i none).countP (points p) = 0 := by
    rw [List.countP_set hlt, hget, points_some, hp, points_none, beq_self_eq_true, if_pos rfl,
      if_neg Bool.false_ne_true]
    have honce := h.once p
    omega
  refine ⟨p, hp, hstate, fun l' hl' => ?_, fun q => ?_, fun id => ?_⟩
  · obtain ⟨q, hq, hstate'⟩ := h.out l' ((List.mem_or_eq_of_mem_set hl').resolve_right (by simp))
    have hne : p ≠ q := by
      rintro rfl
      exact List.countP_eq_zero.mp hgone _ hl' (by simp [hq])
    exact ⟨q, hq, (List.getElem?_set_ne hne).trans hstate'⟩
  · rw [List.countP_set hlt, points_none, if_neg Bool.false_ne_true]
    have honce := h.once q
    omega
  · have hset := unreleased_set hstate id
    rw [List.countP_set hlt, hget, h.counted]
    by_cases hid : id = l.endpoint.assignment
    · subst hid
      rw [if_pos rfl] at hset
      rw [on_some, on_none, beq_self_eq_true, if_pos rfl, if_neg Bool.false_ne_true]
      omega
    · simpa [hid, Ne.symm hid] using hset.symm

end Leases

/-- The Lease stays with the request and the balancer as it is, or the request acquires one, or it
releases the one it holds. -/
theorem advancePhase_leases {ρ : Type} (g : Gateway) (outside : Outside ρ) (http : HTTPRequest)
    (phase : Phase) {held : List (Option Lease)} {i : Nat} (hi : held[i]? = some phase.lease)
    (h : Leases held g.balancer.states) :
    Leases (held.set i (advancePhase g outside http phase).2.1.lease)
      (advancePhase g outside http phase).1.balancer.states := by
  have hsame : Leases (held.set i phase.lease) g.balancer.states := by
    obtain ⟨hlt, hget⟩ := List.getElem?_eq_some_iff.mp hi
    rw [← hget, List.set_getElem_self]
    exact h
  cases phase with
  | admitted view request =>
    rw [advancePhase]
    cases outside.canceled with
    | some err => exact hsame
    | none =>
      rcases Op.exec (look request) g.discovery with ⟨err | found, discovery⟩ <;> exact hsame
  | routed view decision request =>
    have hdoes := GatewayRoute.step_does g.balancer
      (.acquire request.functionID decision.target view.endpoints)
    rw [advancePhase]
    simp only [GatewayRoute.machine] at hdoes
    rcases hlease : g.balancer.acquire request.functionID decision.target view.endpoints with
      ⟨err | lease, balancer⟩
    · rw [hlease] at hdoes
      cases hdoes
      exact hsame
    · rw [hlease] at hdoes
      cases hdoes
      exact h.acquire hi _
  | leased | ended => exact hsame
  | forwarded lease =>
    obtain ⟨p, hp, hstate, hafter⟩ := h.release hi
    simp only [advancePhase, State.release, hp, hstate]
    exact hafter

/-- A request takes at most one step of the balancer at a time. -/
theorem advancePhase_balancer {ρ : Type} (g : Gateway) (outside : Outside ρ) (http : HTTPRequest)
    (phase : Phase) : (advancePhase g outside http phase).1.balancer = g.balancer ∨
      ∃ call, (advancePhase g outside http phase).1.balancer =
        (GatewayRoute.machine.step g.balancer call).2 := by
  cases phase with
  | admitted view request =>
    rw [advancePhase]
    cases outside.canceled with
    | some err => exact .inl rfl
    | none =>
      rcases Op.exec (look request) g.discovery with ⟨err | found, discovery⟩ <;> exact .inl rfl
  | routed view decision request =>
    refine .inr ⟨.acquire request.functionID decision.target view.endpoints, ?_⟩
    rw [advancePhase]
    simp only [GatewayRoute.machine]
    rcases g.balancer.acquire request.functionID decision.target view.endpoints with
      ⟨err | lease, balancer⟩ <;> rfl
  | leased | ended => exact .inl rfl
  | forwarded lease => exact .inr ⟨.release lease.state, rfl⟩

structure System.Balanced (s : System) : Prop where
  leases : Leases (s.exchanges.map fun e => e.phase.lease) s.gateway.balancer.states
  accounted : s.exchanges.length < 2 ^ 64 → Accounted s.gateway.balancer

theorem step_balanced {ρ : Type} (h : Handler) {s : System} (move : Move ρ) (hi : s.Balanced) :
    (h.step s move).Balanced := by
  cases move with
  | store call => exact ⟨hi.leases, hi.accounted⟩
  | serve env http =>
    have hnone : Leases ((s.exchanges.map fun e => e.phase.lease) ++ [none])
        s.gateway.balancer.states := by
      refine ⟨fun l hl => hi.leases.out l (by simpa using hl), fun p => ?_, fun id => ?_⟩
      · rw [List.countP_append]
        exact hi.leases.once p
      · rw [List.countP_append, hi.leases.counted]
        rfl
    refine ⟨?_, fun hfew => hi.accounted ?_⟩
    · simp only [Handler.step, List.map_append, List.map_singleton]
      cases (Op.exec (h.serve env http) s.gateway.discovery).1 with
      | ok | error => exact hnone
    · simp only [Handler.step, List.length_append] at hfew
      omega
  | advance i outside =>
    rw [Handler.step]
    cases hget : s.exchanges[i]? with
    | none => exact hi
    | some e =>
      have hleases : Leases ((s.exchanges.set i
          ⟨e.http, (advancePhase s.gateway outside e.http e.phase).2.1⟩).map fun e => e.phase.lease)
          (advancePhase s.gateway outside e.http e.phase).1.balancer.states := by
        rw [List.map_set]
        exact advancePhase_leases _ outside e.http e.phase (by rw [List.getElem?_map, hget]; rfl)
          hi.leases
      refine ⟨hleases, fun hfew => ?_⟩
      have haccounted := hi.accounted (by simpa using hfew)
      -- what is out is held by requests, so there are too few of them for the counter to wrap
      have hcountable : ∀ id,
          (advancePhase s.gateway outside e.http e.phase).1.balancer.outstanding id < 2 ^ 64 := by
        intro id
        rw [State.outstanding, ← hleases.counted]
        exact lt_of_le_of_lt List.countP_le_length (by simpa using hfew)
      show Accounted (advancePhase s.gateway outside e.http e.phase).1.balancer
      rcases advancePhase_balancer s.gateway outside e.http e.phase with hsame | ⟨call, hcall⟩
      · rw [hsame]
        exact haccounted
      · rw [hcall] at hcountable ⊢
        exact accounted_step haccounted hcountable

/--
**No Lease leaks and none is shared.** Whatever requests and store calls run side by side from an
idle gateway, the balancer's count of an Endpoint is the number of requests in flight with a Lease
on it (up to the `2 ^ 64` requests its counter has room for), and no two requests hold one Lease.
-/
theorem leases_in_flight {ρ : Type} (h : Handler) (s : Store) (moves : List (Move ρ)) :
    let after := (h.machine ρ).run ⟨⟨s, State.new⟩, [], []⟩ moves
    (after.exchanges.length < 2 ^ 64 → ∀ id,
      after.gateway.balancer.load id = after.exchanges.countP fun e => on id e.phase.lease) ∧
    ∀ p, after.exchanges.countP (fun e => points p e.phase.lease) ≤ 1 := by
  have hidle : System.Balanced ⟨⟨s, State.new⟩, [], []⟩ :=
    ⟨⟨fun _ hl => (by cases hl), fun _ => Nat.zero_le _, fun _ => rfl⟩, fun _ => accounted_new⟩
  have hafter : ((h.machine ρ).run ⟨⟨s, State.new⟩, [], []⟩ moves).Balanced :=
    Machine.invariant hidle (fun _ move _ hi => step_balanced h move hi) (.run .init moves)
  refine ⟨fun hfew id => ?_, fun p => ?_⟩
  · rw [hafter.accounted hfew id, State.outstanding, ← hafter.leases.counted, List.countP_map]
    rfl
  · have honce := hafter.leases.once p
    rw [List.countP_map] at honce
    exact honce

/-- A gateway that serves the sample Function. -/
def sampleServing : Store := sampleStore.ticked.replaced (sampleFull 5) [] 0

/-- A request that has its Lease. -/
def sampleMoves : List (Move Unit) :=
  [.serve ⟨.ok "request-1", .ok "invocation-1", true, true, 1⟩
      ⟨"GET", "/invoke/hello/", some ∅, ∅, []⟩,
    .advance 0 ⟨none, fun _ => .ok none⟩, .advance 0 ⟨none, fun _ => .ok none⟩]

/-- The request is counted at its Endpoint. -/
theorem leases_in_flight_sample :
    ((Handler.machine Unit ⟨Abi.defaults, Duration.second⟩).run
      ⟨⟨sampleServing, State.new⟩, [], []⟩ sampleMoves).gateway.balancer.load sampleAssignment =
        1 := by
  rw [(leases_in_flight ⟨Abi.defaults, Duration.second⟩ sampleServing sampleMoves).1
    (by decide +kernel)]
  decide +kernel

end MiniCloud.GatewayHttp
