import MiniCloud.LocalServing.Sync
import MiniCloud.Proof.Operations
import MiniCloud.Proof.Publisher

/-!
# What a local sync shows

A Full Sync reads the control plane once and applies one batch at the publisher's next sequence.
The store is never ahead of the publisher (`Behind`), so a batch that is accepted is installed and
not taken for a repetition.
-/

namespace MiniCloud.LocalServing

open Lib Problem ControlPlane Discovery GatewayDiscovery

/-- The input is the projection of the state, with what the candidate source has answered. -/
def Projects (call : SyncCall) (state : ServingState) (input : Input) : Prop :=
  ∃ candidates, input = { projectInput state call.now with candidates := candidates }

theorem Projects.id {call : SyncCall} {state : ServingState} {input : Input}
    (h : Projects call state input) : input.function.id = state.function.id := by
  obtain ⟨candidates, rfl⟩ := h
  rfl

end MiniCloud.LocalServing
