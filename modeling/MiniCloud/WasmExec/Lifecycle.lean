import MiniCloud.Lib.Chan
import MiniCloud.Lib.GoMap
import MiniCloud.Lib.Machine
import MiniCloud.Problem

/-!
# The lifecycle of a runtime resource

`internal/wasmexec/lifecycle.go`: operations begin and end, and `close` releases the resource once
they are over. Every critical section of the mutex is one step, and so is a `select` that takes
one of its cases. A call of `close` is somewhere between two such steps, which is its `Phase`; its
context may be cancelled at any time. `release` runs from the step that starts it to the step
that records its result.
-/

namespace MiniCloud.WasmExec

open Lib

structure Lifecycle where
  active : Int
  closing : Bool
  closed : Bool
  releasing : Bool
  drained : Chan
  releaseDone : Option Chan
  closeErr : Option GoError

/-- Where a call of `close` is. -/
inductive Phase where
  /-- At the head of the loop. -/
  | looping
  /-- Selecting on the end of another call's release; a nil channel is never ready. -/
  | awaitingRelease (releaseDone : Option Chan)
  /-- Selecting on the end of the operations. -/
  | awaitingDrained (drained : Chan)
  /-- Past that, before it takes the mutex again. -/
  | ready
  /-- Running `release`. -/
  | releasing (releaseDone : Chan)
  | returned (err : Option GoError)
  deriving DecidableEq

/-- A lifecycle with the channels it made, the operations that began and did not end, and the
calls of `close`. -/
structure State where
  life : Lifecycle
  chans : Channels
  running : List Nat
  calls : GoMap Nat Phase

/-- `newLifecycle`: no operation, so the channel is closed from the start. -/
def newLifecycle : State where
  life := ⟨0, false, false, false, 0, none, none⟩
  chans := ⟨[true]⟩
  running := []
  calls := ∅

inductive Move where
  | «begin» (op : Nat)
  | «end» (op : Nat)
  /-- The head of the loop, for a new call or one that comes back to it. -/
  | enter (call : Nat)
  /-- The awaited channel is closed. -/
  | wake (call : Nat)
  /-- The context is done. -/
  | cancel (call : Nat) (err : GoError)
  /-- The second critical section. -/
  | lock (call : Nat)
  /-- `release` has returned, and its result is recorded. -/
  | released (call : Nat) (err : Option GoError)

/-- What a step shows. -/
inductive Effect where
  | nothing
  | began (ok : Bool)
  | returned (err : Option GoError)
  | releaseStarted
  | releaseEnded (err : Option GoError)
  /-- The panic of closing a closed channel. -/
  | crashed
  deriving DecidableEq

def State.begin (s : State) (op : Nat) : Effect × State :=
  if s.life.closing || s.life.closed then (.began false, s)
  else
    let drained := if s.life.active == 0 then s.chans.next else s.life.drained
    let chans := if s.life.active == 0 then s.chans.make else s.chans
    (.began true, {
      life := { s.life with active := s.life.active + 1, drained := drained }
      chans := chans
      running := op :: s.running
      calls := s.calls })

def State.end (s : State) (op : Nat) : Effect × State :=
  let life := { s.life with active := s.life.active - 1 }
  let running := s.running.erase op
  if s.life.active - 1 == 0 then
    match s.chans.close s.life.drained with
    | none => (.crashed, ⟨life, s.chans, running, s.calls⟩)
    | some chans => (.nothing, ⟨life, chans, running, s.calls⟩)
  else (.nothing, ⟨life, s.chans, running, s.calls⟩)

def State.enter (s : State) (call : Nat) : Effect × State :=
  if s.life.closed then
    (.returned s.life.closeErr,
      { s with calls := s.calls.set call (.returned s.life.closeErr) })
  else if s.life.releasing then
    (.nothing, { s with
      life := { s.life with closing := true }
      calls := s.calls.set call (.awaitingRelease s.life.releaseDone) })
  else
    (.nothing, { s with
      life := { s.life with closing := true }
      calls := s.calls.set call (.awaitingDrained s.life.drained) })

def State.wake (s : State) (call : Nat) : Phase → Effect × State
  | .awaitingRelease (some releaseDone) =>
    if s.chans.isClosed releaseDone then
      (.nothing, { s with calls := s.calls.set call .looping })
    else (.nothing, s)
  | .awaitingDrained drained =>
    if s.chans.isClosed drained then (.nothing, { s with calls := s.calls.set call .ready })
    else (.nothing, s)
  | _ => (.nothing, s)

def State.cancel (s : State) (call : Nat) (err : GoError) : Phase → Effect × State
  | .awaitingRelease _ | .awaitingDrained _ =>
    (.returned (some err), { s with calls := s.calls.set call (.returned (some err)) })
  | _ => (.nothing, s)

/-- Only `releasing` is looked at again. -/
def State.lock (s : State) (call : Nat) : Effect × State :=
  if s.life.releasing then (.nothing, { s with calls := s.calls.set call .looping })
  else
    (.releaseStarted, {
      life := { s.life with releasing := true, releaseDone := some s.chans.next }
      chans := s.chans.make
      running := s.running
      calls := s.calls.set call (.releasing s.chans.next) })

def State.released (s : State) (call : Nat) (releaseDone : Chan) (err : Option GoError) :
    Effect × State :=
  let life := { s.life with
    releasing := false
    closeErr := err
    closed := if err.isNone then true else s.life.closed }
  let calls := s.calls.set call (.returned err)
  match s.chans.close releaseDone with
  | none => (.crashed, ⟨life, s.chans, s.running, calls⟩)
  | some chans => (.releaseEnded err, ⟨life, chans, s.running, calls⟩)

/-- A move that the program is not ready for does nothing. -/
def machine : Machine State Move Effect where
  step s
    | .begin op => if s.running.contains op then (.nothing, s) else s.begin op
    | .end op => if s.running.contains op then s.end op else (.nothing, s)
    | .enter call =>
      match s.calls.get? call with
      | none | some .looping => s.enter call
      | _ => (.nothing, s)
    | .wake call =>
      match s.calls.get? call with
      | none => (.nothing, s)
      | some phase => s.wake call phase
    | .cancel call err =>
      match s.calls.get? call with
      | none => (.nothing, s)
      | some phase => s.cancel call err phase
    | .lock call =>
      match s.calls.get? call with
      | some .ready => s.lock call
      | _ => (.nothing, s)
    | .released call err =>
      match s.calls.get? call with
      | some (.releasing releaseDone) => s.released call releaseDone err
      | _ => (.nothing, s)

end MiniCloud.WasmExec
