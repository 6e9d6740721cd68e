import MiniCloud.Problem

/-!
# What a guest writes

`internal/wasmexec/output.go`: the standard output is cut at a limit and the call cancelled; the
log is cut at its own limits, by line and in all, and goes on without an error. The calls of the
`cancel` callback are counted. `bytes.Buffer` appends and does not fail. The counters of the log are
an `int` and an `int64`; neither exceeds the number of bytes written, so they are an `Int` here.
-/

namespace MiniCloud.WasmExec

open Lib

def errOutputLimit : GoError := .text "wasm stdout exceeds limit"

structure BoundedOutput where
  buffer : GoString
  limit : Int
  exceeded : Bool
  cancels : Nat

def newBoundedOutput (limit : Int) : BoundedOutput := ⟨[], limit, false, 0⟩

/-- The bytes it says were written, its error, and the output after the call. -/
def BoundedOutput.write (w : BoundedOutput) (data : GoString) :
    (Nat × Option GoError) × BoundedOutput :=
  if w.exceeded then ((0, some errOutputLimit), w)
  else
    let remaining := w.limit - w.buffer.length
    if remaining < data.length then
      let head := data.take (max remaining 0).toNat
      ((head.length, some errOutputLimit),
        { w with buffer := w.buffer ++ head, exceeded := true, cancels := w.cancels + 1 })
    else ((data.length, none), { w with buffer := w.buffer ++ data })

structure GuestLog where
  buffer : GoString
  maxBytes : Int
  maxLineBytes : Int
  lineBytes : Int
  dropped : Int

def newGuestLog (maxBytes maxLineBytes : Int) : GuestLog := ⟨[], maxBytes, maxLineBytes, 0, 0⟩

def newline : UInt8 := 0x0A

/-- The body of the loop over the bytes. -/
def GuestLog.writeByte (w : GuestLog) (current : UInt8) : GuestLog :=
  let lineAllowed := current = newline ∨ w.lineBytes < w.maxLineBytes
  let totalAllowed := w.buffer.length < w.maxBytes
  { w with
    buffer := if lineAllowed ∧ totalAllowed then w.buffer ++ [current] else w.buffer
    dropped := if lineAllowed ∧ totalAllowed then w.dropped else w.dropped + 1
    lineBytes := if current = newline then 0 else w.lineBytes + 1 }

def GuestLog.write (w : GuestLog) (data : GoString) : (Nat × Option GoError) × GuestLog :=
  ((data.length, none), data.foldl GuestLog.writeByte w)

/-- The writes of a guest in order, to either. -/
def writeAll {σ : Type} (write : σ → GoString → (Nat × Option GoError) × σ) (w : σ)
    (chunks : List GoString) : σ :=
  chunks.foldl (fun w data => (write w data).2) w

end MiniCloud.WasmExec
