import MiniCloud.Problem

/-!
# Sections of a Wasm binary

`internal/wasmprofile/binary.go`: the framing of the sections, read for what the compiler's API does
not tell. Slices and indexing are checked, and one out of range is a crash.
-/

namespace MiniCloud.WasmProfile

open Lib

structure BinaryMetadata where
  declaredImports : UInt32 := 0
  hasStartSection : Bool := false
  deriving DecidableEq

/-- The loop of `readU32` at `index`, with the bytes that are left to it. -/
def readU32From (value : UInt32) (index : Nat) : GoString → Except GoError (UInt32 × Nat)
  | [] => .error (.text "unterminated u32 value")
  | current :: data =>
    if index = 4 ∧ 0x0f < current then .error (.text "u32 value overflows")
    else
      let value := value ||| ((current &&& 0x7f).toUInt32 <<< UInt32.ofNat (7 * index))
      if current &&& 0x80 = 0 then .ok (value, index + 1) else readU32From value (index + 1) data

/-- The value and the number of bytes it took, five at most. -/
def readU32 (data : GoString) : Except GoError (UInt32 × Nat) := readU32From 0 0 (data.take 5)

/-- `data[low:high]`. -/
def slice (data : GoString) (low high : Nat) : Except GoError GoString :=
  if low ≤ high ∧ high ≤ data.length then .ok ((data.drop low).take (high - low))
  else .error (.crash "slice bounds out of range")

/-- The switch on the id of a section whose payload is `wasm[offset:sectionEnd]`. -/
def inspectSection (wasm : GoString) (sectionID : UInt8) (offset sectionEnd : Nat)
    (metadata : BinaryMetadata) : Except GoError BinaryMetadata :=
  if sectionID = 2 then do
    let payload ← slice wasm offset sectionEnd
    let count ← wrapping "reading import count" (readU32 payload)
    .ok { metadata with declaredImports := count.1 }
  else if sectionID = 8 then .ok { metadata with hasStartSection := true }
  else .ok metadata

/-- The loop over the sections. A turn takes one unit of fuel. -/
def inspectFrom (wasm : GoString) : Nat → Nat → BinaryMetadata → Except GoError BinaryMetadata
  | 0, _, _ => .error (.crash "the loop does not end")
  | fuel + 1, offset, metadata =>
    if offset < wasm.length then do
      let sectionID ← orError wasm[offset]? (.crash "index out of range")
      let data ← slice wasm (offset + 1) wasm.length
      let size ← wrapping "reading section size" (readU32 data)
      let offset := offset + 1 + size.2
      let sectionEnd := (offset + size.1.toNat) % 2 ^ 64
      if wasm.length < sectionEnd then .error (.text "section exceeds module size")
      else
        let metadata ← inspectSection wasm sectionID offset sectionEnd metadata
        inspectFrom wasm fuel sectionEnd metadata
    else .ok metadata

def inspectBinary (wasm : GoString) : Except GoError BinaryMetadata :=
  if wasm.length < 8 then .error (.text "module is shorter than its header")
  else inspectFrom wasm wasm.length 8 {}

end MiniCloud.WasmProfile
