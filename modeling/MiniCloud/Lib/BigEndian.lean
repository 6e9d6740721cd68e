import Mathlib.Data.List.Induction
import MiniCloud.Lib.Text

/-!
# Numbers as bytes, and fields behind their lengths

`encoding/binary`'s big-endian order for any width, and the framing that is built on it: a list of
fields, each behind its own length, can be taken apart in one way only.
-/

namespace MiniCloud.Lib

/-- The last digits of a number in base 256, the most significant one first. -/
def bigEndian : Nat → Nat → GoString
  | 0, _ => []
  | width + 1, n => bigEndian width (n / 256) ++ [UInt8.ofNat n]

/-- The number that bytes spell. -/
def ofBigEndian (bs : GoString) : Nat := bs.foldl (fun n b => n * 256 + b.toNat) 0

theorem length_bigEndian (width n : Nat) : (bigEndian width n).length = width := by
  induction width generalizing n with
  | zero => rfl
  | succ width ih => rw [bigEndian, List.length_append, ih, List.length_singleton]

theorem ofBigEndian_concat (bs : GoString) (b : UInt8) :
    ofBigEndian (bs ++ [b]) = ofBigEndian bs * 256 + b.toNat := by
  rw [ofBigEndian, List.foldl_append]
  rfl

theorem ofBigEndian_bigEndian {width n : Nat} (h : n < 256 ^ width) :
    ofBigEndian (bigEndian width n) = n := by
  induction width generalizing n with
  | zero =>
    rw [pow_zero] at h
    obtain rfl : n = 0 := by omega
    rfl
  | succ width ih =>
    have hdiv : n / 256 < 256 ^ width := by
      rw [pow_succ] at h
      omega
    have hbyte : (UInt8.ofNat n).toNat = n % 256 := UInt8.toNat_ofNat'
    rw [bigEndian, ofBigEndian_concat, ih hdiv, hbyte]
    omega

theorem ofBigEndian_lt (bs : GoString) : ofBigEndian bs < 256 ^ bs.length := by
  induction bs using List.reverseRecOn with
  | nil => exact Nat.one_pos
  | append_singleton bs b ih =>
    have hb := b.toNat_lt
    rw [ofBigEndian_concat, List.length_append, List.length_singleton, pow_succ]
    omega

/-- Bytes are what the number they spell is written as. -/
theorem bigEndian_ofBigEndian (bs : GoString) : bigEndian bs.length (ofBigEndian bs) = bs := by
  induction bs using List.reverseRecOn with
  | nil => rfl
  | append_singleton bs b ih =>
    have hb := b.toNat_lt
    have hbyte : UInt8.ofNat (ofBigEndian bs * 256 + b.toNat) = b := by
      rw [← UInt8.toNat_inj, UInt8.toNat_ofNat']
      omega
    have hrest : (ofBigEndian bs * 256 + b.toNat) / 256 = ofBigEndian bs := by omega
    rw [List.length_append, List.length_singleton, bigEndian, ofBigEndian_concat, hbyte, hrest, ih]

/-! ## Framed fields -/

/-- A field behind its length. -/
def frame (width : Nat) (field : GoString) : GoString := bigEndian width field.length ++ field

theorem frame_append_inj {width : Nat} {f g r s : GoString} (hf : f.length < 256 ^ width)
    (hg : g.length < 256 ^ width) (h : frame width f ++ r = frame width g ++ s) : f = g ∧ r = s := by
  rw [frame, frame, List.append_assoc, List.append_assoc] at h
  obtain ⟨hlengths, htails⟩ := List.append_inj h (by rw [length_bigEndian, length_bigEndian])
  have hlength : f.length = g.length := by
    rw [← ofBigEndian_bigEndian hf, hlengths, ofBigEndian_bigEndian hg]
  exact List.append_inj htails hlength

/-- Framed fields are read back in one way. -/
theorem frames_inj {width : Nat} (hwidth : 0 < width) {fs gs : List GoString}
    (hf : ∀ f ∈ fs, f.length < 256 ^ width) (hg : ∀ g ∈ gs, g.length < 256 ^ width)
    (h : fs.flatMap (frame width) = gs.flatMap (frame width)) : fs = gs := by
  induction fs generalizing gs with
  | nil =>
    cases gs with
    | nil => rfl
    | cons g gs =>
      have hlength := congrArg List.length h
      rw [List.flatMap_nil, List.flatMap_cons, List.length_append, frame, List.length_append,
        length_bigEndian, List.length_nil] at hlength
      omega
  | cons f fs ih =>
    cases gs with
    | nil =>
      have hlength := congrArg List.length h
      rw [List.flatMap_nil, List.flatMap_cons, List.length_append, frame, List.length_append,
        length_bigEndian, List.length_nil] at hlength
      omega
    | cons g gs =>
      rw [List.flatMap_cons, List.flatMap_cons] at h
      obtain ⟨rfl, hrest⟩ := frame_append_inj (hf f List.mem_cons_self) (hg g List.mem_cons_self) h
      rw [ih (fun x hx => hf x (List.mem_cons_of_mem f hx))
        (fun x hx => hg x (List.mem_cons_of_mem f hx)) hrest]

end MiniCloud.Lib
