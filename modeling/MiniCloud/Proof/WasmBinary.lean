import Mathlib.Data.Nat.Bitwise
import Mathlib.Tactic.IntervalCases
import MiniCloud.WasmProfile.Binary

/-!
# What the section scan accepts

`readU32` reads an unsigned LEB128 number, and `InspectBinary` succeeds on the byte strings that
split into sections. The split is unique, since a number says where it ends, so the scan at an
offset is compared with the split of what is left there.
-/

namespace MiniCloud.WasmProfile

open Lib

/-! ## Numbers -/

/-- The number that groups of seven bits spell, the lowest first. -/
def ofGroups : GoString → Nat
  | [] => 0
  | b :: bs => b.toNat % 128 + 128 * ofGroups bs

/-- The last byte, and no other, has its high bit clear. -/
def Terminated : GoString → Prop
  | [] => False
  | b :: bs => (b.toNat < 128 ∧ bs = []) ∨ (128 ≤ b.toNat ∧ Terminated bs)

/-- An unsigned LEB128 of a `u32`. -/
structure Encodes (bytes : GoString) (n : Nat) : Prop where
  terminated : Terminated bytes
  short : bytes.length ≤ 5
  value : ofGroups bytes = n
  fits : n < 2 ^ 32

theorem high_bit (b : UInt8) : b &&& 0x80 = 0 ↔ b.toNat < 128 := by
  have hb := b.toNat_lt
  rw [← UInt8.toNat_inj, UInt8.toNat_and]
  show b.toNat &&& 2 ^ 7 = 0 ↔ _
  rw [Nat.and_two_pow, mul_eq_zero_iff_right (by decide), Bool.toNat_eq_zero,
    Nat.testBit_eq_decide_div_mod_eq, decide_eq_false_iff_not]
  omega

/-- The bits of one more byte go over the others. -/
theorem toNat_group {value : UInt32} {index : Nat} {b : UInt8}
    (hvalue : value.toNat < 2 ^ (7 * index)) (hindex : index ≤ 4)
    (hfits : ¬ (index = 4 ∧ 0x0f < b)) :
    (value ||| ((b &&& 0x7f).toUInt32 <<< UInt32.ofNat (7 * index))).toNat =
      value.toNat + 2 ^ (7 * index) * (b.toNat % 128) := by
  have hlow : (b &&& 0x7f).toNat = b.toNat % 128 := by
    rw [UInt8.toNat_and]
    exact Nat.and_two_pow_sub_one_eq_mod b.toNat 7
  have hbound : 2 ^ (7 * index) * (b.toNat % 128) < 2 ^ 32 := by
    have hlast : index = 4 → b.toNat ≤ 15 := fun h =>
      UInt8.le_iff_toNat_le.mp (UInt8.not_lt.mp fun hlt => hfits ⟨h, hlt⟩)
    interval_cases index <;> omega
  have hshift : (UInt32.ofNat (7 * index)).toNat % 32 = 7 * index := by
    rw [UInt32.toNat_ofNat']
    omega
  rw [UInt32.toNat_or, UInt32.toNat_shiftLeft, hshift, UInt8.toNat_toUInt32, hlow,
    Nat.shiftLeft_eq, Nat.mul_comm, Nat.mod_eq_of_lt hbound, Nat.or_comm, Nat.add_comm]
  exact (Nat.two_pow_add_eq_or_of_lt hvalue _).symm

/-- The data starts with a number of `k` bytes. -/
def Starts (data : GoString) (n k : Nat) : Prop :=
  ∃ bytes rest, data = bytes ++ rest ∧ Terminated bytes ∧ n = ofGroups bytes ∧ k = bytes.length

theorem Starts.length {data : GoString} {n k : Nat} (h : Starts data n k) :
    0 < k ∧ k ≤ data.length := by
  obtain ⟨bytes, rest, rfl, hbytes, -, rfl⟩ := h
  cases bytes with
  | nil => exact hbytes.elim
  | cons b bytes => simp

theorem starts_cons {b : UInt8} {data : GoString} {n k : Nat} :
    Starts (b :: data) n k ↔ (b.toNat < 128 ∧ n = b.toNat % 128 ∧ k = 1) ∨
      (128 ≤ b.toNat ∧ ∃ m j, Starts data m j ∧ n = b.toNat % 128 + 128 * m ∧ k = j + 1) := by
  constructor
  · rintro ⟨_ | ⟨c, bytes⟩, rest, hdata, hbytes, rfl, rfl⟩
    · exact hbytes.elim
    obtain ⟨rfl, hdata⟩ := List.cons.inj hdata
    rcases hbytes with ⟨hb, rfl⟩ | ⟨hb, hbytes⟩
    · exact .inl ⟨hb, rfl, rfl⟩
    · exact .inr ⟨hb, _, _, ⟨bytes, rest, ‹_›, hbytes, rfl, rfl⟩, rfl, rfl⟩
  · rintro (⟨hb, rfl, rfl⟩ | ⟨hb, _, _, ⟨bytes, rest, rfl, hbytes, rfl, rfl⟩, rfl, rfl⟩)
    · exact ⟨[b], data, rfl, .inl ⟨hb, rfl⟩, rfl, rfl⟩
    · exact ⟨b :: bytes, rest, rfl, .inr ⟨hb, hbytes⟩, rfl, rfl⟩

/-- The loop adds the number that the bytes left to it start with. -/
theorem readU32From_ok {value w : UInt32} {index k : Nat} {data : GoString}
    (hshort : index + data.length ≤ 5) (hvalue : value.toNat < 2 ^ (7 * index)) :
    readU32From value index data = .ok (w, k) ↔ ∃ n j, Starts data n j ∧
      w.toNat = value.toNat + 2 ^ (7 * index) * n ∧ k = index + j := by
  induction data generalizing value index with
  | nil =>
    refine ⟨fun h => (by cases h), ?_⟩
    rintro ⟨n, j, hstarts, -⟩
    have hlength := hstarts.length
    rw [List.length_nil] at hlength
    omega
  | cons b data ih =>
    rw [List.length_cons] at hshort
    have hpow : 2 ^ (7 * (index + 1)) = 2 ^ (7 * index) * 128 := by
      rw [show 7 * (index + 1) = 7 * index + 7 by omega, Nat.pow_add]
    simp only [starts_cons, readU32From]
    split_ifs with hover hlast
    · -- the fifth byte has four bits at most
      refine ⟨fun h => (by cases h), ?_⟩
      obtain ⟨rfl, hb⟩ := hover
      have hb : 15 < b.toNat := UInt8.lt_iff_toNat_lt.mp hb
      have hw := w.toNat_lt
      rintro ⟨_, _, ⟨hlow, rfl, -⟩ | ⟨-, _, j, hstarts, -⟩, heq, -⟩
      · omega
      · have hlength := hstarts.length
        omega
    · rw [high_bit] at hlast
      have hgroup := toNat_group hvalue (by omega) hover
      constructor
      · intro h
        cases h
        exact ⟨_, 1, .inl ⟨hlast, rfl, rfl⟩, hgroup, rfl⟩
      · rintro ⟨_, _, ⟨-, rfl, rfl⟩ | ⟨hb, -⟩, hw, rfl⟩
        · rw [UInt32.toNat_inj.mp (hgroup.trans hw.symm)]
        · omega
    · rw [high_bit] at hlast
      have hgroup := toNat_group hvalue (by omega) hover
      have hle := Nat.mul_le_mul_left (2 ^ (7 * index)) (by omega : b.toNat % 128 ≤ 127)
      rw [ih (by omega) (by omega)]
      constructor
      · rintro ⟨n, j, hstarts, hw, rfl⟩
        refine ⟨_, j + 1, .inr ⟨by omega, n, j, hstarts, rfl, rfl⟩, ?_, by omega⟩
        rw [hw, hgroup, hpow, Nat.mul_add, Nat.mul_assoc, Nat.add_assoc]
      · rintro ⟨_, _, ⟨hb, -⟩ | ⟨-, n, j, hstarts, rfl, rfl⟩, hw, rfl⟩
        · exact absurd hb hlast
        · refine ⟨n, j, hstarts, ?_, by omega⟩
          rw [hw, hgroup, hpow, Nat.mul_add, Nat.mul_assoc, Nat.add_assoc]

theorem readU32_ok {data : GoString} {v : UInt32} {k : Nat} :
    readU32 data = .ok (v, k) ↔
      ∃ bytes rest, data = bytes ++ rest ∧ Encodes bytes v.toNat ∧ k = bytes.length := by
  rw [readU32, readU32From_ok (by rw [List.length_take]; omega) (by decide)]
  simp only [UInt32.toNat_zero, Nat.zero_add, Nat.mul_zero, Nat.pow_zero, Nat.one_mul]
  constructor
  · rintro ⟨_, _, hstarts, hv, rfl⟩
    have hlength := hstarts.length
    obtain ⟨bytes, rest, hdata, hbytes, rfl, rfl⟩ := hstarts
    rw [List.length_take] at hlength
    refine ⟨bytes, rest ++ data.drop 5, ?_, ⟨hbytes, by omega, hv.symm, v.toNat_lt⟩, rfl⟩
    rw [← List.append_assoc, ← hdata, List.take_append_drop]
  · rintro ⟨bytes, rest, rfl, hbytes, rfl⟩
    refine ⟨_, _, ⟨bytes, rest.take (5 - bytes.length), ?_, hbytes.terminated, rfl, rfl⟩,
      hbytes.value.symm, rfl⟩
    rw [List.take_append, List.take_of_length_le hbytes.short]

/-- What is read is a part of the data. -/
theorem readU32_length {data : GoString} {v : UInt32} {k : Nat} (h : readU32 data = .ok (v, k)) :
    k ≤ data.length := by
  obtain ⟨bytes, rest, rfl, -, rfl⟩ := readU32_ok.mp h
  rw [List.length_append]
  omega

/-! ## Sections -/

/-- Consecutive sections: an id, the size of the payload and the payload. -/
inductive Sections : GoString → List (UInt8 × GoString) → Prop
  | nil : Sections [] []
  | cons {id : UInt8} {size payload rest : GoString} {sections : List (UInt8 × GoString)}
      (hsize : Encodes size payload.length) (hrest : Sections rest sections) :
      Sections (id :: (size ++ (payload ++ rest))) ((id, payload) :: sections)

/-- The payloads of the import sections start with these numbers. -/
def Declares (sections : List (UInt8 × GoString)) (counts : List UInt32) : Prop :=
  List.Forall₂ (fun s count => ∃ bytes rest, s.2 = bytes ++ rest ∧ Encodes bytes count.toNat)
    (sections.filter (·.1 = 2)) counts

/-- The size says where a section ends. -/
theorem sections_cons {id : UInt8} {data : GoString} {sections : List (UInt8 × GoString)} :
    Sections (id :: data) sections ↔ ∃ v k, readU32 data = .ok (v, k) ∧
      v.toNat ≤ (data.drop k).length ∧ ∃ others,
        sections = (id, (data.drop k).take v.toNat) :: others ∧
        Sections ((data.drop k).drop v.toNat) others := by
  constructor
  · intro h
    cases h with
    | @cons _ size payload rest sections hsize hrest =>
      have hfits : (UInt32.ofNat payload.length).toNat = payload.length :=
        UInt32.toNat_ofNat_of_lt' hsize.fits
      refine ⟨UInt32.ofNat payload.length, size.length, ?_, ?_⟩
      · exact readU32_ok.mpr ⟨size, payload ++ rest, rfl, hfits.symm ▸ hsize, rfl⟩
      · rw [hfits, List.drop_left, List.length_append, List.take_left, List.drop_left]
        exact ⟨Nat.le_add_right .., sections, rfl, hrest⟩
  · rintro ⟨v, k, hread, hle, others, rfl, hothers⟩
    obtain ⟨size, rest, rfl, hsize, rfl⟩ := readU32_ok.mp hread
    rw [List.drop_left] at hle hothers ⊢
    have hcons := @Sections.cons id size (rest.take v.toNat) (rest.drop v.toNat) others
      (by rwa [List.length_take, Nat.min_eq_left hle]) hothers
    rwa [List.take_append_drop] at hcons

/-- What sections add to the metadata: the last number of imports, and whether one is a start. -/
def Tells (m : BinaryMetadata) (sections : List (UInt8 × GoString)) (m' : BinaryMetadata) : Prop :=
  ∃ counts, Declares sections counts ∧
    m' = ⟨counts.getLast?.getD m.declaredImports,
      m.hasStartSection || sections.any fun s => s.1 = 8⟩

theorem tells_nil {m m' : BinaryMetadata} : Tells m [] m' ↔ m' = m := by
  constructor
  · rintro ⟨counts, hcounts, rfl⟩
    cases hcounts
    simp
  · rintro rfl
    exact ⟨[], .nil, by simp⟩

/-- One section after another. -/
theorem tells_cons {m m' : BinaryMetadata} {id : UInt8} {sections : List (UInt8 × GoString)}
    {wasm : GoString} {offset stop : Nat} (hoffset : offset ≤ stop) (hstop : stop ≤ wasm.length) :
    Tells m ((id, (wasm.drop offset).take (stop - offset)) :: sections) m' ↔
      ∃ next, inspectSection wasm id offset stop m = .ok next ∧ Tells next sections m' := by
  unfold inspectSection
  split_ifs with himport hstart
  · subst himport
    simp only [slice, hoffset, hstop, and_self, if_true, bind_ok, Except.ok.injEq, exists_eq_left',
      wrapping_ok]
    constructor
    · rintro ⟨counts, hcounts, rfl⟩
      cases hcounts with
      | @cons _ count _ counts hcount hcounts =>
        obtain ⟨bytes, rest, hpayload, hbytes⟩ := hcount
        have hread := readU32_ok.mpr ⟨bytes, rest, hpayload, hbytes, rfl⟩
        refine ⟨_, ⟨(count, bytes.length), hread, rfl⟩, counts, hcounts, ?_⟩
        rw [List.getLast?_cons]
        rfl
    · rintro ⟨next, ⟨⟨count, k⟩, hread, rfl⟩, counts, hcounts, rfl⟩
      obtain ⟨bytes, rest, hpayload, hbytes, -⟩ := readU32_ok.mp hread
      refine ⟨count :: counts, .cons ⟨bytes, rest, hpayload, hbytes⟩ hcounts, ?_⟩
      rw [List.getLast?_cons]
      rfl
  · subst hstart
    simp [Tells, Declares]
  · simp [Tells, Declares, himport, hstart]

/-- An import section without its number is an error like any other. -/
theorem inspectSection_crash {m : BinaryMetadata} {id : UInt8} {wasm : GoString}
    {offset stop : Nat} {e : GoError} (hoffset : offset ≤ stop) (hstop : stop ≤ wasm.length)
    (h : inspectSection wasm id offset stop m = .error e) (message : GoString) :
    e ≠ .crash message := by
  unfold inspectSection at h
  split_ifs at h
  rw [slice, if_pos ⟨hoffset, hstop⟩] at h
  cases hread : readU32 ((wasm.drop offset).take (stop - offset)) with
  | error cause =>
    simp only [hread, wrapping, bind, Except.bind, Except.error.injEq] at h
    rw [← h]
    intro hcrash
    cases hcrash
  | ok count =>
    simp only [hread, wrapping, bind, Except.bind] at h
    cases h

/-! ## The scan -/

/--
The scan at an offset, with fuel for the bytes that are left. The induction is on the fuel; each
turn moves to the end of a section.
-/
theorem inspectFrom_ok {wasm : GoString} (hlen : wasm.length < 2 ^ 63) {fuel offset : Nat}
    {m : BinaryMetadata} (hoffset : offset ≤ wasm.length) (hfuel : wasm.length < offset + fuel) :
    (∀ message, inspectFrom wasm fuel offset m ≠ .error (.crash message)) ∧
    ∀ m', inspectFrom wasm fuel offset m = .ok m' ↔
      ∃ sections, Sections (wasm.drop offset) sections ∧ Tells m sections m' := by
  induction fuel generalizing offset m with
  | zero => omega
  | succ fuel ih =>
    rw [inspectFrom]
    by_cases hmore : offset < wasm.length
    swap
    · rw [if_neg hmore, List.drop_eq_nil_of_le (by omega)]
      refine ⟨fun _ => by simp, fun m' => ⟨?_, ?_⟩⟩
      · rintro h
        cases h
        exact ⟨[], .nil, tells_nil.mpr rfl⟩
      · rintro ⟨sections, hsections, htells⟩
        cases hsections
        rw [tells_nil.mp htells]
    rw [if_pos hmore, List.getElem?_eq_getElem hmore, List.drop_eq_getElem_cons hmore]
    generalize wasm[offset] = id
    have hslice : slice wasm (offset + 1) wasm.length = .ok (wasm.drop (offset + 1)) := by
      rw [slice, if_pos ⟨hmore, le_rfl⟩, ← List.length_drop, List.take_length]
    simp only [hslice, orError, bind, Except.bind, sections_cons, List.drop_drop, List.length_drop]
    cases hread : readU32 (wasm.drop (offset + 1)) with
    | error e =>
      refine ⟨fun _ h => (by cases h), fun m' => ⟨fun h => (by cases h), ?_⟩⟩
      rintro ⟨sections, ⟨v, k, hv, -⟩, -⟩
      cases hv
    | ok size =>
      obtain ⟨v, k⟩ := size
      have hk := readU32_length hread
      have hv := v.toNat_lt
      rw [List.length_drop] at hk
      -- the sum of an offset and a 32-bit size does not wrap
      have hend : (offset + 1 + k + v.toNat) % 2 ^ 64 = offset + 1 + k + v.toNat :=
        Nat.mod_eq_of_lt (by omega)
      simp only [wrapping, hend, Except.ok.injEq, Prod.mk.injEq]
      by_cases hfits : wasm.length < offset + 1 + k + v.toNat
      · rw [if_pos hfits]
        refine ⟨fun _ h => (by cases h), fun m' => ⟨fun h => (by cases h), ?_⟩⟩
        rintro ⟨sections, ⟨_, _, ⟨rfl, rfl⟩, hle, -⟩, -⟩
        omega
      rw [if_neg hfits]
      have htells := fun m' sections => @tells_cons m m' id sections wasm (offset + 1 + k)
        (offset + 1 + k + v.toNat) (by omega) (by omega)
      rw [Nat.add_sub_cancel_left] at htells
      cases hsection : inspectSection wasm id (offset + 1 + k) (offset + 1 + k + v.toNat) m with
      | error e =>
        have hcrash := inspectSection_crash (by omega) (by omega) hsection
        refine ⟨fun message h => hcrash message (Except.error.inj h), fun m' => ⟨fun h => (by cases h), ?_⟩⟩
        rintro ⟨_, ⟨_, _, ⟨rfl, rfl⟩, -, others, rfl, -⟩, h⟩
        obtain ⟨next, hnext, -⟩ := (htells m' others).mp h
        cases hsection.symm.trans hnext
      | ok next =>
        have hrest := @ih (offset + 1 + k + v.toNat) next (by omega) (by omega)
        refine ⟨hrest.1, fun m' => (hrest.2 m').trans ⟨?_, ?_⟩⟩
        · rintro ⟨others, hothers, h⟩
          exact ⟨_, ⟨v, k, ⟨rfl, rfl⟩, by omega, others, rfl, hothers⟩,
            (htells m' others).mpr ⟨next, hsection, h⟩⟩
        · rintro ⟨_, ⟨_, _, ⟨rfl, rfl⟩, -, others, rfl, hothers⟩, h⟩
          obtain ⟨next', hnext, h⟩ := (htells m' others).mp h
          cases hsection.symm.trans hnext
          exact ⟨others, hothers, h⟩

/--
**The section scan is exact and safe.** `InspectBinary` never indexes or slices out of range and
ends, on every byte string a slice can hold. It succeeds on the strings of a header and of
consecutive sections in which every import section declares a number of imports, with the last of
these numbers and with whether there is a start section. `readU32` reads the LEB128 number at the
start of its data, so it inverts every encoding of a `u32` in five bytes or less.
-/
theorem inspect_binary (wasm : GoString) (hlen : wasm.length < 2 ^ 63) :
    (∀ message, inspectBinary wasm ≠ .error (.crash message)) ∧
    (∀ metadata, inspectBinary wasm = .ok metadata ↔
      ∃ header rest sections counts, wasm = header ++ rest ∧ header.length = 8 ∧
        Sections rest sections ∧ Declares sections counts ∧
        metadata.declaredImports = counts.getLast?.getD 0 ∧
        (metadata.hasStartSection = true ↔ ∃ s ∈ sections, s.1 = 8)) ∧
    ∀ data v k, readU32 data = .ok (v, k) ↔
      ∃ bytes rest, data = bytes ++ rest ∧ Encodes bytes v.toNat ∧ k = bytes.length := by
  refine and_assoc.mp ⟨?_, fun _ _ _ => readU32_ok⟩
  unfold inspectBinary
  split_ifs with hshort
  · refine ⟨fun _ h => (by cases h), fun m => ⟨fun h => (by cases h), ?_⟩⟩
    rintro ⟨header, rest, -, -, rfl, hheader, -⟩
    rw [List.length_append] at hshort
    omega
  · obtain ⟨hcrash, hok⟩ := @inspectFrom_ok wasm hlen wasm.length 8 {} (by omega) (by omega)
    refine ⟨hcrash, fun m => (hok m).trans ⟨?_, ?_⟩⟩
    · rintro ⟨sections, hsections, counts, hcounts, rfl⟩
      exact ⟨wasm.take 8, wasm.drop 8, sections, counts, (List.take_append_drop ..).symm,
        by rw [List.length_take]; omega, hsections, hcounts, rfl, by simp⟩
    · rintro ⟨header, rest, sections, counts, rfl, hheader, hsections, hcounts, himports, hstart⟩
      rw [← hheader, List.drop_left]
      refine ⟨sections, hsections, counts, hcounts, ?_⟩
      obtain ⟨imports, start⟩ := m
      cases himports
      congr 1
      rw [Bool.eq_iff_iff, hstart]
      simp

/-- A header, an import section that declares one import and an empty start section. -/
def sampleModule : GoString := List.replicate 8 0 ++ [2, 2, 1, 0, 8, 0]

theorem inspect_binary_sample : inspectBinary sampleModule = .ok ⟨1, true⟩ ∧
    ∀ message, inspectBinary sampleModule ≠ .error (.crash message) :=
  ⟨by decide +kernel, (inspect_binary sampleModule (by decide)).1⟩

end MiniCloud.WasmProfile
