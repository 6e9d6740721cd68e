import MiniCloud.WasmExec.Output

/-!
# Captured output does not depend on the writes

Both writers are followed byte by byte of what the guest has written so far, whatever the writes it
came in. The log is one fold over the bytes. The output takes a write at a time, so its invariant
says what it holds of everything written before.
-/

namespace MiniCloud.WasmExec

open Lib

/-! ## The standard output -/

/-- The output after the bytes `seen`. -/
structure Captures (limit : Int) (seen : GoString) (w : BoundedOutput) : Prop where
  fixed : w.limit = limit
  buffer : w.buffer = seen.take limit.toNat
  exceeded : w.exceeded = true ↔ limit < seen.length
  cancels : w.cancels = if limit < seen.length then 1 else 0

variable {limit : Int} {seen : GoString} {w : BoundedOutput}

theorem captures_write (hlimit : 0 < limit) (h : Captures limit seen w) (data : GoString) :
    Captures limit (seen ++ data) (w.write data).2 := by
  have hlength : (seen ++ data).length = seen.length + data.length := List.length_append
  unfold BoundedOutput.write
  by_cases hexceeded : w.exceeded = true
  · -- nothing more is taken
    have hpast := h.exceeded.mp hexceeded
    rw [if_pos hexceeded]
    refine ⟨h.fixed, ?_, ⟨fun _ => by omega, fun _ => hexceeded⟩, ?_⟩
    · rw [h.buffer, List.take_append_of_le_length (by omega)]
    · rw [h.cancels, if_pos hpast, if_pos (by omega)]
  · have hwithin : ¬ limit < seen.length := mt h.exceeded.mpr hexceeded
    have hbuffer : w.buffer = seen := by rw [h.buffer, List.take_of_length_le (by omega)]
    rw [if_neg hexceeded]
    dsimp only
    rw [h.fixed, hbuffer]
    have hcancels := h.cancels
    rw [if_neg hwithin] at hcancels
    split_ifs with hover
    · have hrest : (max (limit - seen.length) 0).toNat = limit.toNat - seen.length := by omega
      refine ⟨rfl, ?_, ⟨fun _ => by omega, fun _ => rfl⟩, ?_⟩
      · rw [hrest, List.take_append, List.take_of_length_le (l := seen) (by omega)]
      · rw [hcancels, if_pos (by omega)]
    · refine ⟨rfl, ?_, ⟨fun h => absurd h hexceeded, fun h => by omega⟩, ?_⟩
      · rw [List.take_of_length_le (by omega)]
      · rw [hcancels, if_neg (by omega)]

theorem captures_writeAll (hlimit : 0 < limit) (chunks : List GoString)
    (h : Captures limit seen w) :
    Captures limit (seen ++ chunks.flatten) (writeAll BoundedOutput.write w chunks) := by
  induction chunks generalizing seen w with
  | nil =>
    rw [List.flatten_nil, List.append_nil]
    exact h
  | cons data rest ih =>
    rw [List.flatten_cons, ← List.append_assoc]
    exact ih (captures_write hlimit h data)

/-! ## The log -/

/-- The log is what its bytes make it, one after another. -/
theorem writeAll_log (w : GuestLog) (chunks : List GoString) :
    writeAll GuestLog.write w chunks = (w.write chunks.flatten).2 := by
  induction chunks generalizing w with
  | nil => rfl
  | cons data rest ih =>
    have hrest := ih (w.write data).2
    simp only [GuestLog.write, List.flatten_cons, List.foldl_append] at hrest ⊢
    exact hrest

/-- The log after the bytes `seen`. -/
structure Logs (maxBytes maxLineBytes : Int) (seen : GoString) (w : GuestLog) : Prop where
  size : w.maxBytes = maxBytes
  width : w.maxLineBytes = maxLineBytes
  total : w.buffer.length + w.dropped = seen.length
  lost : 0 ≤ w.dropped
  line : 0 ≤ w.lineBytes ∧ w.lineBytes ≤ seen.length
  bounded : (w.buffer.length : Int) ≤ maxBytes
  lines : ∀ line, line <:+: w.buffer → newline ∉ line → (line.length : Int) ≤ maxLineBytes
  /-- The counter is at least what was retained of the current line, until the log is full. -/
  current : (w.buffer.length : Int) < maxBytes →
    ∀ line, line <:+ w.buffer → newline ∉ line → (line.length : Int) ≤ w.lineBytes

variable {maxBytes maxLineBytes : Int} {g : GuestLog}

/-- The byte is retained. -/
def GuestLog.Keeps (g : GuestLog) (b : UInt8) : Prop :=
  (b = newline ∨ g.lineBytes < g.maxLineBytes) ∧ (g.buffer.length : Int) < g.maxBytes

theorem writeByte_kept {b : UInt8} (h : g.Keeps b) :
    g.writeByte b = ⟨g.buffer ++ [b], g.maxBytes, g.maxLineBytes,
      if b = newline then 0 else g.lineBytes + 1, g.dropped⟩ := by
  unfold GuestLog.Keeps at h
  simp only [GuestLog.writeByte, if_pos h]

theorem writeByte_dropped {b : UInt8} (h : ¬ g.Keeps b) :
    g.writeByte b = ⟨g.buffer, g.maxBytes, g.maxLineBytes,
      if b = newline then 0 else g.lineBytes + 1, g.dropped + 1⟩ := by
  unfold GuestLog.Keeps at h
  simp only [GuestLog.writeByte, if_neg h]

/-- What ends in a new byte without a newline is the current line and the byte. -/
theorem suffix_line {b : UInt8} {buffer line : GoString} {lineBytes : Int}
    (hcurrent : ∀ line, line <:+ buffer → newline ∉ line → (line.length : Int) ≤ lineBytes)
    (hline : line <:+ buffer ++ [b]) (hnone : newline ∉ line) :
    line = [] ∨ b ≠ newline ∧ (line.length : Int) ≤ lineBytes + 1 := by
  rcases List.suffix_concat_iff.mp hline with rfl | ⟨front, rfl, hfront⟩
  · exact .inl rfl
  · rw [List.mem_append, List.mem_singleton, not_or] at hnone
    have := hcurrent front hfront hnone.1
    rw [List.length_append, List.length_singleton]
    exact .inr ⟨Ne.symm hnone.2, by omega⟩

theorem logs_writeByte (h : Logs maxBytes maxLineBytes seen g) (b : UInt8) :
    Logs maxBytes maxLineBytes (seen ++ [b]) (g.writeByte b) := by
  obtain ⟨buffer, size, width, lineBytes, dropped⟩ := g
  obtain ⟨rfl, rfl, htotal, hlost, ⟨hpositive, hwritten⟩, hbounded, hlines, hcurrent⟩ := h
  have hlength : (seen ++ [b]).length = seen.length + 1 := List.length_append
  have hempty := hlines [] List.nil_infix List.not_mem_nil
  dsimp only at htotal hlost hpositive hwritten hbounded hcurrent hempty
  have hcounter : 0 ≤ (if b = newline then 0 else lineBytes + 1) ∧
      (if b = newline then 0 else lineBytes + 1) ≤ ((seen ++ [b]).length : Int) := by
    split_ifs <;> omega
  by_cases hkept : GuestLog.Keeps ⟨buffer, size, width, lineBytes, dropped⟩ b
  · rw [writeByte_kept hkept]
    obtain ⟨hallowed, hroom⟩ := hkept
    have hgrown : (buffer ++ [b]).length = buffer.length + 1 := List.length_append
    have hstart := hcurrent hroom [] List.nil_suffix List.not_mem_nil
    rw [List.length_nil] at hempty hstart
    dsimp only at hallowed hroom
    refine ⟨rfl, rfl, ?_, hlost, hcounter, ?_, fun line hline hnone => ?_,
      fun _ line hline hnone => ?_⟩
    · dsimp only
      omega
    · dsimp only
      omega
    · rcases List.infix_concat_iff.mp hline with hend | hinside
      · rcases suffix_line (hcurrent hroom) hend hnone with rfl | ⟨hb, hle⟩
        · exact hempty
        · have := hallowed.resolve_left hb
          show (line.length : Int) ≤ width
          omega
      · exact hlines line hinside hnone
    · dsimp only
      rcases suffix_line (hcurrent hroom) hline hnone with rfl | ⟨hb, hle⟩
      · rw [List.length_nil]
        split_ifs <;> omega
      · rw [if_neg hb]
        exact hle
  · rw [writeByte_dropped hkept]
    refine ⟨rfl, rfl, ?_, ?_, hcounter, hbounded, hlines, fun hroom line hline hnone => ?_⟩
    · dsimp only
      omega
    · dsimp only
      omega
    · -- with room left, only a long line is cut
      have hb : b ≠ newline := fun hb => hkept ⟨.inl hb, hroom⟩
      have := hcurrent hroom line hline hnone
      dsimp only
      rw [if_neg hb]
      omega

theorem logs_write (h : Logs maxBytes maxLineBytes seen g) (data : GoString) :
    Logs maxBytes maxLineBytes (seen ++ data) (g.write data).2 := by
  show Logs _ _ _ (data.foldl GuestLog.writeByte g)
  induction data generalizing seen g with
  | nil =>
    rw [List.append_nil]
    exact h
  | cons b rest ih =>
    rw [List.append_cons]
    exact ih (logs_writeByte h b)

/-- What is captured stays, and what follows comes from what is written. -/
theorem write_extends (g : GuestLog) (data : GoString) :
    ∃ rest, (g.write data).2.buffer = g.buffer ++ rest ∧ rest.Sublist data := by
  show ∃ rest, (data.foldl GuestLog.writeByte g).buffer = _ ∧ _
  induction data generalizing g with
  | nil => exact ⟨[], (List.append_nil _).symm, List.Sublist.refl _⟩
  | cons b data ih =>
    obtain ⟨rest, hrest, hsub⟩ := ih (g.writeByte b)
    rw [List.foldl_cons, hrest]
    by_cases hkept : g.Keeps b
    · refine ⟨b :: rest, ?_, hsub.cons_cons b⟩
      rw [writeByte_kept hkept, List.append_assoc]
      rfl
    · refine ⟨rest, ?_, hsub.cons b⟩
      rw [writeByte_dropped hkept]

/-- A newline is retained while there is room. -/
theorem write_newline (g : GuestLog) (before after : GoString)
    (hroom : ((g.write before).2.buffer.length : Int) < (g.write before).2.maxBytes) :
    ∃ rest, (g.write (before ++ newline :: after)).2.buffer =
      (g.write before).2.buffer ++ newline :: rest ∧ rest.Sublist after := by
  obtain ⟨rest, hrest, hsub⟩ := write_extends ((g.write before).2.writeByte newline) after
  refine ⟨rest, ?_, hsub⟩
  simp only [GuestLog.write, List.foldl_append, List.foldl_cons] at hrest hroom ⊢
  rw [hrest]
  generalize before.foldl GuestLog.writeByte g = g' at hroom ⊢
  rw [writeByte_kept ⟨.inl rfl, hroom⟩, List.append_assoc]
  rfl

/--
**Capture does not depend on chunking.** The standard output is the concatenation of the writes up
to the limit, and the call is cancelled once, if there was more. The log is that of one write; its
retained and dropped bytes make up the total, within both limits, and the retained bytes are a
subsequence, which has every newline that came before the log was full. Neither counter exceeds the
number of bytes written, so below `2 ^ 63` of them both are what 64 bits hold.
-/
theorem capture_chunking {limit maxBytes maxLineBytes : Int} (hlimit : 0 < limit)
    (hbytes : 0 < maxBytes) (hline : 0 < maxLineBytes) (chunks : List GoString) :
    let out := writeAll BoundedOutput.write (newBoundedOutput limit) chunks
    let log := writeAll GuestLog.write (newGuestLog maxBytes maxLineBytes) chunks
    (out.buffer = chunks.flatten.take limit.toNat ∧
      (out.exceeded = true ↔ limit < chunks.flatten.length) ∧
      out.cancels = if limit < chunks.flatten.length then 1 else 0) ∧
    (∀ chunks', chunks'.flatten = chunks.flatten →
      writeAll GuestLog.write (newGuestLog maxBytes maxLineBytes) chunks' = log) ∧
    log.buffer.length + log.dropped = chunks.flatten.length ∧ 0 ≤ log.dropped ∧
    (0 ≤ log.lineBytes ∧ log.lineBytes ≤ chunks.flatten.length) ∧
    (log.buffer.length : Int) ≤ maxBytes ∧
    (∀ line, line <:+: log.buffer → newline ∉ line → (line.length : Int) ≤ maxLineBytes) ∧
    log.buffer.Sublist chunks.flatten ∧
    ∀ before after seen, chunks.flatten = before ++ newline :: after →
      seen = ((newGuestLog maxBytes maxLineBytes).write before).2.buffer →
      (seen.length : Int) < maxBytes → ∃ rest, log.buffer = seen ++ newline :: rest ∧
        seen.Sublist before ∧ rest.Sublist after := by
  have hnew : Captures limit [] (newBoundedOutput limit) :=
    ⟨rfl, List.take_nil.symm, by simp [newBoundedOutput]; omega, by simp [newBoundedOutput]; omega⟩
  have hempty : Logs maxBytes maxLineBytes [] (newGuestLog maxBytes maxLineBytes) := by
    refine ⟨rfl, rfl, rfl, le_rfl, ⟨le_rfl, le_rfl⟩, hbytes.le, fun line hinfix _ => ?_,
      fun _ line hsuffix _ => ?_⟩
    · rw [List.infix_nil.mp hinfix]
      exact hline.le
    · rw [List.suffix_nil.mp hsuffix]
      exact le_rfl
  have hw := captures_writeAll hlimit chunks hnew
  have hsub : ∀ data, ((newGuestLog maxBytes maxLineBytes).write data).2.buffer.Sublist data := by
    intro data
    obtain ⟨rest, hrest, hsub⟩ := write_extends (newGuestLog maxBytes maxLineBytes) data
    rw [hrest]
    exact hsub
  intro out log
  have hlog := logs_write hempty chunks.flatten
  rw [List.nil_append] at hw hlog
  rw [← writeAll_log] at hlog
  refine ⟨⟨hw.buffer, hw.exceeded, hw.cancels⟩, fun chunks' heq => ?_, hlog.total, hlog.lost,
    hlog.line, hlog.bounded, hlog.lines, ?_, ?_⟩
  · simp only [log, writeAll_log, heq]
  · simp only [log, writeAll_log]
    exact hsub _
  · rintro before after _ heq rfl hroom
    have hsize := (logs_write hempty before).size
    obtain ⟨rest, hrest, hafter⟩ := write_newline (newGuestLog maxBytes maxLineBytes) before after
      (hsize.symm ▸ hroom)
    simp only [log, writeAll_log, heq]
    exact ⟨rest, hrest, hsub before, hafter⟩

theorem capture_chunking_sample :
    (writeAll BoundedOutput.write (newBoundedOutput 3) ["ab", "c", "de"]).cancels = 1 :=
  (@capture_chunking 3 8 2 (by decide) (by decide) (by decide) ["ab", "c", "de"]).1.2.2

end MiniCloud.WasmExec
