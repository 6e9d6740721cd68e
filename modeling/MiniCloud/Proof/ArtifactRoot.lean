import MiniCloud.Artifact.Root
import MiniCloud.Proof.Artifact

/-!
# Which blobs are at risk

Whether a blob is corrupt is decided by its digest and by the limit of the store that looks. A root
directory sees stores with different limits, so a blob that one of them has published in good order
is taken for corrupt by another one that allows less. `intact_blob_at_risk` says that this is the
only way in which an intact blob goes.

The invariant is that of a single store, for every store over the root, and that the unpublished
files of different stores are different; a move of one store is a frame for the calls of the others.
-/

namespace MiniCloud.Artifact

open Lib Digest

variable {s s' : Store} {move : Move} {answer : Answer} {put : Put}

/-! ## Moves over a root -/

/-- Everything that one move does to a root directory and its stores. -/
inductive RootActs (root : Root) : RootMove → Root → Prop
  | idle {move : RootMove} : RootActs root move root
  | opened {id : Nat} {path : GoString} {maxArtifactBytes : Int} {maxBytes : Nat}
      (hnew : root.handles.get? id = none) :
      RootActs root (.openStore id path maxArtifactBytes)
        ⟨root.files, root.handles.set id ⟨maxBytes, ∅, false⟩⟩
  | closed {id : Nat} {handle : Handle} (hhandle : root.handles.get? id = some handle) :
      RootActs root (.close id) ⟨root.files, root.handles.set id { handle with closed := true }⟩
  | refused {id : Nat} {handle : Handle} {call : Nat} {expected : SHA256} {source : GoString}
      {ending : Option GoError} (hhandle : root.handles.get? id = some handle) :
      RootActs root (.act id (.start call expected source ending))
        ⟨root.files, root.handles.set id { handle with
          puts := handle.puts.set call (beginClosed expected source ending) }⟩
  | acted {id : Nat} {handle : Handle} {move : Move}
      (hhandle : root.handles.get? id = some handle) (hopen : handle.closed = false) :
      RootActs root (.act id move)
        (root.with id handle ((handle.store root.files).step move).2)

theorem openStore_ok {path : GoString} {maxArtifactBytes : Int} {files : Files}
    (h : openStore path maxArtifactBytes files = .ok s) : s.files = files ∧ s.puts = ∅ := by
  unfold openStore at h
  dsimp only at h
  split_ifs at h
  all_goals cases h
  all_goals exact ⟨rfl, rfl⟩

theorem actClosed_rootActs {root : Root} {id : Nat} {handle : Handle}
    (hhandle : root.handles.get? id = some handle) (move : Move) :
    RootActs root (.act id move) (root.actClosed id handle move).2 := by
  cases move with
  | start call expected source ending =>
    simp only [Root.actClosed]
    cases handle.puts.get? call with
    | some put => exact .idle
    | none => exact .refused hhandle
  | openVerified expected faults =>
    simp only [Root.actClosed]
    cases parseSHA256 expected with
    | error | ok => exact .idle
  | create | copy | sync | close | publish | leave | corrupt => exact .idle

theorem step_rootActs (root : Root) (move : RootMove) : RootActs root move (root.step move).2 := by
  cases move with
  | openStore id path maxArtifactBytes =>
    simp only [Root.step]
    cases hhandle : root.handles.get? id with
    | some handle => exact .idle
    | none =>
      cases hopen : openStore path maxArtifactBytes root.files with
      | error err => exact .idle
      | ok s =>
        obtain ⟨hfiles, hputs⟩ := openStore_ok hopen
        dsimp only
        rw [Root.with, hfiles, hputs]
        exact .opened hhandle
  | close id =>
    simp only [Root.step]
    cases hhandle : root.handles.get? id with
    | none => exact .idle
    | some handle =>
      dsimp only
      split_ifs
      · exact .idle
      · exact .closed hhandle
  | act id move =>
    simp only [Root.step]
    cases hhandle : root.handles.get? id with
    | none => exact .idle
    | some handle =>
      dsimp only
      split_ifs with hclosed
      · exact actClosed_rootActs hhandle move
      · exact .acted hhandle (Bool.eq_false_iff.mpr hclosed)

/-! ## What a store does to the calls of another one -/

/-- A live temporary file after a move is an old one or has a new inode. -/
theorem Acts.temporary (h : Acts s move answer s') {id : Nat} {t : Temporary}
    (hput : s'.puts.get? id = some put) (ht : put.phase.temporary? = some t) :
    (∃ put', s.puts.get? id = some put' ∧ put'.phase.temporary? = some t) ∨
      t.inode = s.files.next := by
  cases h with
  | idle | opened | unopened | corrupt => exact .inl ⟨put, hput, ht⟩
  | @start new expected source ending hnew =>
    rcases GoMap.get?_set_cases hput with ⟨-, rfl⟩ | ⟨-, hput⟩
    · cases (@begin_inv s.maxBytes expected source ending s.files).2.symm.trans ht
    · exact .inl ⟨put, hput, ht⟩
  | @advance moved old move phase fs hcall hold hdoes hpublish =>
    rcases GoMap.get?_set_cases hput with ⟨rfl, rfl⟩ | ⟨-, hput⟩
    · rcases hdoes.temporary ht with ht | hnew
      · exact .inl ⟨old, hold, ht⟩
      · exact .inr hnew
    · exact .inl ⟨put, hput, ht⟩

/-- A call of another store does not notice a move, as long as the unpublished files differ. -/
theorem Acts.spares (h : Acts s move answer s') (hinv : StoreInv s) {maxBytes : Nat} {other : Put}
    (hother : PutInv maxBytes s.files other)
    (hapart : ∀ id put t t', s.puts.get? id = some put → put.phase.temporary? = some t →
      other.phase.temporary? = some t' → t'.inode ≠ t.inode) :
    PutInv maxBytes s'.files other := by
  cases h with
  | idle | opened | start => exact hother
  | advance hcall hput hdoes =>
    refine hother.spared fun t ht => ?_
    exact hdoes.spares (hinv.put _ _ hput) (hother.live t ht).1 (hother.ne_blobPath ht)
      fun own hown => hapart _ _ _ _ hput hown ht
  | unopened hrecovers =>
    exact hother.spared fun t ht => hrecovers.spares (hother.ne_blobPath ht _)
  | corrupt hname => exact hother.tampered hname

/-! ## The invariant -/

structure RootInv (root : Root) : Prop where
  store : ∀ id handle, root.handles.get? id = some handle → StoreInv (handle.store root.files)
  apart : ∀ id id' handle handle' call call' put put' t t',
    root.handles.get? id = some handle → root.handles.get? id' = some handle' → id ≠ id' →
    handle.puts.get? call = some put → handle'.puts.get? call' = some put' →
    put.phase.temporary? = some t → put'.phase.temporary? = some t' → t.inode ≠ t'.inode

variable {root : Root} {id : Nat} {handle : Handle}

theorem rootInv_with (h : RootInv root) (hhandle : root.handles.get? id = some handle)
    (hacts : Acts (handle.store root.files) move answer s') : RootInv (root.with id handle s') := by
  have hstore := h.store id handle hhandle
  have hlimit : s'.maxBytes = handle.maxBytes := hacts.limit
  have hself : (Handle.mk handle.maxBytes s'.puts handle.closed).store s'.files = s' := by
    rw [Handle.store, ← hlimit]
  -- the unpublished files of the store that moves, against those of another store
  have hnew : ∀ other handle' call call' put put' t t', other ≠ id →
      root.handles.get? other = some handle' → handle'.puts.get? call = some put →
      s'.puts.get? call' = some put' → put.phase.temporary? = some t →
      put'.phase.temporary? = some t' → t.inode ≠ t'.inode := by
    intro other handle' call call' put put' t t' hne hother hput hput' ht ht' heq
    rcases hacts.temporary hput' ht' with ⟨old, hold, hold'⟩ | hfresh
    · exact h.apart _ _ _ _ _ _ _ _ _ _ hother hhandle hne hput hold ht hold' heq
    · have hlive := (((h.store other handle' hother).put call put hput).live t ht).1
      have hlt : t.inode < root.files.next := root.files.allocated _ _ hlive
      have hnext : t'.inode = root.files.next := hfresh
      omega
  constructor
  · intro other handle' hother
    rcases GoMap.get?_set_cases hother with ⟨-, rfl⟩ | ⟨hne, hother⟩
    · rw [Root.with, hself]
      exact storeInv_step hstore hacts
    · refine ⟨fun call put hput => ?_, (h.store other handle' hother).apart⟩
      refine hacts.spares hstore ((h.store other handle' hother).put call put hput) ?_
      intro call' put' t t' hput' ht ht'
      exact h.apart _ _ _ _ _ _ _ _ _ _ hother hhandle hne hput hput' ht' ht
  · intro id₁ id₂ handle₁ handle₂ call₁ call₂ put₁ put₂ t₁ t₂ h₁ h₂ hne hput₁ hput₂ ht₁ ht₂
    rcases GoMap.get?_set_cases h₁ with ⟨rfl, rfl⟩ | ⟨hne₁, hold₁⟩ <;>
      rcases GoMap.get?_set_cases h₂ with ⟨rfl, rfl⟩ | ⟨hne₂, hold₂⟩
    · exact absurd rfl hne
    · exact (hnew _ _ _ _ _ _ _ _ hne₂ hold₂ hput₂ hput₁ ht₂ ht₁).symm
    · exact hnew _ _ _ _ _ _ _ _ hne₁ hold₁ hput₁ hput₂ ht₁ ht₂
    · exact h.apart _ _ _ _ _ _ _ _ _ _ hold₁ hold₂ hne hput₁ hput₂ ht₁ ht₂

/-- A store may change as long as its unpublished files are old ones. -/
theorem rootInv_set (h : RootInv root) {handle' : Handle}
    (hstore : StoreInv (handle'.store root.files))
    (hold : ∀ call put t, handle'.puts.get? call = some put → put.phase.temporary? = some t →
      ∃ handle, root.handles.get? id = some handle ∧ handle.puts.get? call = some put) :
    RootInv ⟨root.files, root.handles.set id handle'⟩ := by
  refine ⟨GoMap.forall_set h.store hstore, ?_⟩
  intro id₁ id₂ handle₁ handle₂ call₁ call₂ put₁ put₂ t₁ t₂ h₁ h₂ hne hput₁ hput₂ ht₁ ht₂
  rcases GoMap.get?_set_cases h₁ with ⟨rfl, rfl⟩ | ⟨-, hold₁⟩ <;>
    rcases GoMap.get?_set_cases h₂ with ⟨rfl, rfl⟩ | ⟨-, hold₂⟩
  · exact absurd rfl hne
  · obtain ⟨old, hold, hput⟩ := hold _ _ _ hput₁ ht₁
    exact h.apart _ _ _ _ _ _ _ _ _ _ hold hold₂ hne hput hput₂ ht₁ ht₂
  · obtain ⟨old, hold, hput⟩ := hold _ _ _ hput₂ ht₂
    exact h.apart _ _ _ _ _ _ _ _ _ _ hold₁ hold hne hput₁ hput ht₁ ht₂
  · exact h.apart _ _ _ _ _ _ _ _ _ _ hold₁ hold₂ hne hput₁ hput₂ ht₁ ht₂

theorem beginClosed_inv (maxBytes : Nat) (fs : Files) (expected : SHA256) (source : GoString)
    (ending : Option GoError) :
    PutInv maxBytes fs (beginClosed expected source ending) ∧
      (beginClosed expected source ending).phase.temporary? = none := by
  unfold beginClosed
  cases parseSHA256 expected with
  | error _ | ok _ => exact ⟨.idle rfl (fun h => by cases h), rfl⟩

theorem rootInv_step {root' : Root} {move : RootMove} (h : RootInv root)
    (hacts : RootActs root move root') : RootInv root' := by
  cases hacts with
  | idle => exact h
  | opened hnew =>
    refine rootInv_set h (storeInv_new rfl) ?_
    intro call put t hput
    cases hput
  | @closed id handle hhandle =>
    have hstore : StoreInv (Handle.store { handle with closed := true } root.files) :=
      h.store id handle hhandle
    exact rootInv_set h hstore fun call put t hput _ => ⟨handle, hhandle, hput⟩
  | @refused id handle call expected source ending hhandle =>
    obtain ⟨hinv, hnone⟩ := beginClosed_inv handle.maxBytes root.files expected source ending
    have hstore : StoreInv (Handle.store { handle with
        puts := handle.puts.set call (beginClosed expected source ending) } root.files) :=
      storeInv_start (h.store id handle hhandle) hinv hnone
    refine rootInv_set h hstore ?_
    intro call' put t hput ht
    rcases GoMap.get?_set_cases hput with ⟨-, rfl⟩ | ⟨-, hput⟩
    · cases hnone.symm.trans ht
    · exact ⟨handle, hhandle, hput⟩
  | acted hhandle hopen => exact rootInv_with h hhandle (step_acts _ _)

theorem rootInv_reachable {root₀ : Root} (hnew : root₀.handles = ∅)
    (hr : rootMachine.Reachable root₀ root) : RootInv root := by
  have hinit : RootInv root₀ := by
    constructor
    · intro id handle hhandle
      rw [hnew] at hhandle
      cases hhandle
    · intro id id' handle handle' call call' put put' t t' hhandle
      rw [hnew] at hhandle
      cases hhandle
  exact Machine.invariant hinit (fun root move _ h => rootInv_step h (step_rootActs root move)) hr

/-! ## Intact blobs -/

/-- The moves of the environment. -/
def RootMove.tampers : RootMove → Bool
  | .act _ move => move.tampers
  | _ => false

/-- A blob over the limit is taken away by the first call that opens it. -/
theorem openVerified_oversized {digest : SHA256} (hvalid : Valid digest) {bytes : GoString}
    (hblob : s.blob? digest = some bytes) (hlimit : s.maxBytes < bytes.length) :
    (s.step (.openVerified digest noFaults)).2.blob? digest = none := by
  have hread : s.files.read? (blobPath digest) = some bytes := hblob
  have hverify : verifyFile none s.maxBytes digest bytes = .error (.corrupt errCorrupt) := by
    unfold verifyFile
    dsimp only
    rw [List.length_take, if_pos (by omega)]
  have hparse : parseSHA256 digest = .ok digest := if_pos hvalid
  have hopen : (openVerified noFaults s.maxBytes digest s.files).2 =
      s.files.remove (blobPath digest) := by
    simp only [openVerified, hparse, noFaults, hread, hverify, afterVerify, removeCorrupt]
  change (openVerified noFaults s.maxBytes digest s.files).2.read? (blobPath digest) = none
  rw [hopen]
  exact Files.read?_remove_self

theorem step_oversized (hhandle : root.handles.get? id = some handle)
    (hopen : handle.closed = false) {digest : SHA256} (hvalid : Valid digest) {bytes : GoString}
    (hblob : root.blob? digest = some bytes) (hlimit : handle.maxBytes < bytes.length) :
    (rootMachine.step root (.act id (.openVerified digest noFaults))).2.blob? digest = none := by
  have hstep : (rootMachine.step root (.act id (.openVerified digest noFaults))).2 =
      root.with id handle ((handle.store root.files).step (.openVerified digest noFaults)).2 := by
    simp only [rootMachine, Root.step, hhandle, hopen, Bool.false_eq_true, if_false]
  rw [hstep]
  exact @openVerified_oversized (handle.store root.files) digest hvalid bytes hblob hlimit

/--
**When an intact blob is at risk.** In a reachable state of a root directory, some step other than
the environment's takes a blob away whose bytes hash to its digest exactly when a store is open
whose limit is below the size of the blob.
-/
theorem intact_blob_at_risk {root₀ : Root} (hnew : root₀.handles = ∅)
    (hr : rootMachine.Reachable root₀ root) {digest : SHA256} {bytes : GoString}
    (hblob : root.blob? digest = some bytes) (hsum : sum bytes = digest) :
    (∃ move, move.tampers = false ∧ (rootMachine.step root move).2.blob? digest ≠ some bytes) ↔
      ∃ id handle, root.handles.get? id = some handle ∧ handle.closed = false ∧
        handle.maxBytes < bytes.length := by
  have hinv := rootInv_reachable hnew hr
  have hvalid : Valid digest := hsum ▸ sum_pattern bytes
  constructor
  · rintro ⟨move, hmove, hgone⟩
    have hacts := step_rootActs root move
    revert hgone
    change (root.step move).2.blob? digest ≠ some bytes → _
    generalize (root.step move).2 = after at hacts
    intro hgone
    cases hacts with
    | idle | opened | closed | refused => exact absurd hblob hgone
    | @acted id handle inner hhandle hopen =>
      refine ⟨id, handle, hhandle, hopen, ?_⟩
      by_contra hlimit
      exact hgone ((step_acts (handle.store root.files) inner).keeps_intact
        (hinv.store id handle hhandle) hmove hvalid hblob ⟨hsum, not_lt.mp hlimit⟩)
  · rintro ⟨id, handle, hhandle, hopen, hlimit⟩
    refine ⟨.act id (.openVerified digest noFaults), rfl, ?_⟩
    rw [step_oversized hhandle hopen hvalid hblob hlimit]
    exact fun h => by cases h

/-! ## Samples -/

/-- A directory without files and without stores. -/
def sampleRoot : Root := ⟨sampleStore.files, ∅⟩

/-- A store of eight bytes a blob publishes two bytes, and one of a single byte is opened. -/
def sampleMoves : List RootMove :=
  .openStore 0 "root" 8 :: ((undisturbed 0 "mm" "r").map (.act 0) ++ [.openStore 1 "root" 1])

theorem sample_published :
    (rootMachine.run sampleRoot sampleMoves).blob? (sum "mm") = some "mm" ∧
    ((rootMachine.run sampleRoot sampleMoves).handles.get? 1).any (fun handle =>
      !handle.closed && handle.maxBytes = 1) = true := by
  decide +kernel

/-- An intact blob of two bytes is taken away by a store that allows one. -/
theorem intact_blob_removed : ∃ bytes,
    (rootMachine.run sampleRoot sampleMoves).blob? (sum "mm") = some bytes ∧
    sum bytes = sum "mm" ∧
    (rootMachine.run sampleRoot
      (sampleMoves ++ [.act 1 (.openVerified (sum "mm") noFaults)])).blob? (sum "mm") = none :=
  ⟨"mm", sample_published.1, rfl, by decide +kernel⟩

theorem intact_blob_at_risk_sample :
    ∃ move, move.tampers = false ∧ ∃ bytes, sum bytes = sum "mm" ∧
      (rootMachine.step (rootMachine.run sampleRoot sampleMoves) move).2.blob? (sum "mm") ≠
        some bytes := by
  obtain ⟨hblob, hany⟩ := sample_published
  obtain ⟨handle, hhandle, hopen⟩ := (Option.any_eq_true ..).mp hany
  rw [Bool.and_eq_true, Bool.not_eq_true', decide_eq_true_eq] at hopen
  have hr : rootMachine.Reachable sampleRoot (rootMachine.run sampleRoot sampleMoves) :=
    Machine.Reachable.init.run sampleMoves
  have hlimit : handle.maxBytes < List.length ("mm" : GoString) := by
    rw [hopen.2]
    decide
  have hnew : sampleRoot.handles = ∅ := rfl
  obtain ⟨move, hmove, hgone⟩ := (intact_blob_at_risk hnew hr hblob rfl).mpr
    ⟨1, handle, hhandle, hopen.1, hlimit⟩
  exact ⟨move, hmove, "mm", rfl, hgone⟩

end MiniCloud.Artifact
