import MiniCloud.Artifact.Store

/-!
# What a call of `Put` can do

`Does` lists everything that one move does to the phase of a call and to the files, with the guards
under which it does it. Everything about the store is derived from this list: it is the only place
where the code of `Put` is opened.

A blob is `Intact` when verification accepts it. The section under the digest lock links the
temporary file only over a name that is free, and frees the name only when what stands there is
not intact.
-/

namespace MiniCloud.Artifact

open Lib Digest

/-- The bytes that verification accepts under a digest. -/
def Intact (maxBytes : Nat) (digest : SHA256) (bytes : GoString) : Prop :=
  sum bytes = digest ∧ bytes.length ≤ maxBytes

/-! ## Names -/

/-- A digest that `validateDigest` accepts. -/
def Valid (digest : SHA256) : Prop := encodedPattern digest = true

theorem Valid.scheme {digest : SHA256} (h : Valid digest) :
    digest = Digest.scheme ++ hexDigest digest := by
  rw [Valid, encodedPattern, Bool.and_eq_true, beq_iff_eq] at h
  have hlen : Digest.scheme.length = 7 := by decide
  rw [← h.1, hexDigest, hlen, List.take_append_drop]

theorem Valid.hex_length {digest : SHA256} (h : Valid digest) : (hexDigest digest).length = 64 := by
  rw [Valid, encodedPattern, Bool.and_eq_true, Text.matchClass] at h
  have hlen : Digest.scheme.length = 7 := by decide
  simp only [Bool.and_eq_true, decide_eq_true_eq] at h
  rw [hexDigest, hlen]
  omega

/-- Two valid digests never share a blob name. -/
theorem blobPath_inj {a b : SHA256} (ha : Valid a) (hb : Valid b) (h : blobPath a = blobPath b) :
    a = b := by
  have htake : ((hexDigest a).take 2).length = ((hexDigest b).take 2).length := by
    rw [List.length_take, List.length_take, ha.hex_length, hb.hex_length]
  rw [blobPath, blobPath, List.append_assoc, List.append_assoc, List.append_assoc,
    List.append_assoc] at h
  obtain ⟨hhead, htail⟩ := List.append_inj (List.append_cancel_left h) htake
  rw [ha.scheme, hb.scheme, ← List.take_append_drop 2 (hexDigest a), hhead,
    List.append_cancel_left htail, List.take_append_drop]

/-- Temporary names and blob names are under different directories. -/
theorem temporaryName_ne_blobPath (random : GoString) (digest : SHA256) :
    temporaryName random ≠ blobPath digest := by
  intro h
  have hhead := congrArg (List.take 1) h
  simp only [temporaryName, blobPath, List.append_assoc] at hhead
  rw [List.take_append_of_le_length (by decide), List.take_append_of_le_length (by decide)] at hhead
  exact absurd hhead (by decide)

/-! ## Verification -/

variable {fault : Option GoError} {expected : SHA256}

theorem verifyFile_ok {maxBytes : Nat} {bytes : GoString} {info : Info}
    (h : verifyFile fault maxBytes expected bytes = .ok info) :
    Intact maxBytes expected bytes ∧ info = ⟨expected, bytes.length, false⟩ := by
  unfold verifyFile at h
  split at h
  · cases h
  · dsimp only at h
    split_ifs at h with hlimit hsum
    -- at most `maxBytes` bytes were read, so these were all
    have hall : bytes.take (maxBytes + 1) = bytes := by
      rw [List.length_take] at hlimit
      exact List.take_of_length_le (by omega)
    rw [hall] at h hsum hlimit
    cases h
    exact ⟨⟨not_not.mp hsum, by omega⟩, rfl⟩

theorem verifyFile_corrupt {maxBytes : Nat} {bytes : GoString} {err : GoError}
    (h : verifyFile fault maxBytes expected bytes = .error (.corrupt err)) :
    ¬ Intact maxBytes expected bytes := by
  rintro ⟨hsum, hlength⟩
  unfold verifyFile at h
  split at h
  · cases h
  · have hall : bytes.take (maxBytes + 1) = bytes := List.take_of_length_le (by omega)
    rw [hall, if_neg (by omega), if_neg (not_not.mpr hsum)] at h
    cases h

/-- What a failed verification leaves: the files as they were, or without the corrupt blob. -/
inductive Recovers (maxBytes : Nat) (expected : SHA256) (fs : Files) : Files → Prop
  | same : Recovers maxBytes expected fs fs
  | cleared {old : GoString} (hread : fs.read? (blobPath expected) = some old)
      (hcorrupt : ¬ Intact maxBytes expected old) :
      Recovers maxBytes expected fs (fs.remove (blobPath expected))

theorem afterVerify_recovers {faults : Faults} {maxBytes : Nat} {fs : Files} {bytes : GoString}
    {failure : VerifyFailure} (hread : fs.read? (blobPath expected) = some bytes)
    (h : verifyFile fault maxBytes expected bytes = .error failure) :
    Recovers maxBytes expected fs (afterVerify faults expected fs failure).2 := by
  cases failure with
  | other err => exact .same
  | corrupt err =>
    simp only [afterVerify, removeCorrupt]
    cases faults.remove with
    | some removeErr => exact .same
    | none => exact .cleared hread (verifyFile_corrupt h)

/-! ## The list -/

/-- The temporary file that a call has not published yet, and what it has put there. -/
def Phase.pending? : Phase → Option (Temporary × GoString)
  | .copying t bytes | .filled t bytes | .synced t bytes | .closed t bytes => some (t, bytes)
  | _ => none

/-- The same, once the bytes have been checked. -/
def Phase.checked? : Phase → Option (Temporary × GoString)
  | .filled t bytes | .synced t bytes | .closed t bytes => some (t, bytes)
  | _ => none

/-- The blob name is free, perhaps because a corrupt blob has just been removed. -/
inductive Frees (maxBytes : Nat) (expected : SHA256) (fs : Files) : Files → Prop
  | absent (h : fs.names.get? (blobPath expected) = none) : Frees maxBytes expected fs fs
  | cleared {old : GoString} (hread : fs.read? (blobPath expected) = some old)
      (hcorrupt : ¬ Intact maxBytes expected old) :
      Frees maxBytes expected fs (fs.remove (blobPath expected))

inductive Does (maxBytes : Nat) (put : Put) (fs : Files) : Phase → Files → Prop
  | rest : Does maxBytes put fs put.phase fs
  | refuse {attempts : Nat} {err : GoError} (h : put.phase = .creating attempts) :
      Does maxBytes put fs (.returned (failed err)) fs
  | retry {attempts attempts' : Nat} (h : put.phase = .creating attempts) :
      Does maxBytes put fs (.creating attempts') fs
  | create {attempts : Nat} {random : GoString} (h : put.phase = .creating attempts)
      (hnew : fs.names.get? (temporaryName random) = none) :
      Does maxBytes put fs (.copying ⟨temporaryName random, fs.next⟩ [])
        (fs.create (temporaryName random))
  | append {t : Temporary} {bytes : GoString} {size : Nat} (h : put.phase = .copying t bytes) :
      Does maxBytes put fs (.copying t (bytes ++ (put.source.drop bytes.length).take size))
        (fs.write t.inode (fs.contents t.inode ++ (put.source.drop bytes.length).take size))
  | spoil {t : Temporary} {bytes written : GoString} {err : GoError}
      (h : put.phase = .copying t bytes) :
      Does maxBytes put fs (.leaving t true true (failed err)) (fs.write t.inode written)
  | abandon {t : Temporary} {bytes : GoString} {isOpen : Bool} {err : GoError}
      (h : put.phase.pending? = some (t, bytes)) :
      Does maxBytes put fs (.leaving t isOpen true (failed err)) fs
  | fill {t : Temporary} {bytes : GoString} (h : put.phase = .copying t bytes)
      (hall : put.source.length ≤ bytes.length) (hintact : Intact maxBytes put.expected bytes) :
      Does maxBytes put fs (.filled t bytes) fs
  | persist {t : Temporary} {bytes : GoString} {phase : Phase}
      (h : put.phase.checked? = some (t, bytes)) (h' : phase.checked? = some (t, bytes)) :
      Does maxBytes put fs phase fs
  | find {t : Temporary} {bytes old : GoString} (h : put.phase = .closed t bytes)
      (hread : fs.read? (blobPath put.expected) = some old)
      (hintact : Intact maxBytes put.expected old) :
      Does maxBytes put fs (.leaving t false true ⟨⟨put.expected, old.length, false⟩, none⟩) fs
  | recover {t : Temporary} {bytes : GoString} {fs' : Files} {err : GoError}
      (h : put.phase = .closed t bytes) (hrecovers : Recovers maxBytes put.expected fs fs') :
      Does maxBytes put fs (.leaving t false true (failed err)) fs'
  | link {t : Temporary} {bytes : GoString} {fs' : Files} {err : GoError}
      (h : put.phase = .closed t bytes) (hfrees : Frees maxBytes put.expected fs fs') :
      Does maxBytes put fs (.leaving t false true (failed err))
        (fs'.link t.name (blobPath put.expected))
  | publish {t : Temporary} {bytes : GoString} {fs' : Files} (h : put.phase = .closed t bytes)
      (hfrees : Frees maxBytes put.expected fs fs') :
      Does maxBytes put fs (.leaving t false false ⟨⟨put.expected, bytes.length, true⟩, none⟩)
        ((fs'.link t.name (blobPath put.expected)).remove t.name)
  | close {t : Temporary} {isOpen present : Bool} {result : Returned} {fault : Option GoError}
      (h : put.phase = .leaving t isOpen present result) :
      Does maxBytes put fs (.leaving t false present ⟨result.info, joinErr result.err fault⟩) fs
  | remove {t : Temporary} {isOpen : Bool} {result : Returned}
      (h : put.phase = .leaving t isOpen true result) :
      Does maxBytes put fs (.returned result) (fs.remove t.name)
  | finish {t : Temporary} {isOpen present : Bool} {result : Returned} {fault : Option GoError}
      (h : put.phase = .leaving t isOpen present result) :
      Does maxBytes put fs (.returned ⟨result.info, joinErr result.err fault⟩) fs

variable {maxBytes : Nat} {put : Put} {fs : Files} {t : Temporary} {bytes : GoString}

theorem createTemporary_does {attempts : Nat} (h : put.phase = .creating attempts)
    (random : GoString) (fault : Option CreateFault) :
    Does maxBytes put fs (createTemporary attempts random fault fs).1
      (createTemporary attempts random fault fs).2 := by
  unfold createTemporary
  split
  · exact .refuse h
  · exact .refuse h
  · dsimp only
    cases hname : fs.names.get? (temporaryName random) with
    | none => exact .create h hname
    | some inode =>
      dsimp only
      split_ifs
      · exact .refuse h
      · exact .retry h

theorem received_does (h : put.phase = .copying t bytes)
    (hall : maxBytes < bytes.length ∨ put.source.length ≤ bytes.length) :
    Does maxBytes put fs (received maxBytes put.expected t bytes) fs := by
  have hpending : put.phase.pending? = some (t, bytes) := by rw [h, Phase.pending?]
  unfold received
  split_ifs with hlimit hsum
  · exact .abandon hpending
  · exact .abandon hpending
  · exact .fill h (hall.resolve_left hlimit) ⟨not_not.mp hsum, by omega⟩

theorem copy_does (h : put.phase = .copying t bytes) (size : Nat) (readFault : Option GoError)
    (writeFault : Option WriteFault) :
    Does maxBytes put fs (copy maxBytes put t bytes size readFault writeFault fs).1
      (copy maxBytes put t bytes size readFault writeFault fs).2 := by
  have hpending : put.phase.pending? = some (t, bytes) := by rw [h, Phase.pending?]
  unfold copy
  split_ifs with hlimit hall
  · exact received_does h (.inl hlimit)
  · cases readFault with
    | some err => exact .abandon hpending
    | none =>
      cases put.ending with
      | some err => exact .abandon hpending
      | none => exact received_does h (.inr hall)
  · cases readFault with
    | some err => exact .abandon hpending
    | none =>
      cases writeFault with
      | some fault => exact .spoil h
      | none => exact .append h

theorem published_does {faults : Faults} {fs' : Files} (h : put.phase = .closed t bytes)
    (hfrees : Frees maxBytes put.expected fs fs') :
    Does maxBytes put fs
      (published faults put.expected t bytes (fs'.link t.name (blobPath put.expected))).1
      (published faults put.expected t bytes (fs'.link t.name (blobPath put.expected))).2 := by
  unfold published
  cases faults.sync with
  | some err => exact .link h hfrees
  | none =>
    cases faults.unlink with
    | some err => exact .link h hfrees
    | none => exact .publish h hfrees

theorem linkBlob_ok {fs' : Files} (h : linkBlob fault expected t fs = .ok fs') :
    fs.names.get? (blobPath expected) = none ∧ fs' = fs.link t.name (blobPath expected) := by
  unfold linkBlob at h
  split at h
  · cases h
  · cases h
  · rename_i hfree
    cases h
    exact ⟨hfree, rfl⟩

/-- What verification of an existing blob leaves. -/
theorem verifyLocked_cases (faults : Faults) (maxBytes : Nat) (expected : SHA256) (fs : Files) :
    (∃ old, fs.read? (blobPath expected) = some old ∧ Intact maxBytes expected old ∧
      verifyLocked faults maxBytes expected fs = (.ok ⟨expected, old.length, false⟩, fs)) ∨
    ∃ failure fs', Recovers maxBytes expected fs fs' ∧
      verifyLocked faults maxBytes expected fs = (.error failure, fs') := by
  unfold verifyLocked
  cases faults.openFile with
  | some err => exact .inr ⟨_, _, .same, rfl⟩
  | none =>
    cases hread : fs.read? (blobPath expected) with
    | none => exact .inr ⟨_, _, .same, rfl⟩
    | some old =>
      dsimp only
      cases hverify : verifyFile faults.read maxBytes expected old with
      | error failure => exact .inr ⟨_, _, afterVerify_recovers hread hverify, rfl⟩
      | ok info =>
        obtain ⟨hintact, rfl⟩ := verifyFile_ok hverify
        cases faults.close with
        | some err => exact .inr ⟨_, _, .same, rfl⟩
        | none => exact .inl ⟨old, rfl, hintact, rfl⟩

theorem publish_does (h : put.phase = .closed t bytes) (faults : Faults) :
    Does maxBytes put fs (publish faults maxBytes put.expected t bytes fs).1
      (publish faults maxBytes put.expected t bytes fs).2 := by
  unfold publish
  cases faults.mkdir with
  | some err => exact .recover h .same
  | none =>
    dsimp only
    cases hlink : linkBlob faults.link put.expected t fs with
    | ok fs' =>
      obtain ⟨hfree, rfl⟩ := linkBlob_ok hlink
      exact published_does h (.absent hfree)
    | error failure =>
      cases failure with
      | some err => exact .recover h .same
      | none =>
        dsimp only
        rcases verifyLocked_cases faults maxBytes put.expected fs with
          ⟨old, hread, hintact, heq⟩ | ⟨failure, fs', hrecovers, heq⟩
        · rw [heq]
          exact .find h hread hintact
        · rw [heq]
          cases failure with
          | other err => exact .recover h hrecovers
          | corrupt err =>
            dsimp only
            cases hrelink : linkBlob faults.relink put.expected t fs' with
            | error err => exact .recover h hrecovers
            | ok linked =>
              obtain ⟨hfree, rfl⟩ := linkBlob_ok hrelink
              cases hrecovers with
              | same => exact published_does h (.absent hfree)
              | cleared hread hcorrupt => exact published_does h (.cleared hread hcorrupt)

theorem leave_does {isOpen present : Bool} {result : Returned}
    (h : put.phase = .leaving t isOpen present result) (fault : Option GoError) :
    Does maxBytes put fs (leave t isOpen present result fault fs).1
      (leave t isOpen present result fault fs).2 := by
  unfold leave
  cases isOpen with
  | true => exact .close h
  | false =>
    cases present with
    | false =>
      have hsame : joinErr result.err none = result.err := by cases result.err <;> rfl
      have hfinish : Does maxBytes put fs (.returned ⟨result.info, joinErr result.err none⟩) fs :=
        .finish h
      rw [hsame] at hfinish
      exact hfinish
    | true =>
      cases fault with
      | some err => exact .finish h
      | none => exact .remove h

/-- **The inversion lemma**: one move of a call does something on the list. -/
theorem advance_does (put : Put) (maxBytes : Nat) (fs : Files) (move : Move) :
    Does maxBytes put fs (put.advance maxBytes fs move).1 (put.advance maxBytes fs move).2 := by
  unfold Put.advance
  split
  · split
    next attempts hphase => exact createTemporary_does hphase _ _
    next => exact .rest
  · split
    next t bytes hphase => exact copy_does hphase _ _ _
    next => exact .rest
  · split
    next t bytes err hphase => exact .abandon (by rw [hphase, Phase.pending?])
    next t bytes hphase => exact .persist (by rw [hphase, Phase.checked?]) rfl
    next => exact .rest
  · split
    next t bytes err hphase => exact .abandon (by rw [hphase, Phase.pending?])
    next t bytes hphase => exact .persist (by rw [hphase, Phase.checked?]) rfl
    next => exact .rest
  · split
    next t bytes hphase => exact publish_does hphase _
    next => exact .rest
  · split
    next t isOpen present result hphase => exact leave_does hphase _
    next => exact .rest
  · exact .rest

/-! ## Moves of the store -/

/-- Everything that one move does to the store. -/
inductive Acts (s : Store) : Move → Answer → Store → Prop
  | idle {move : Move} : Acts s move .nothing s
  | start {id : Nat} {expected : SHA256} {source : GoString} {ending : Option GoError}
      (hnew : s.puts.get? id = none) :
      Acts s (.start id expected source ending) .nothing
        { s with puts := s.puts.set id (begin expected source ending) }
  | advance {id : Nat} {put : Put} {move : Move} {phase : Phase} {fs : Files}
      (hcall : move.call = some id) (hput : s.puts.get? id = some put)
      (hdoes : Does s.maxBytes put s.files phase fs)
      (hpublish : ∀ t bytes, put.phase = .closed t bytes → phase ≠ put.phase →
        ∃ faults, move = .publish id faults) :
      Acts s move .nothing
        { s with files := fs, puts := s.puts.set id { put with phase := phase } }
  | opened {expected : SHA256} {faults : Faults} {bytes : GoString}
      (hread : s.blob? expected = some bytes) (hintact : Intact s.maxBytes expected bytes) :
      Acts s (.openVerified expected faults)
        (.opened (.ok (bytes, ⟨expected, bytes.length, false⟩))) s
  | unopened {expected : SHA256} {faults : Faults} {err : GoError} {fs : Files}
      (hrecovers : Recovers s.maxBytes expected s.files fs)
      (hvalid : fs = s.files ∨ Valid expected) :
      Acts s (.openVerified expected faults) (.opened (.error err)) { s with files := fs }
  | corrupt {digest : SHA256} {bytes : GoString} {inode : Nat}
      (hname : s.files.names.get? (blobPath digest) = some inode) :
      Acts s (.corrupt digest bytes) .nothing { s with files := s.files.write inode bytes }

theorem openVerified_cases (s : Store) (expected : SHA256) (faults : Faults) :
    Acts s (.openVerified expected faults)
      (.opened (openVerified faults s.maxBytes expected s.files).1)
      { s with files := (openVerified faults s.maxBytes expected s.files).2 } := by
  unfold openVerified parseSHA256
  by_cases hvalid : encodedPattern expected = true
  · rw [if_pos hvalid]
    dsimp only
    cases faults.openFile with
    | some err => exact .unopened .same (.inl rfl)
    | none =>
      cases hread : s.files.read? (blobPath expected) with
      | none => exact .unopened .same (.inl rfl)
      | some bytes =>
        dsimp only
        cases hverify : verifyFile faults.read s.maxBytes expected bytes with
        | error failure =>
          have hrecovers : Recovers s.maxBytes expected s.files
              (afterVerify faults expected s.files failure).2 :=
            afterVerify_recovers hread hverify
          revert hrecovers
          dsimp only
          rcases afterVerify faults expected s.files failure with ⟨after, fs⟩
          intro hrecovers
          cases after with
          | corrupt | other => exact .unopened hrecovers (.inr hvalid)
        | ok info =>
          obtain ⟨hintact, rfl⟩ := verifyFile_ok hverify
          cases faults.seek with
          | some err => exact .unopened .same (.inl rfl)
          | none => exact .opened hread hintact
  · rw [if_neg hvalid]
    exact .unopened .same (.inl rfl)

/-- A call that is ready to publish is moved by nothing else. -/
theorem advance_closed {put : Put} {maxBytes : Nat} {fs : Files} {move : Move} {t : Temporary}
    {bytes : GoString} {id : Nat} (hcall : move.call = some id) (h : put.phase = .closed t bytes)
    (hne : (put.advance maxBytes fs move).1 ≠ put.phase) : ∃ faults, move = .publish id faults := by
  cases move with
  | publish id' faults =>
    cases hcall
    exact ⟨faults, rfl⟩
  | start | openVerified | corrupt => cases hcall
  | create | copy | sync | close | leave => exact absurd (by simp only [Put.advance, h]) hne

theorem advance_acts {s : Store} {id : Nat} {move : Move} (hcall : move.call = some id) :
    Acts s move .nothing (s.advance id move) := by
  unfold Store.advance
  cases hput : s.puts.get? id with
  | none => exact .idle
  | some put =>
    exact .advance hcall hput (advance_does put s.maxBytes s.files move)
      fun t bytes h hne => advance_closed hcall h hne

/-- **The inversion lemma of the store.** -/
theorem step_acts (s : Store) (move : Move) : Acts s move (s.step move).1 (s.step move).2 := by
  cases move with
  | start id expected source ending =>
    simp only [Store.step]
    cases hput : s.puts.get? id with
    | none => exact .start hput
    | some put => exact .idle
  | openVerified expected faults => exact openVerified_cases s expected faults
  | corrupt digest bytes =>
    simp only [Store.step]
    cases hname : s.files.names.get? (blobPath digest) with
    | none => exact .idle
    | some inode => exact .corrupt hname
  | create | copy | sync | close | publish | leave => exact advance_acts rfl

end MiniCloud.Artifact
