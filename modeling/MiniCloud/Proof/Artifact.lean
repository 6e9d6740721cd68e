import MiniCloud.Proof.ArtifactSteps

/-!
# The integrity of the artifact store

Until a call publishes, nothing but its own temporary name refers to the inode it writes to, so the
environment cannot reach those bytes and neither can another call. This is what makes the check of
the stream a check of the blob: what is linked is what was hashed.

`PutInv` says it of one call and `StoreInv` of all of them. A move of one call is a frame for every
other one, because two live temporary files never share an inode (`Spares`).
-/

namespace MiniCloud.Artifact

open Lib Digest

variable {s s' : Store} {id inode : Nat} {digest expected : SHA256} {move : Move} {answer : Answer}
  {result : Returned} {name : GoString}

/-- The temporary name that a call still has to remove. -/
def Phase.temporary? : Phase → Option Temporary
  | .copying t _ | .filled t _ | .synced t _ | .closed t _ | .leaving t _ true _ => some t
  | _ => none

/-- What a call has returned, or is about to. -/
def Phase.result? : Phase → Option Returned
  | .leaving _ _ _ result | .returned result => some result
  | _ => none

theorem Phase.pending_of_checked {phase : Phase} {x : Temporary × GoString}
    (h : phase.checked? = some x) : phase.pending? = some x := by
  cases phase <;> first | exact h | cases h

theorem Phase.temporary_of_pending {phase : Phase} {t : Temporary} {bytes : GoString}
    (h : phase.pending? = some (t, bytes)) : phase.temporary? = some t := by
  cases phase <;> cases h <;> rfl

theorem Phase.result_of_pending {phase : Phase} {x : Temporary × GoString}
    (h : phase.pending? = some x) : phase.result? = none := by
  cases phase <;> first | rfl | cases h

/-- The invariant of one call. -/
structure PutInv (maxBytes : Nat) (fs : Files) (put : Put) : Prop where
  live : ∀ t, put.phase.temporary? = some t →
    fs.names.get? t.name = some t.inode ∧ ∃ random, t.name = temporaryName random
  /-- Nothing else refers to a file that is not published. -/
  own : ∀ t bytes, put.phase.pending? = some (t, bytes) →
    fs.contents t.inode = bytes ∧ ∀ name, fs.names.get? name = some t.inode → name = t.name
  streamed : ∀ t bytes, put.phase.pending? = some (t, bytes) → bytes <+: put.source
  checked : ∀ t bytes, put.phase.checked? = some (t, bytes) →
    bytes = put.source ∧ Intact maxBytes put.expected bytes
  valid : put.phase.result? = none → Valid put.expected

/-! ## Frames -/

/-- A change of the files that a call with another temporary file does not notice. -/
structure Spares (t : Temporary) (fs fs' : Files) : Prop where
  name : fs'.names.get? t.name = fs.names.get? t.name
  inode : ∀ name, fs'.names.get? name = some t.inode → fs.names.get? name = some t.inode
  bytes : fs'.contents t.inode = fs.contents t.inode

namespace Spares

variable {t : Temporary} {fs fs' fs'' : Files}

theorem refl : Spares t fs fs := ⟨rfl, fun _ h => h, rfl⟩

theorem trans (h : Spares t fs fs') (h' : Spares t fs' fs'') : Spares t fs fs'' :=
  ⟨h'.name.trans h.name, fun name hname => h.inode name (h'.inode name hname),
    h'.bytes.trans h.bytes⟩

theorem create (hnew : fs.names.get? name = none) (hlive : fs.names.get? t.name = some t.inode) :
    Spares t fs (fs.create name) := by
  have hlt := fs.allocated _ _ hlive
  have hne : t.name ≠ name := by
    intro heq
    rw [heq, hnew] at hlive
    cases hlive
  refine ⟨GoMap.get?_set_ne _ _ hne, ?_, ?_⟩
  · intro other hother
    rcases GoMap.get?_set_cases hother with ⟨-, heq⟩ | ⟨-, hother⟩
    · omega
    · exact hother
  · simp only [Files.create]
    rw [if_neg (by omega)]

theorem write {bytes : GoString} (hne : t.inode ≠ inode) : Spares t fs (fs.write inode bytes) := by
  refine ⟨rfl, fun _ h => h, ?_⟩
  simp only [Files.write]
  rw [if_neg hne]

theorem remove (hne : t.name ≠ name) : Spares t fs (fs.remove name) := by
  refine ⟨GoMap.get?_delete_ne _ hne, ?_, rfl⟩
  exact fun other hother => (GoMap.get?_delete_some hother).2

theorem link {old new : GoString} (hold : fs.names.get? old = some inode)
    (hinode : t.inode ≠ inode) (hname : t.name ≠ new) : Spares t fs (fs.link old new) := by
  refine ⟨?_, ?_, ?_⟩
  · rw [Files.names_link hold, GoMap.get?_set_ne _ _ hname]
  · intro other hother
    rw [Files.names_link hold] at hother
    rcases GoMap.get?_set_cases hother with ⟨-, heq⟩ | ⟨-, hother⟩
    · exact absurd heq.symm hinode
    · exact hother
  · rw [Files.contents_link]

end Spares

variable {maxBytes : Nat} {put : Put} {fs fs' : Files} {phase : Phase} {t : Temporary}
  {bytes : GoString}

theorem PutInv.spared (h : PutInv maxBytes fs put)
    (hspares : ∀ t, put.phase.temporary? = some t → Spares t fs fs') : PutInv maxBytes fs' put where
  live t ht := by
    rw [(hspares t ht).name]
    exact h.live t ht
  own t bytes ht := by
    obtain ⟨hbytes, honly⟩ := h.own t bytes ht
    have hspare := hspares t (Phase.temporary_of_pending ht)
    exact ⟨hspare.bytes.trans hbytes, fun name hname => honly name (hspare.inode name hname)⟩
  streamed := h.streamed
  checked := h.checked
  valid := h.valid

theorem PutInv.ne_blobPath (h : PutInv maxBytes fs put) (ht : put.phase.temporary? = some t)
    (digest : SHA256) : t.name ≠ blobPath digest := by
  obtain ⟨-, random, hname⟩ := h.live t ht
  rw [hname]
  exact temporaryName_ne_blobPath random digest

theorem Recovers.spares (h : Recovers maxBytes expected fs fs') (hne : t.name ≠ blobPath expected) :
    Spares t fs fs' := by
  cases h with
  | same => exact .refl
  | cleared hread hcorrupt => exact .remove hne

theorem Frees.spares (h : Frees maxBytes expected fs fs') (hne : t.name ≠ blobPath expected) :
    Spares t fs fs' := by
  cases h with
  | absent hfree => exact .refl
  | cleared hread hcorrupt => exact .remove hne

/-- A move of one call is a frame for the others. -/
theorem Does.spares (h : Does maxBytes put fs phase fs') (hinv : PutInv maxBytes fs put)
    {other : Temporary} (hlive : fs.names.get? other.name = some other.inode)
    (hblob : ∀ digest, other.name ≠ blobPath digest)
    (hapart : ∀ t, put.phase.temporary? = some t → other.inode ≠ t.inode) :
    Spares other fs fs' := by
  -- the names of two live temporary files differ, since their inodes do
  have hname : ∀ t, put.phase.temporary? = some t → other.name ≠ t.name := by
    intro t ht heq
    have := (hinv.live t ht).1
    rw [← heq, hlive] at this
    exact hapart t ht (Option.some.inj this)
  have hlink : ∀ t bytes fs', put.phase = .closed t bytes → Frees maxBytes put.expected fs fs' →
      Spares other fs (fs'.link t.name (blobPath put.expected)) := by
    intro t bytes fs' hphase hfrees
    have ht : put.phase.temporary? = some t := by rw [hphase, Phase.temporary?]
    have hself := hfrees.spares (hinv.ne_blobPath ht put.expected)
    exact (hfrees.spares (hblob _)).trans
      (.link (hself.name.trans (hinv.live t ht).1) (hapart t ht) (hblob _))
  cases h with
  | rest | refuse | retry | abandon | fill | persist | find | close | finish => exact .refl
  | create hphase hnew => exact .create hnew hlive
  | append hphase | spoil hphase => exact .write (hapart _ (by rw [hphase, Phase.temporary?]))
  | recover hphase hrecovers => exact hrecovers.spares (hblob _)
  | link hphase hfrees => exact hlink _ _ _ hphase hfrees
  | publish hphase hfrees =>
    exact (hlink _ _ _ hphase hfrees).trans
      (.remove (hname _ (by rw [hphase, Phase.temporary?])))
  | remove hphase => exact .remove (hname _ (by rw [hphase, Phase.temporary?]))

/-- A live temporary file is an old one or has a new inode. -/
theorem Does.temporary (h : Does maxBytes put fs phase fs') (ht : phase.temporary? = some t) :
    put.phase.temporary? = some t ∨ t.inode = fs.next := by
  cases h with
  | rest => exact .inl ht
  | refuse | retry | publish | remove | finish => cases ht
  | create hphase hnew =>
    cases ht
    exact .inr rfl
  | append hphase | spoil hphase | fill hphase | find hphase | recover hphase | link hphase =>
    cases ht
    exact .inl (by rw [hphase, Phase.temporary?])
  | abandon hphase =>
    cases ht
    exact .inl (Phase.temporary_of_pending hphase)
  | persist hphase hphase' =>
    have heq := Phase.temporary_of_pending (Phase.pending_of_checked hphase')
    cases ht.symm.trans heq
    exact .inl (Phase.temporary_of_pending (Phase.pending_of_checked hphase))
  | @close t' isOpen present result fault hphase =>
    cases present with
    | false => cases ht
    | true =>
      cases ht
      exact .inl (by rw [hphase, Phase.temporary?])

/-! ## The invariant of a call -/

/-- A call without a temporary file has nothing to keep. -/
theorem PutInv.idle (h : put.phase.temporary? = none)
    (hvalid : put.phase.result? = none → Valid put.expected) : PutInv maxBytes fs put where
  live t ht := by cases h.symm.trans ht
  own t bytes ht := by cases h.symm.trans (Phase.temporary_of_pending ht)
  streamed t bytes ht := by cases h.symm.trans (Phase.temporary_of_pending ht)
  checked t bytes ht := by
    cases h.symm.trans (Phase.temporary_of_pending (Phase.pending_of_checked ht))
  valid := hvalid

/-- A call that is leaving only has to know its temporary name. -/
theorem PutInv.leaving {isOpen present : Bool}
    (hlive : present = true → fs.names.get? t.name = some t.inode ∧
      ∃ random, t.name = temporaryName random) :
    PutInv maxBytes fs { put with phase := .leaving t isOpen present result } where
  live t' ht' := by
    cases present with
    | false => cases ht'
    | true =>
      cases ht'
      exact hlive rfl
  own _ _ h := by cases h
  streamed _ _ h := by cases h
  checked _ _ h := by cases h
  valid h := by cases h

theorem PutInv.pending (h : put.phase.pending? = some (t, bytes))
    (hlive : fs.names.get? t.name = some t.inode ∧ ∃ random, t.name = temporaryName random)
    (hown : fs.contents t.inode = bytes ∧ ∀ name, fs.names.get? name = some t.inode → name = t.name)
    (hstreamed : bytes <+: put.source)
    (hchecked : put.phase.checked? = some (t, bytes) →
      bytes = put.source ∧ Intact maxBytes put.expected bytes)
    (hvalid : Valid put.expected) : PutInv maxBytes fs put where
  live t' ht' := by
    cases (Phase.temporary_of_pending h).symm.trans ht'
    exact hlive
  own t' bytes' ht' := by
    cases h.symm.trans ht'
    exact hown
  streamed t' bytes' ht' := by
    cases h.symm.trans ht'
    exact hstreamed
  checked t' bytes' ht' := by
    cases h.symm.trans (Phase.pending_of_checked ht')
    exact hchecked ht'
  valid _ := hvalid

theorem Does.putInv (h : Does maxBytes put fs phase fs') (hinv : PutInv maxBytes fs put) :
    PutInv maxBytes fs' { put with phase := phase } := by
  cases h with
  | rest => exact hinv
  | refuse | finish | remove => exact .idle rfl fun h => by cases h
  | retry hphase => exact .idle rfl fun _ => hinv.valid (congrArg Phase.result? hphase)
  | @create attempts random hphase hnew =>
    refine .pending rfl ⟨GoMap.get?_set_self _ _ _, random, rfl⟩ ⟨by simp [Files.create], ?_⟩
      List.nil_prefix (fun h => by cases h) (hinv.valid (congrArg Phase.result? hphase))
    intro name hname
    rcases GoMap.get?_set_cases hname with ⟨heq, -⟩ | ⟨-, hname⟩
    · exact heq
    · -- an older name refers to an older inode
      exact absurd (fs.allocated _ _ hname) (Nat.lt_irrefl _)
  | @append t bytes size hphase =>
    have hpending : put.phase.pending? = some (t, bytes) := by rw [hphase, Phase.pending?]
    obtain ⟨hbytes, honly⟩ := hinv.own t bytes hpending
    obtain ⟨rest, hrest⟩ := hinv.streamed t bytes hpending
    refine .pending rfl (hinv.live t (Phase.temporary_of_pending hpending)) ⟨?_, honly⟩ ?_
      (fun h => by cases h) (hinv.valid (congrArg Phase.result? hphase))
    · simp only [Files.write, if_pos, hbytes]
    · have hdrop : put.source.drop bytes.length = rest := by rw [← hrest, List.drop_left]
      rw [hdrop]
      refine ⟨rest.drop size, ?_⟩
      rw [List.append_assoc, List.take_append_drop, hrest]
  | spoil hphase | find hphase =>
    exact .leaving fun _ => hinv.live _ (by rw [hphase, Phase.temporary?])
  | abandon hphase => exact .leaving fun _ => hinv.live _ (Phase.temporary_of_pending hphase)
  | @fill t bytes hphase hall hintact =>
    have hpending : put.phase.pending? = some (t, bytes) := by rw [hphase, Phase.pending?]
    have hstreamed := hinv.streamed t bytes hpending
    exact .pending rfl (hinv.live t (Phase.temporary_of_pending hpending))
      (hinv.own t bytes hpending) hstreamed (fun _ => ⟨hstreamed.eq_of_length_le hall, hintact⟩)
      (hinv.valid (congrArg Phase.result? hphase))
  | @persist t bytes phase hphase hphase' =>
    have hpending := Phase.pending_of_checked hphase
    exact .pending (Phase.pending_of_checked hphase')
      (hinv.live t (Phase.temporary_of_pending hpending)) (hinv.own t bytes hpending)
      (hinv.streamed t bytes hpending) (fun _ => hinv.checked t bytes hphase)
      (hinv.valid (Phase.result_of_pending hpending))
  | @recover t bytes fs' err hphase hrecovers =>
    have ht : put.phase.temporary? = some t := by rw [hphase, Phase.temporary?]
    have hspares := hrecovers.spares (hinv.ne_blobPath ht put.expected)
    exact .leaving fun _ => ⟨hspares.name.trans (hinv.live t ht).1, (hinv.live t ht).2⟩
  | @link t bytes fs' err hphase hfrees =>
    have ht : put.phase.temporary? = some t := by rw [hphase, Phase.temporary?]
    have hne := hinv.ne_blobPath ht put.expected
    have hname := (hfrees.spares hne).name.trans (hinv.live t ht).1
    refine .leaving fun _ => ⟨?_, (hinv.live t ht).2⟩
    rw [Files.names_link hname, GoMap.get?_set_ne _ _ hne, hname]
  | publish hphase hfrees => exact .leaving fun h => by cases h
  | @close t isOpen present result fault hphase =>
    refine .leaving fun hpresent => ?_
    subst hpresent
    exact hinv.live t (by rw [hphase, Phase.temporary?])

/-- The environment writes to the inode of a blob, which no unpublished file has. -/
theorem PutInv.tampered (h : PutInv maxBytes fs put)
    (hname : fs.names.get? (blobPath digest) = some inode) {written : GoString} :
    PutInv maxBytes (fs.write inode written) put := by
  refine ⟨h.live, ?_, h.streamed, h.checked, h.valid⟩
  intro t received ht
  obtain ⟨hbytes, honly⟩ := h.own t received ht
  have hne : t.inode ≠ inode := by
    intro heq
    exact h.ne_blobPath (Phase.temporary_of_pending ht) digest (honly _ (heq ▸ hname)).symm
  exact ⟨(Spares.write hne).bytes.trans hbytes, honly⟩

/-! ## The invariant of the store -/

structure StoreInv (s : Store) : Prop where
  put : ∀ id put, s.puts.get? id = some put → PutInv s.maxBytes s.files put
  /-- Two calls never write to the same inode. -/
  apart : ∀ id id' put put' t t', s.puts.get? id = some put → s.puts.get? id' = some put' →
    put.phase.temporary? = some t → put'.phase.temporary? = some t' → t.inode = t'.inode → id = id'

theorem storeInv_new (h : s.puts = ∅) : StoreInv s := by
  constructor
  · intro id put hput
    rw [h] at hput
    cases hput
  · intro id id' put put' t t' hput
    rw [h] at hput
    cases hput

theorem begin_inv (expected : SHA256) (source : GoString) (ending : Option GoError) (fs : Files) :
    PutInv maxBytes fs (begin expected source ending) ∧
      (begin expected source ending).phase.temporary? = none := by
  unfold begin parseSHA256
  by_cases hvalid : encodedPattern expected = true
  · rw [if_pos hvalid]
    exact ⟨.idle rfl fun _ => hvalid, rfl⟩
  · rw [if_neg hvalid]
    exact ⟨.idle rfl (fun h => by cases h), rfl⟩

/-- A live temporary file keeps its name and its inode when another call moves. -/
theorem StoreInv.spares (h : StoreInv s) {id' : Nat} {put other : Put}
    (hput : s.puts.get? id = some put) (hother : s.puts.get? id' = some other) (hne : id' ≠ id)
    (hdoes : Does s.maxBytes put s.files phase fs') (ht : other.phase.temporary? = some t) :
    Spares t s.files fs' := by
  have hinv := h.put id' other hother
  refine hdoes.spares (h.put id put hput) (hinv.live t ht).1 (hinv.ne_blobPath ht) ?_
  intro own hown heq
  exact hne (h.apart _ _ _ _ _ _ hother hput ht hown heq)

theorem storeInv_advance {put : Put} (h : StoreInv s) (hput : s.puts.get? id = some put)
    (hdoes : Does s.maxBytes put s.files phase fs') :
    StoreInv { s with files := fs', puts := s.puts.set id { put with phase := phase } } := by
  -- the inodes of the other calls are older than a new one
  have hold : ∀ id' other t, id' ≠ id → s.puts.get? id' = some other →
      other.phase.temporary? = some t → ∀ t', phase.temporary? = some t' → t.inode ≠ t'.inode := by
    intro id' other t hne hother ht t' ht' heq
    rcases hdoes.temporary ht' with hown | hnew
    · exact hne (h.apart _ _ _ _ _ _ hother hput ht hown heq)
    · have := s.files.allocated _ _ ((h.put id' other hother).live t ht).1
      omega
  constructor
  · intro id' other hother
    rcases GoMap.get?_set_cases hother with ⟨-, rfl⟩ | ⟨hne, hother⟩
    · exact hdoes.putInv (h.put id put hput)
    · exact (h.put id' other hother).spared fun t ht => h.spares hput hother hne hdoes ht
  · intro id₁ id₂ put₁ put₂ t₁ t₂ h₁ h₂ ht₁ ht₂ heq
    rcases GoMap.get?_set_cases h₁ with ⟨rfl, rfl⟩ | ⟨hne₁, hput₁⟩ <;>
      rcases GoMap.get?_set_cases h₂ with ⟨rfl, rfl⟩ | ⟨hne₂, hput₂⟩
    · rfl
    · exact absurd heq.symm (hold id₂ put₂ t₂ hne₂ hput₂ ht₂ t₁ ht₁)
    · exact absurd heq (hold id₁ put₁ t₁ hne₁ hput₁ ht₁ t₂ ht₂)
    · exact h.apart _ _ _ _ _ _ hput₁ hput₂ ht₁ ht₂ heq

/-- A call without a temporary file is apart from all others. -/
theorem storeInv_start (h : StoreInv s) (hinv : PutInv s.maxBytes s.files put)
    (hnone : put.phase.temporary? = none) : StoreInv { s with puts := s.puts.set id put } := by
  refine ⟨GoMap.forall_set h.put hinv, ?_⟩
  intro id₁ id₂ put₁ put₂ t₁ t₂ h₁ h₂ ht₁ ht₂ heq
  rcases GoMap.get?_set_cases h₁ with ⟨-, rfl⟩ | ⟨-, h₁⟩
  · cases hnone.symm.trans ht₁
  · rcases GoMap.get?_set_cases h₂ with ⟨-, rfl⟩ | ⟨-, h₂⟩
    · cases hnone.symm.trans ht₂
    · exact h.apart _ _ _ _ _ _ h₁ h₂ ht₁ ht₂ heq

theorem storeInv_step (h : StoreInv s) (hacts : Acts s move answer s') : StoreInv s' := by
  cases hacts with
  | idle | opened => exact h
  | @start id expected source ending hnew =>
    obtain ⟨hbegin, hnone⟩ := @begin_inv s.maxBytes expected source ending s.files
    exact storeInv_start h hbegin hnone
  | advance hcall hput hdoes => exact storeInv_advance h hput hdoes
  | @unopened expected faults err fs hrecovers =>
    refine ⟨fun id put hput => ?_, h.apart⟩
    have hinv := h.put id put hput
    exact hinv.spared fun t ht => hrecovers.spares (hinv.ne_blobPath ht expected)
  | corrupt hname =>
    exact ⟨fun id put hput => (h.put id put hput).tampered hname, h.apart⟩

theorem storeInv_reachable {s₀ : Store} (hnew : s₀.puts = ∅) (hr : storeMachine.Reachable s₀ s) :
    StoreInv s :=
  Machine.invariant (storeInv_new hnew) (fun s move _ h => storeInv_step h (step_acts s move)) hr

/-! ## Blobs -/

/-- What a move that is not the environment's may do to a blob. -/
inductive Alters (maxBytes : Nat) (digest : SHA256) (old new : Option GoString) : Prop
  | keeps (h : new = old)
  | clears (hold : ∀ bytes, old = some bytes → ¬ Intact maxBytes digest bytes) (hnew : new = none)
  | places (hold : ∀ bytes, old = some bytes → ¬ Intact maxBytes digest bytes) {bytes : GoString}
      (hnew : new = some bytes) (hintact : Intact maxBytes digest bytes)

theorem Recovers.alters (h : Recovers maxBytes expected fs fs')
    (hexpected : fs' = fs ∨ Valid expected) (hdigest : Valid digest) :
    Alters maxBytes digest (fs.read? (blobPath digest)) (fs'.read? (blobPath digest)) := by
  cases h with
  | same => exact .keeps rfl
  | @cleared old hread hcorrupt =>
    by_cases hpath : blobPath digest = blobPath expected
    · rcases hexpected with hsame | hexpected
      · rw [hsame]
        exact .keeps rfl
      · cases blobPath_inj hdigest hexpected hpath
        refine .clears ?_ Files.read?_remove_self
        intro bytes hbytes
        cases hread.symm.trans hbytes
        exact hcorrupt
    · exact .keeps (Files.read?_remove_ne hpath)

/-- The name was free, or what stood there was not intact. -/
theorem Frees.not_intact (h : Frees maxBytes expected fs fs') :
    ∀ bytes, fs.read? (blobPath expected) = some bytes → ¬ Intact maxBytes expected bytes := by
  intro bytes hbytes
  cases h with
  | absent hfree =>
    rw [Files.read?, hfree] at hbytes
    cases hbytes
  | cleared hread hcorrupt =>
    cases hread.symm.trans hbytes
    exact hcorrupt

theorem Frees.read?_ne (h : Frees maxBytes expected fs fs') (hne : name ≠ blobPath expected) :
    fs'.read? name = fs.read? name := by
  cases h with
  | absent hfree => rfl
  | cleared hread hcorrupt => exact Files.read?_remove_ne hne

/-- What is linked is what was hashed. -/
theorem PutInv.linked (hinv : PutInv maxBytes fs put) (hphase : put.phase = .closed t bytes)
    (hfrees : Frees maxBytes put.expected fs fs') :
    (fs'.link t.name (blobPath put.expected)).read? (blobPath put.expected) = some put.source ∧
      Intact maxBytes put.expected put.source ∧
      ∀ name, name ≠ blobPath put.expected →
        (fs'.link t.name (blobPath put.expected)).read? name = fs.read? name := by
  have hchecked : put.phase.checked? = some (t, bytes) := by rw [hphase, Phase.checked?]
  have hpending := Phase.pending_of_checked hchecked
  have ht := Phase.temporary_of_pending hpending
  obtain ⟨rfl, hintact⟩ := hinv.checked t bytes hchecked
  have hspares := hfrees.spares (hinv.ne_blobPath ht put.expected)
  have hname := hspares.name.trans (hinv.live t ht).1
  refine ⟨?_, hintact, ?_⟩
  · rw [Files.read?_link_self hname, hspares.bytes, (hinv.own t put.source hpending).1]
  · intro name hne
    rw [Files.read?_link_ne hname hne, hfrees.read?_ne hne]

/-- Only a call that is ready to publish touches a blob. -/
theorem Does.blob (h : Does maxBytes put fs phase fs') (hinv : PutInv maxBytes fs put)
    (digest : SHA256) :
    fs'.read? (blobPath digest) = fs.read? (blobPath digest) ∨
    put.phase.checked?.isSome ∧ (Valid digest →
      Alters maxBytes digest (fs.read? (blobPath digest)) (fs'.read? (blobPath digest))) := by
  have hwrite : ∀ t bytes written, put.phase = .copying t bytes →
      (fs.write t.inode written).read? (blobPath digest) = fs.read? (blobPath digest) := by
    intro t bytes written hphase
    refine Files.read?_write_ne fun hname => ?_
    have hpending : put.phase.pending? = some (t, bytes) := by rw [hphase, Phase.pending?]
    exact hinv.ne_blobPath (Phase.temporary_of_pending hpending) digest
      ((hinv.own t bytes hpending).2 _ hname).symm
  have hlink : ∀ t bytes fs', put.phase = .closed t bytes → Frees maxBytes put.expected fs fs' →
      Valid digest → Alters maxBytes digest (fs.read? (blobPath digest))
        ((fs'.link t.name (blobPath put.expected)).read? (blobPath digest)) := by
    intro t bytes fs' hphase hfrees hdigest
    obtain ⟨hself, hintact, hother⟩ := hinv.linked hphase hfrees
    by_cases hpath : blobPath digest = blobPath put.expected
    · cases blobPath_inj hdigest (hinv.valid (congrArg Phase.result? hphase)) hpath
      exact .places hfrees.not_intact hself hintact
    · exact .keeps (hother _ hpath)
  cases h with
  | rest | refuse | retry | abandon | fill | persist | find | close | finish => exact .inl rfl
  | create hphase hnew =>
    exact .inl (Files.read?_create_ne (temporaryName_ne_blobPath _ digest).symm)
  | append hphase | spoil hphase => exact .inl (hwrite _ _ _ hphase)
  | recover hphase hrecovers =>
    exact .inr ⟨by rw [hphase]; rfl,
      hrecovers.alters (.inr (hinv.valid (congrArg Phase.result? hphase)))⟩
  | link hphase hfrees => exact .inr ⟨by rw [hphase]; rfl, hlink _ _ _ hphase hfrees⟩
  | @publish t bytes fs' hphase hfrees =>
    have ht : put.phase.temporary? = some t := by rw [hphase, Phase.temporary?]
    rw [Files.read?_remove_ne (hinv.ne_blobPath ht digest).symm]
    exact .inr ⟨by rw [hphase]; rfl, hlink _ _ _ hphase hfrees⟩
  | @remove t isOpen result hphase =>
    have ht : put.phase.temporary? = some t := by rw [hphase, Phase.temporary?]
    exact .inl (Files.read?_remove_ne (hinv.ne_blobPath ht digest).symm)

/-- The moves of the environment. -/
def Move.tampers : Move → Bool
  | .corrupt _ _ => true
  | _ => false

section

variable (h : Acts s move answer s') (hinv : StoreInv s) (hmove : move.tampers = false)
  (hdigest : Valid digest)
include h hinv hmove hdigest

theorem Acts.alters : Alters s.maxBytes digest (s.blob? digest) (s'.blob? digest) := by
  cases h with
  | idle | opened | start => exact .keeps rfl
  | advance hcall hput hdoes =>
    rcases hdoes.blob (hinv.put _ _ hput) digest with hkeeps | ⟨-, halters⟩
    · exact .keeps hkeeps
    · exact halters hdigest
  | unopened hrecovers hvalid => exact hrecovers.alters hvalid hdigest
  | corrupt => cases hmove

/-- Nothing but the environment takes an intact blob away. -/
theorem Acts.keeps_intact {bytes : GoString} (hblob : s.blob? digest = some bytes)
    (hintact : Intact s.maxBytes digest bytes) :
    s'.blob? digest = some bytes := by
  cases h.alters hinv hmove hdigest with
  | keeps heq => exact heq.trans hblob
  | clears hold | places hold => exact absurd hintact (hold bytes hblob)

end

/-! ## Successful calls -/

/-- The move in which a call ends well. -/
inductive Ends (maxBytes : Nat) (put : Put) (fs : Files) (info : Info) (fs' : Files) : Prop
  | found {old : GoString} (hread : fs.read? (blobPath put.expected) = some old)
      (hintact : Intact maxBytes put.expected old) (hfiles : fs' = fs)
      (hinfo : info = ⟨put.expected, old.length, false⟩)
  | placed (hold : ∀ old, fs.read? (blobPath put.expected) = some old →
        ¬ Intact maxBytes put.expected old)
      (hread : fs'.read? (blobPath put.expected) = some put.source)
      (hintact : Intact maxBytes put.expected put.source)
      (hinfo : info = ⟨put.expected, put.source.length, true⟩)

theorem joinErr_none {a b : Option GoError} (h : joinErr a b = none) : a = none := by
  cases a with
  | none => rfl
  | some err => cases b <;> cases h

theorem Does.success (h : Does maxBytes put fs phase fs') (hinv : PutInv maxBytes fs put)
    (hresult : phase.result? = some result) (hok : result.err = none) :
    (∃ before, put.phase.result? = some before ∧ before.err = none ∧ before.info = result.info) ∨
    (∃ t bytes, put.phase = .closed t bytes ∧ phase ≠ put.phase) ∧
      Ends maxBytes put fs result.info fs' := by
  cases h with
  | rest => exact .inl ⟨result, hresult, hok, rfl⟩
  | refuse | abandon | spoil | recover | link =>
    cases hresult
    cases hok
  | retry | create | append | fill => cases hresult
  | persist hphase hphase' =>
    rw [Phase.result_of_pending (Phase.pending_of_checked hphase')] at hresult
    cases hresult
  | @find t bytes old hphase hread hintact =>
    cases hresult
    exact .inr ⟨⟨t, bytes, hphase, by rw [hphase]; exact Phase.noConfusion⟩,
      .found hread hintact rfl rfl⟩
  | @publish t bytes fs' hphase hfrees =>
    cases hresult
    obtain ⟨hself, hintact, -⟩ := hinv.linked hphase hfrees
    have hchecked : put.phase.checked? = some (t, bytes) := by rw [hphase, Phase.checked?]
    have ht := Phase.temporary_of_pending (Phase.pending_of_checked hchecked)
    obtain ⟨rfl, -⟩ := hinv.checked t bytes hchecked
    refine .inr ⟨⟨t, put.source, hphase, by rw [hphase]; exact Phase.noConfusion⟩,
      .placed hfrees.not_intact ?_ hintact rfl⟩
    rw [Files.read?_remove_ne (hinv.ne_blobPath ht put.expected).symm]
    exact hself
  | @close t isOpen present before fault hphase | @finish t isOpen present before fault hphase =>
    cases hresult
    exact .inl ⟨before, by rw [hphase, Phase.result?], joinErr_none hok, rfl⟩
  | @remove t isOpen before hphase =>
    cases hresult
    exact .inl ⟨result, by rw [hphase, Phase.result?], hok, rfl⟩

/-- The event in which a call published its blob or found it. -/
structure Publishes (maxBytes id : Nat) (expected : SHA256) (source : GoString) (info : Info)
    (bytes : GoString) (e : StoreEvent) : Prop where
  move : ∃ faults, e.input = .publish id faults
  valid : Valid expected
  blob : e.post.blob? expected = some bytes
  intact : Intact maxBytes expected bytes
  digest : info.digest = expected
  size : info.size = bytes.length
  /-- An intact blob stays in place, unless it collides with the source. -/
  found : ∀ old, e.pre.blob? expected = some old → sum old = expected →
    (sum old = sum source → old = source) →
      info.created = false ∧ bytes = old ∧
      e.post.files.names.get? (blobPath expected) = e.pre.files.names.get? (blobPath expected)

theorem Ends.publishes {e : StoreEvent} {info : Info}
    (h : Ends maxBytes put e.pre.files info e.post.files)
    (hmove : ∃ faults, e.input = .publish id faults) (hvalid : Valid put.expected) :
    ∃ bytes, Publishes maxBytes id put.expected put.source info bytes e := by
  cases h with
  | @found old hread hintact hfiles hinfo =>
    subst hinfo
    refine ⟨old, hmove, hvalid, ?_, hintact, rfl, rfl, ?_⟩
    · rw [Store.blob?, hfiles, hread]
    · intro bytes hbytes _ _
      cases hread.symm.trans hbytes
      exact ⟨rfl, rfl, by rw [hfiles]⟩
  | placed hold hread hintact hinfo =>
    subst hinfo
    refine ⟨put.source, hmove, hvalid, hread, hintact, rfl, rfl, ?_⟩
    intro old hpre hsum hfree
    -- the old blob would have the bytes of the source, which are intact
    have heq := hfree (hsum.trans hintact.1.symm)
    subst heq
    exact absurd hintact (hold _ hpre)

/-- The environment changed a blob. -/
def Tampered (digest : SHA256) (e : StoreEvent) : Prop :=
  e.input.tampers = true ∧ e.post.blob? digest ≠ e.pre.blob? digest

/-- The call published its blob, which is still there unless the environment has changed it. -/
def Published (maxBytes : Nat) (history : List StoreEvent) (s : Store) (id : Nat)
    (expected : SHA256) (source : GoString) (info : Info) : Prop :=
  ∃ before e after bytes, history = before ++ e :: after ∧
    Publishes maxBytes id expected source info bytes e ∧
    ((∀ e' ∈ after, ¬ Tampered expected e') → s.blob? expected = some bytes)

theorem Published.snoc {history : List StoreEvent} {source : GoString} {info : Info}
    (h : Published s.maxBytes history s id expected source info) (hinv : StoreInv s) (move : Move) :
    Published s.maxBytes (history ++ [storeMachine.event s move]) (storeMachine.step s move).2 id
      expected source info := by
  obtain ⟨before, e, after, bytes, rfl, hpublishes, hkept⟩ := h
  refine ⟨before, e, after ++ [storeMachine.event s move], bytes, by simp, hpublishes, ?_⟩
  intro huntouched
  have hblob := hkept fun e' he' => huntouched e' (List.mem_append_left _ he')
  have hlast := huntouched (storeMachine.event s move) (by simp)
  by_cases hmove : move.tampers = true
  · have hsame : (storeMachine.step s move).2.blob? expected = s.blob? expected := by
      by_contra hne
      exact hlast ⟨hmove, hne⟩
    exact hsame.trans hblob
  · rw [Bool.not_eq_true] at hmove
    exact (step_acts s move).keeps_intact hinv hmove hpublishes.valid hblob hpublishes.intact

/-- A successful call either was one before, or has just published. -/
theorem Acts.success (h : Acts s move answer s') (hinv : StoreInv s) {put : Put}
    (hput : s'.puts.get? id = some put) (hresult : put.phase.result? = some result)
    (hok : result.err = none) :
    (∃ before earlier, s.puts.get? id = some before ∧ before.expected = put.expected ∧
      before.source = put.source ∧ before.phase.result? = some earlier ∧ earlier.err = none ∧
      earlier.info = result.info) ∨
    (∃ faults, move = .publish id faults) ∧ Valid put.expected ∧
      Ends s.maxBytes put s.files result.info s'.files := by
  cases h with
  | idle | opened | unopened | corrupt =>
    exact .inl ⟨put, result, hput, rfl, rfl, hresult, hok, rfl⟩
  | @start id' expected source ending hnew =>
    rcases GoMap.get?_set_cases hput with ⟨-, rfl⟩ | ⟨-, hput⟩
    · -- a call that has just begun has not succeeded
      unfold begin at hresult
      dsimp only at hresult
      split at hresult
      · cases hresult
        cases hok
      · cases hresult
    · exact .inl ⟨put, result, hput, rfl, rfl, hresult, hok, rfl⟩
  | @advance id' moved move phase fs hcall hmoved hdoes hpublish =>
    rcases GoMap.get?_set_cases hput with ⟨rfl, rfl⟩ | ⟨-, hput⟩
    · have hmovedInv := hinv.put id moved hmoved
      rcases hdoes.success hmovedInv hresult hok with
        ⟨earlier, hearlier, herr, hinfo⟩ | ⟨⟨t, bytes, hphase, hne⟩, hends⟩
      · exact .inl ⟨moved, earlier, hmoved, rfl, rfl, hearlier, herr, hinfo⟩
      · refine .inr ⟨hpublish t bytes hphase hne,
          hmovedInv.valid (congrArg Phase.result? hphase), ?_⟩
        cases hends with
        | found hread hintact hfiles hinfo => exact .found hread hintact hfiles hinfo
        | placed hold hread hintact hinfo => exact .placed hold hread hintact hinfo
    · exact .inl ⟨put, result, hput, rfl, rfl, hresult, hok, rfl⟩

theorem Acts.limit (h : Acts s move answer s') : s'.maxBytes = s.maxBytes := by
  cases h <;> rfl

/-- What is known of every successful call after a history. -/
structure Successes (maxBytes : Nat) (history : List StoreEvent) (s : Store) : Prop where
  limit : s.maxBytes = maxBytes
  published : ∀ id put result, s.puts.get? id = some put → put.phase.result? = some result →
    result.err = none →
      Published maxBytes history s id put.expected put.source result.info

theorem successes_snoc {history : List StoreEvent} (hinv : StoreInv s)
    (h : Successes maxBytes history s) (move : Move) :
    Successes maxBytes (history ++ [storeMachine.event s move]) (storeMachine.step s move).2 := by
  obtain ⟨rfl, hpublished⟩ := h
  have hacts := step_acts s move
  refine ⟨hacts.limit, ?_⟩
  intro id put result hput hresult hok
  rcases hacts.success hinv hput hresult hok with
    ⟨before, earlier, hbefore, hexpected, hsource, hearlier, herr, hinfo⟩ |
    ⟨hmove, hvalid, hends⟩
  · have hold := hpublished id before earlier hbefore hearlier herr
    rw [hexpected, hsource, hinfo] at hold
    exact hold.snoc hinv move
  · obtain ⟨bytes, hpublishes⟩ :=
      @Ends.publishes _ _ _ (storeMachine.event s move) _ hends hmove hvalid
    exact ⟨history, _, [], bytes, rfl, hpublishes, fun _ => hpublishes.blob⟩

theorem successes {s₀ : Store} (hnew : s₀.puts = ∅) (moves : List Move) :
    Successes s₀.maxBytes (storeMachine.events s₀ moves) (storeMachine.run s₀ moves) := by
  have hinit : Successes s₀.maxBytes [] s₀ := by
    refine ⟨rfl, ?_⟩
    intro id put result hput
    rw [hnew] at hput
    cases hput
  refine Machine.trace hinit ?_ moves
  intro history s move hr h
  exact successes_snoc (storeInv_reachable hnew hr) h move

/-! ## Integrity -/

/-- A call whose source is not what it promised touches no blob. -/
theorem Acts.rejected (h : Acts s move answer s') (hinv : StoreInv s) {put : Put}
    (hcall : move.call = some id) (hput : s.puts.get? id = some put)
    (hbad : ¬ Intact s.maxBytes put.expected put.source) (digest : SHA256) :
    s'.blob? digest = s.blob? digest := by
  cases h with
  | idle => rfl
  | start | opened | unopened | corrupt => cases hcall
  | @advance id' moved move phase fs hcall' hmoved hdoes =>
    cases hcall.symm.trans hcall'
    cases hput.symm.trans hmoved
    have hputInv := hinv.put id put hput
    rcases hdoes.blob hputInv digest with hkeeps | ⟨hchecked, -⟩
    · exact hkeeps
    · obtain ⟨⟨t, bytes⟩, hsome⟩ := Option.isSome_iff_exists.mp hchecked
      obtain ⟨rfl, hintact⟩ := hputInv.checked t bytes hsome
      exact absurd hintact hbad

/--
**Integrity.** In every run, from any files and with no call running at first:
a move of the store never makes a blob name refer to bytes that do not hash to it;
a call that has returned no error published bytes that hash to its digest, or found them there;
what `OpenVerified` returns hashes to the requested digest;
and a call whose source is wrong or too long changes no blob.
-/
theorem store_integrity {s₀ : Store} (hnew : s₀.puts = ∅) (moves : List Move) :
    (∀ e ∈ storeMachine.events s₀ moves, e.input.tampers = false → ∀ digest, Valid digest →
      ∀ bytes, e.post.blob? digest = some bytes →
        sum bytes = digest ∨ e.pre.blob? digest = some bytes) ∧
    (∀ id put info, (storeMachine.run s₀ moves).puts.get? id = some put →
      put.phase = .returned ⟨info, none⟩ →
      Published s₀.maxBytes (storeMachine.events s₀ moves) (storeMachine.run s₀ moves) id
        put.expected put.source info) ∧
    (∀ e ∈ storeMachine.events s₀ moves, ∀ digest faults bytes info,
      e.input = .openVerified digest faults → e.output = .opened (.ok (bytes, info)) →
      e.pre.blob? digest = some bytes ∧ sum bytes = digest ∧ info.digest = digest ∧
        info.size = bytes.length) ∧
    (∀ e ∈ storeMachine.events s₀ moves, ∀ id put, e.input.call = some id →
      e.pre.puts.get? id = some put →
      sum put.source ≠ put.expected ∨ s₀.maxBytes < put.source.length →
      ∀ digest, e.post.blob? digest = e.pre.blob? digest) := by
  have hevent : ∀ e ∈ storeMachine.events s₀ moves,
      StoreInv e.pre ∧ Acts e.pre e.input e.output e.post := by
    intro e he
    obtain ⟨hr, heq⟩ := Machine.event_reachable .init he
    refine ⟨storeInv_reachable hnew hr, ?_⟩
    rw [heq]
    exact step_acts e.pre e.input
  refine ⟨?_, ?_, ?_, ?_⟩
  · intro e he hmove digest hdigest bytes hbytes
    obtain ⟨hinv, hacts⟩ := hevent e he
    cases hacts.alters hinv hmove hdigest with
    | keeps hsame => exact .inr (hsame ▸ hbytes)
    | clears hold hnone => cases hnone.symm.trans hbytes
    | places hold hplaced hintact =>
      cases hplaced.symm.trans hbytes
      exact .inl hintact.1
  · intro id put info hput hphase
    exact (successes hnew moves).published id put ⟨info, none⟩ hput
      (by rw [hphase, Phase.result?]) rfl
  · intro e he digest faults bytes info hinput houtput
    obtain ⟨-, hacts⟩ := hevent e he
    rw [hinput, houtput] at hacts
    generalize hpost : e.post = post at hacts
    cases hacts with
    | opened hread hintact => exact ⟨hread, hintact.1, rfl, rfl⟩
  · intro e he id put hcall hput hbad digest
    obtain ⟨hinv, hacts⟩ := hevent e he
    have hlimit : e.pre.maxBytes = s₀.maxBytes := by
      obtain ⟨hr, -⟩ := Machine.event_reachable .init he
      exact Machine.invariant (P := fun s => s.maxBytes = s₀.maxBytes) rfl
        (fun s move _ h => (step_acts s move).limit.trans h) hr
    refine hacts.rejected hinv hcall hput ?_ digest
    rintro ⟨hsum, hlength⟩
    rcases hbad with hbad | hbad
    · exact hbad hsum
    · omega

/-! ## A call without failures -/

def noFaults : Faults :=
  ⟨none, none, none, none, none, none, none, none, none, none, none⟩

/-- The moves of one call that nothing disturbs. -/
def undisturbed (id : Nat) (source random : GoString) : List Move :=
  [.start id (sum source) source none, .create id random none, .copy id source.length none none,
    .copy id 0 none none, .sync id none, .close id none, .publish id noFaults, .leave id none]

/-! ## A sample -/

/-- A store of eight bytes a blob, over no files. -/
def sampleStore : Store := ⟨8, ⟨∅, fun _ => [], 0, fun _ _ h => by cases h⟩, ∅⟩

/-- One byte is stored, and it is read back as long as the environment leaves it alone. -/
theorem store_integrity_sample :
    sampleStore.puts = ∅ ∧
    ∃ bytes, (storeMachine.run sampleStore (undisturbed 0 "m" "r")).blob? (sum "m") = some bytes ∧
      sum bytes = sum "m" := by
  refine ⟨rfl, ?_⟩
  have hreturned : (storeMachine.run sampleStore (undisturbed 0 "m" "r")).puts.get? 0 =
      some ⟨sum "m", "m", none, .returned ⟨⟨sum "m", 1, true⟩, none⟩⟩ := by decide +kernel
  obtain ⟨before, e, after, bytes, hevents, hpublishes, hkept⟩ :=
    (@store_integrity sampleStore rfl (undisturbed 0 "m" "r")).2.1 0 _ _ hreturned rfl
  refine ⟨bytes, hkept ?_, hpublishes.intact.1⟩
  intro e' he' htampered
  -- none of the eight moves is the environment's
  have hmem : e' ∈ storeMachine.events sampleStore (undisturbed 0 "m" "r") := by
    rw [hevents]
    simp [he']
  obtain ⟨moves₁, moves₂, hmoves, -, -⟩ := Machine.mem_events hmem
  have hinput : e'.input ∈ undisturbed 0 "m" "r" := by
    rw [hmoves]
    simp
  have hhonest : ∀ move ∈ undisturbed 0 "m" "r", move.tampers = false := by
    simp [undisturbed, Move.tampers]
  have htampers := htampered.1
  rw [hhonest _ hinput] at htampers
  cases htampers

end MiniCloud.Artifact
