import MiniCloud.Lib.Text

/-!
# Readers

`io.Reader`, as a tree of everything a reader may do: it has ended and returns the same error from
now on, or it returns some bytes for a buffer of a given size, perhaps with an error, and goes on
as another reader. Every path through such a tree is finite, and that is all that is assumed of a
source: the sizes of the pieces, empty reads and an end that comes with the last piece or after it
are up to the tree. A buffer has at least one byte, so `n` stands for a buffer of `n + 1` bytes.

`Delivers r bs e` says that `r` returns the bytes `bs` in some pieces and ends in `e`, whatever
buffers it is given.
-/

namespace MiniCloud.Lib

inductive ReadError where
  | eof
  | unexpectedEOF
  | other (cause : GoString)
  deriving DecidableEq

inductive Reader where
  | ended (err : ReadError)
  | reading (bytes : Nat → GoString) (err : Nat → Option ReadError) (next : Nat → Reader)

namespace Reader

/-! ## One read -/

def bytes : Reader → Nat → GoString
  | ended _, _ => []
  | reading b _ _, n => b n

def err : Reader → Nat → Option ReadError
  | ended e, _ => some e
  | reading _ e _, n => e n

def next : Reader → Nat → Reader
  | ended e, _ => ended e
  | reading _ _ r, n => r n

/-! ## Constructions -/

def ofBytesAux : Nat → GoString → Reader
  | 0, _ => ended .eof
  | _ + 1, [] => ended .eof
  | k + 1, b :: bs =>
    reading (fun n => (b :: bs).take (n + 1)) (fun _ => none)
      fun n => ofBytesAux k ((b :: bs).drop (n + 1))

/-- `bytes.NewReader`. -/
def ofBytes (bs : GoString) : Reader := ofBytesAux bs.length bs

/-- The end of a source is unexpected while bytes are due. -/
def exactErr (left : Nat) : Option ReadError → Option ReadError
  | some .eof => if 0 < left then some .unexpectedEOF else some .eof
  | e => e

/-- A reader that takes that many bytes of its source and fails if there are fewer. -/
def exact : Reader → Nat → Reader
  | _, 0 => ended .eof
  | ended e, _ + 1 => ended (if e = .eof then .unexpectedEOF else e)
  | reading b e r, left + 1 =>
    reading (fun n => b (min n left))
      (fun n => exactErr (left + 1 - (b (min n left)).length) (e (min n left)))
      fun n => exact (r (min n left)) (left + 1 - (b (min n left)).length)

/-- `io.MultiReader` of a reader and what follows it; the last one keeps its end. -/
def chain (rest : Reader) (last : Bool) : Reader → Reader
  | ended e => if e = .eof then rest else ended e
  | reading b e r =>
    reading (fun n => if e n = some .eof ∧ b n = [] then rest.bytes n else b n)
      (fun n =>
        if e n = some .eof then
          if b n = [] then rest.err n else if last then some .eof else none
        else e n)
      fun n =>
        if e n = some .eof then
          if b n = [] then rest.next n else rest
        else chain rest last (r n)

def multi : List Reader → Reader
  | [] => ended .eof
  | r :: rs => chain (multi rs) rs.isEmpty r

/-- `io.ErrUnexpectedEOF` for a source that ends in the middle. -/
def atLeastErr (got : Bool) (e : ReadError) : ReadError :=
  if got ∧ e = .eof then .unexpectedEOF else e

/-- `io.ReadFull` into a buffer of which a part may have been filled. -/
def readFull : Reader → Bool → Nat → Except ReadError (GoString × Reader)
  | r, _, 0 => .ok ([], r)
  | ended e, got, _ + 1 => .error (atLeastErr got e)
  | reading b e r, got, n + 1 =>
    if n + 1 ≤ (b n).length then .ok (b n, r n)
    else
      match e n with
      | some e => .error (atLeastErr (got || b n ≠ []) e)
      | none =>
        match readFull (r n) (got || b n ≠ []) (n + 1 - (b n).length) with
        | .error e => .error e
        | .ok (bs, r') => .ok (b n ++ bs, r')

/-! ## What a reader delivers -/

/--
The reader returns `bs` and ends in `e`. A prompt one says so as soon as there is nothing left,
instead of returning nothing and no error first.
-/
def Delivers (prompt : Bool) : Reader → GoString → ReadError → Prop
  | ended e, bs, e' => bs = [] ∧ e = e'
  | reading b e r, bs, e' =>
    (prompt = true → bs = [] → ∀ n, e n ≠ none) ∧
    ∀ n, (b n).length ≤ n + 1 ∧ ∃ rest, bs = b n ++ rest ∧
      (e n = none → Delivers prompt (r n) rest e') ∧
      ∀ e'', e n = some e'' → e'' = e' ∧ rest = [] ∧ Delivers prompt (r n) [] e'

variable {prompt : Bool} {r rest : Reader} {bs bs' : GoString} {e : ReadError}

theorem delivers_ofBytesAux {k : Nat} (h : bs.length ≤ k) :
    Delivers true (ofBytesAux k bs) bs .eof := by
  induction k generalizing bs with
  | zero => exact ⟨List.eq_nil_of_length_eq_zero (by omega), rfl⟩
  | succ k ih =>
    rcases bs with _ | ⟨b, bs⟩
    · exact ⟨rfl, rfl⟩
    · refine ⟨fun _ h => (by cases h), fun n => ⟨?_, (b :: bs).drop (n + 1), ?_, ?_, ?_⟩⟩
      · rw [List.length_take]
        omega
      · rw [List.take_append_drop]
      · intro _
        refine ih ?_
        rw [List.length_drop, List.length_cons]
        rw [List.length_cons] at h
        omega
      · intro e he
        cases he

theorem delivers_ofBytes (bs : GoString) : Delivers true (ofBytes bs) bs .eof :=
  delivers_ofBytesAux le_rfl

theorem exactErr_none {left : Nat} {o : Option ReadError} (h : exactErr left o = none) :
    o = none := by
  cases o with
  | none => rfl
  | some e =>
    cases e with
    | eof =>
      by_cases hleft : 0 < left
      · rw [exactErr, if_pos hleft] at h
        cases h
      · rw [exactErr, if_neg hleft] at h
        cases h
    | unexpectedEOF | other => cases h

theorem exactErr_some {left : Nat} {o : Option ReadError} (h : exactErr left o = some e) :
    ∃ e', o = some e' := by
  cases o with
  | none => cases h
  | some e' => exact ⟨e', rfl⟩

/--
A source with enough bytes: the reader takes as many as it should and ends at once. How the source
would have ended matters only if it has no byte more.
-/
theorem delivers_exact (h : Delivers prompt r bs e) {size : Nat} (hsize : size ≤ bs.length)
    (hmore : e = .eof ∨ size < bs.length) : Delivers true (exact r size) (bs.take size) .eof := by
  induction r generalizing bs size with
  | ended e' =>
    obtain ⟨rfl, -⟩ := h
    obtain rfl : size = 0 := by simpa using hsize
    exact ⟨rfl, rfl⟩
  | reading b er next ih =>
    rcases size with _ | left
    · exact ⟨rfl, rfl⟩
    refine ⟨?_, fun n => ?_⟩
    · intro _ hnil
      have hlength := congrArg List.length hnil
      rw [List.length_take, List.length_nil] at hlength
      omega
    obtain ⟨hle, rest, rfl, hgoes, hends⟩ := h.2 (min n left)
    rw [List.length_append] at hsize hmore
    have hshort : (b (min n left)).length ≤ left + 1 := by omega
    have htake : (b (min n left) ++ rest).take (left + 1) =
        b (min n left) ++ rest.take (left + 1 - (b (min n left)).length) := by
      rw [List.take_append, List.take_of_length_le hshort]
    have hrest : left + 1 - (b (min n left)).length ≤ rest.length := by omega
    refine ⟨le_trans hle (by omega), _, htake, ?_, ?_⟩
    · intro hnone
      refine ih _ (hgoes (exactErr_none hnone)) hrest ?_
      rcases hmore with hmore | hmore
      · exact .inl hmore
      · exact .inr (by omega)
    · intro e' he'
      obtain ⟨e'', he⟩ := exactErr_some he'
      -- the source has ended, so it had exactly as many bytes as were due
      obtain ⟨rfl, rfl, hnext⟩ := hends e'' he
      rw [List.length_nil] at hrest hmore
      obtain rfl : e'' = .eof := hmore.resolve_right (by omega)
      have hzero : left + 1 - (b (min n left)).length = 0 := by omega
      change exactErr _ (er (min n left)) = some e' at he'
      rw [he, hzero] at he'
      refine ⟨(Option.some.inj he').symm, List.take_nil, ?_⟩
      change Delivers true (exact (next (min n left)) _) [] .eof
      rw [hzero]
      exact ih _ hnext (Nat.zero_le _) (.inl rfl)

/-- A source with too few bytes makes the reader fail instead of ending. -/
theorem delivers_exact_short (h : Delivers prompt r bs .eof) {size : Nat}
    (hsize : bs.length < size) : Delivers false (exact r size) bs .unexpectedEOF := by
  induction r generalizing bs size with
  | ended e =>
    obtain ⟨rfl, rfl⟩ := h
    obtain ⟨left, rfl⟩ : ∃ k, size = k + 1 := ⟨size - 1, by omega⟩
    exact ⟨rfl, rfl⟩
  | reading b e next ih =>
    obtain ⟨left, rfl⟩ : ∃ k, size = k + 1 := ⟨size - 1, by omega⟩
    refine ⟨fun habsurd => (by cases habsurd), fun n => ?_⟩
    obtain ⟨hle, rest, rfl, hmore, hend⟩ := h.2 (min n left)
    rw [List.length_append] at hsize
    refine ⟨le_trans hle (by omega), rest, rfl, ?_, ?_⟩
    · intro hnone
      exact ih _ (hmore (exactErr_none hnone)) (by omega)
    · intro e' he'
      obtain ⟨e'', he⟩ := exactErr_some he'
      obtain ⟨rfl, rfl, hnext⟩ := hend e'' he
      have hleft : 0 < left + 1 - (b (min n left)).length := by
        rw [List.length_nil] at hsize
        omega
      change exactErr _ (e (min n left)) = some e' at he'
      rw [he, exactErr, if_pos hleft] at he'
      exact ⟨(Option.some.inj he').symm, rfl, ih _ hnext hleft⟩

/-- What one read returns and what is left to be delivered after it. -/
theorem Delivers.read (h : Delivers prompt r bs e) (n : Nat) :
    (r.bytes n).length ≤ n + 1 ∧ ∃ rest, bs = r.bytes n ++ rest ∧
      (r.err n = none → Delivers prompt (r.next n) rest e) ∧
      ∀ e', r.err n = some e' → e' = e ∧ rest = [] ∧ Delivers prompt (r.next n) [] e := by
  cases r with
  | ended e' =>
    obtain ⟨rfl, rfl⟩ := h
    refine ⟨Nat.zero_le _, [], rfl, fun hnone => (by cases hnone), ?_⟩
    intro e'' he''
    exact ⟨(Option.some.inj he'').symm, rfl, rfl, rfl⟩
  | reading b er next => exact h.2 n

theorem Delivers.lazily (h : Delivers true r bs e) : Delivers false r bs e := by
  induction r generalizing bs with
  | ended e' => exact h
  | reading b er next ih =>
    refine ⟨fun habsurd => (by cases habsurd), fun n => ?_⟩
    obtain ⟨hle, rest, hbs, hgoes, hends⟩ := h.2 n
    refine ⟨hle, rest, hbs, fun hnone => ih n (hgoes hnone), ?_⟩
    intro e' he'
    obtain ⟨heq, hnil, hnext⟩ := hends e' he'
    exact ⟨heq, hnil, ih n hnext⟩

/-- A prompt reader with nothing left says so. -/
theorem Delivers.finished (h : Delivers true r [] e) (n : Nat) :
    r.bytes n = [] ∧ r.err n = some e := by
  obtain ⟨-, rest, hnil, -, hend⟩ := h.read n
  refine ⟨(List.append_eq_nil_iff.mp hnil.symm).1, ?_⟩
  cases r with
  | ended e' => exact congrArg some h.2
  | reading b er next =>
    obtain ⟨e', he'⟩ := Option.ne_none_iff_exists'.mp (h.1 rfl rfl n)
    obtain ⟨rfl, -, -⟩ := hend e' he'
    exact he'

/-- One reader after another. -/
theorem delivers_chain {last : Bool} (h : Delivers prompt r bs .eof)
    (hrest : Delivers prompt rest bs' e) (hlast : last = true → rest = ended .eof) :
    Delivers prompt (chain rest last r) (bs ++ bs') e := by
  induction r generalizing bs with
  | ended e' =>
    obtain ⟨rfl, rfl⟩ := h
    exact hrest
  | reading b er next ih =>
    refine ⟨?_, fun n => ?_⟩
    · intro hprompt hnil n
      obtain ⟨rfl, rfl⟩ := List.append_eq_nil_iff.mp hnil
      subst hprompt
      obtain ⟨hb, he⟩ := h.finished n
      change b n = [] at hb
      change er n = some .eof at he
      simp only [he, hb, if_true, (hrest.finished n).2]
      exact Option.some_ne_none e
    · obtain ⟨hle, left, hbs, hmore, hend⟩ := h.2 n
      by_cases he : er n = some .eof
      · obtain ⟨-, rfl, -⟩ := hend _ he
        rw [List.append_nil] at hbs
        subst hbs
        by_cases hb : b n = []
        · -- an empty read at the end is passed on to the next reader
          simp only [he, hb, and_self, if_true, List.nil_append]
          exact hrest.read n
        · simp only [he, hb, and_false, if_true, if_false]
          refine ⟨hle, bs', rfl, fun _ => hrest, ?_⟩
          intro e' he'
          by_cases hl : last = true
          · obtain rfl := hlast hl
            obtain ⟨rfl, rfl⟩ := hrest
            rw [if_pos hl] at he'
            exact ⟨(Option.some.inj he').symm, rfl, rfl, rfl⟩
          · rw [if_neg hl] at he'
            cases he'
      · have hnone : er n = none := by
          cases hern : er n with
          | none => rfl
          | some e' =>
            obtain ⟨rfl, -, -⟩ := hend e' hern
            exact absurd hern he
        simp only [hnone, reduceCtorEq, false_and, if_false]
        refine ⟨hle, left ++ bs', by rw [hbs, List.append_assoc], ?_, ?_⟩
        · intro _
          exact ih n (hmore hnone)
        · intro e' he'
          cases he'

/-- A reader that fails keeps what would follow it from being read. -/
theorem delivers_chain_fails {last : Bool} (h : Delivers prompt r bs e) (he : e ≠ .eof) :
    Delivers prompt (chain rest last r) bs e := by
  induction r generalizing bs with
  | ended e' =>
    obtain ⟨rfl, rfl⟩ := h
    rw [chain, if_neg he]
    exact ⟨rfl, rfl⟩
  | reading b er next ih =>
    have hne : ∀ n, er n ≠ some .eof := by
      intro n hn
      obtain ⟨-, left, -, -, hends⟩ := h.2 n
      exact he (hends _ hn).1.symm
    refine ⟨?_, fun n => ?_⟩
    · intro hprompt hnil n
      simp only [hne n, if_false]
      exact h.1 hprompt hnil n
    · obtain ⟨hle, left, hbs, hgoes, hends⟩ := h.2 n
      simp only [hne n, false_and, if_false]
      refine ⟨hle, left, hbs, fun hnone => ih n (hgoes hnone), ?_⟩
      intro e' he'
      obtain ⟨heq, hnil, hnext⟩ := hends e' he'
      exact ⟨heq, hnil, ih n hnext⟩

/-- `io.MultiReader`, whose last reader decides how it ends. -/
theorem delivers_multi (pieces : List GoString) (h : Delivers prompt r bs e) :
    Delivers prompt (multi (pieces.map ofBytes ++ [r])) (pieces.flatten ++ bs) e := by
  have hbytes : ∀ piece, Delivers prompt (ofBytes piece) piece .eof := by
    intro piece
    cases prompt with
    | true => exact delivers_ofBytes piece
    | false => exact (delivers_ofBytes piece).lazily
  induction pieces with
  | nil =>
    by_cases heof : e = .eof
    · subst heof
      have hnone : Delivers prompt (ended .eof) [] .eof := ⟨rfl, rfl⟩
      have hlast : Delivers prompt (chain (ended .eof) true r) (bs ++ []) .eof :=
        delivers_chain h hnone fun _ => rfl
      rwa [List.append_nil] at hlast
    · exact delivers_chain_fails h heof
  | cons piece pieces ih =>
    rw [List.map_cons, List.cons_append, multi, List.flatten_cons, List.append_assoc]
    refine delivers_chain (hbytes piece) ih ?_
    intro hempty
    cases pieces with
    | nil | cons => cases hempty

/-- Enough bytes fill the buffer, and the reader goes on behind them. -/
theorem readFull_delivers (h : Delivers prompt r bs e) (got : Bool) {n : Nat}
    (hn : n ≤ bs.length) :
    ∃ r', readFull r got n = .ok (bs.take n, r') ∧ Delivers prompt r' (bs.drop n) e := by
  induction r generalizing bs got n with
  | ended e' =>
    obtain ⟨rfl, rfl⟩ := h
    obtain rfl : n = 0 := by simpa using hn
    exact ⟨ended e', rfl, rfl, rfl⟩
  | reading b er next ih =>
    rcases n with _ | n
    · exact ⟨reading b er next, by rw [readFull]; rfl, h⟩
    · obtain ⟨hle, left, rfl, hmore, hend⟩ := h.2 n
      rw [List.length_append] at hn
      by_cases hfull : n + 1 ≤ (b n).length
      · have hlength : (b n).length = n + 1 := le_antisymm hle hfull
        refine ⟨next n, ?_, ?_⟩
        · rw [readFull, if_pos hfull, List.take_left' hlength]
        · rw [List.drop_left' hlength]
          cases he : er n with
          | none => exact hmore he
          | some e' =>
            obtain ⟨-, rfl, hnext⟩ := hend e' he
            exact hnext
      · cases he : er n with
        | none =>
          obtain ⟨r', hr', hd⟩ := ih n (hmore he) (got || b n ≠ [])
            (show n + 1 - (b n).length ≤ left.length by omega)
          refine ⟨r', ?_, ?_⟩
          · rw [readFull, if_neg hfull, he]
            simp only [hr']
            rw [List.take_append, List.take_of_length_le hle]
          · rw [List.drop_append, List.drop_of_length_le hle, List.nil_append]
            exact hd
        | some e' =>
          -- an error here means that the source had fewer bytes
          obtain ⟨-, rfl, -⟩ := hend e' he
          rw [List.length_nil] at hn
          omega

/-- Too few bytes are an error. -/
theorem readFull_short (h : Delivers prompt r bs e) (got : Bool) {n : Nat} (hn : bs.length < n) :
    ∃ e', readFull r got n = .error e' := by
  induction r generalizing bs got n with
  | ended e' =>
    obtain ⟨n, rfl⟩ : ∃ k, n = k + 1 := ⟨n - 1, by omega⟩
    exact ⟨_, rfl⟩
  | reading b er next ih =>
    obtain ⟨n, rfl⟩ : ∃ k, n = k + 1 := ⟨n - 1, by omega⟩
    obtain ⟨hle, left, rfl, hmore, hend⟩ := h.2 n
    rw [List.length_append] at hn
    rw [readFull, if_neg (by omega)]
    cases he : er n with
    | none =>
      obtain ⟨e', he'⟩ := ih n (hmore he) (got || b n ≠ [])
        (show left.length < n + 1 - (b n).length by omega)
      exact ⟨e', by simp only [he']⟩
    | some e' => exact ⟨_, rfl⟩

/-- What a full buffer says about the source. -/
theorem of_readFull (h : Delivers prompt r bs e) {got : Bool} {n : Nat} {x : GoString × Reader}
    (hread : readFull r got n = .ok x) :
    n ≤ bs.length ∧ x.1 = bs.take n ∧ Delivers prompt x.2 (bs.drop n) e := by
  by_cases hn : n ≤ bs.length
  · obtain ⟨r', hr', hd⟩ := readFull_delivers h got hn
    rw [hread] at hr'
    obtain rfl := Except.ok.inj hr'
    exact ⟨hn, rfl, hd⟩
  · obtain ⟨e', he'⟩ := readFull_short h got (not_le.mp hn)
    cases hread.symm.trans he'

end Reader

end MiniCloud.Lib
