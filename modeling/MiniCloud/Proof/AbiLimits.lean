import MiniCloud.Abi.Codec
import MiniCloud.Proof.StrictJson

/-!
# Limits of the envelope codec

Tightening is the meet of the normalised limits. Every check of the codec is of the form "no more
than the limit", so what is accepted under some limits is accepted under wider ones, with the same
outcome: `Widens` says this of a function of the limits, and follows its body.
-/

namespace MiniCloud.Abi

open Lib Problem

/-! ## The order -/

/-- At most, in every field. -/
structure Limits.Le (l m : Limits) : Prop where
  rawEnvelopeBytes : l.rawEnvelopeBytes ≤ m.rawEnvelopeBytes
  metadataBytes : l.metadataBytes ≤ m.metadataBytes
  bodyBytes : l.bodyBytes ≤ m.bodyBytes
  headerCount : l.headerCount ≤ m.headerCount
  headerBytes : l.headerBytes ≤ m.headerBytes
  headerValueBytes : l.headerValueBytes ≤ m.headerValueBytes
  queryPairs : l.queryPairs ≤ m.queryPairs
  queryBytes : l.queryBytes ≤ m.queryBytes
  jsonDepth : l.jsonDepth ≤ m.jsonDepth
  methodBytes : l.methodBytes ≤ m.methodBytes
  pathBytes : l.pathBytes ≤ m.pathBytes

/-- The limits that `f` gives field by field. -/
def Limits.zip (f : Int → Int → Int) (l m : Limits) : Limits where
  rawEnvelopeBytes := f l.rawEnvelopeBytes m.rawEnvelopeBytes
  metadataBytes := f l.metadataBytes m.metadataBytes
  bodyBytes := f l.bodyBytes m.bodyBytes
  headerCount := f l.headerCount m.headerCount
  headerBytes := f l.headerBytes m.headerBytes
  headerValueBytes := f l.headerValueBytes m.headerValueBytes
  queryPairs := f l.queryPairs m.queryPairs
  queryBytes := f l.queryBytes m.queryBytes
  jsonDepth := f l.jsonDepth m.jsonDepth
  methodBytes := f l.methodBytes m.methodBytes
  pathBytes := f l.pathBytes m.pathBytes

def ones : Limits := ⟨1, 1, 1, 1, 1, 1, 1, 1, 1, 1, 1⟩

/-- Positive, and within the defaults. -/
def Limits.Normal (l : Limits) : Prop := ones.Le l ∧ l.Le defaults

/-- A zero limit is the default. -/
def filled (value default : Int) : Int := if value = 0 then default else value

variable {l m n l' m' n' : Limits}

theorem normalizeLimit_ok {message : GoString} {value default x : Int} :
    normalizeLimit message value default = .ok x ↔
      (1 ≤ x ∧ x ≤ default) ∧ x = filled value default := by
  simp only [normalizeLimit, after_ok, checks_ok, List.forall_mem_cons, List.not_mem_nil,
    false_imp_iff, implies_true, and_true, Bool.or_eq_false_iff, decide_eq_false_iff_not, not_lt]
  constructor
  · rintro ⟨hbounds, hx⟩
    cases hx
    exact ⟨hbounds, rfl⟩
  · rintro ⟨hbounds, rfl⟩
    exact ⟨hbounds, rfl⟩

theorem normalizeLimits_ok : normalizeLimits l = .ok n ↔ n.Normal ∧ n = l.zip filled defaults := by
  simp only [normalizeLimits, bind_ok, normalizeLimit_ok]
  constructor
  · rintro ⟨_, ⟨⟨_, _⟩, rfl⟩, _, ⟨⟨_, _⟩, rfl⟩, _, ⟨⟨_, _⟩, rfl⟩, _, ⟨⟨_, _⟩, rfl⟩, _, ⟨⟨_, _⟩, rfl⟩,
      _, ⟨⟨_, _⟩, rfl⟩, _, ⟨⟨_, _⟩, rfl⟩, _, ⟨⟨_, _⟩, rfl⟩, _, ⟨⟨_, _⟩, rfl⟩, _, ⟨⟨_, _⟩, rfl⟩, _,
      ⟨⟨_, _⟩, rfl⟩, heq⟩
    cases heq
    exact ⟨⟨by constructor <;> assumption, by constructor <;> assumption⟩, rfl⟩
  · rintro ⟨⟨hlow, hhigh⟩, rfl⟩
    exact ⟨_, ⟨⟨hlow.1, hhigh.1⟩, rfl⟩, _, ⟨⟨hlow.2, hhigh.2⟩, rfl⟩, _, ⟨⟨hlow.3, hhigh.3⟩, rfl⟩,
      _, ⟨⟨hlow.4, hhigh.4⟩, rfl⟩, _, ⟨⟨hlow.5, hhigh.5⟩, rfl⟩, _, ⟨⟨hlow.6, hhigh.6⟩, rfl⟩,
      _, ⟨⟨hlow.7, hhigh.7⟩, rfl⟩, _, ⟨⟨hlow.8, hhigh.8⟩, rfl⟩, _, ⟨⟨hlow.9, hhigh.9⟩, rfl⟩,
      _, ⟨⟨hlow.10, hhigh.10⟩, rfl⟩, _, ⟨⟨hlow.11, hhigh.11⟩, rfl⟩, rfl⟩

theorem filled_of_pos {value : Int} (default : Int) (h : 1 ≤ value) :
    filled value default = value :=
  if_neg (by omega)

/-- Normalising again changes nothing. -/
theorem Limits.Normal.fixed (h : n.Normal) : normalizeLimits n = .ok n := by
  have hlow := h.1
  rw [normalizeLimits_ok]
  refine ⟨h, ?_⟩
  rw [Limits.zip, filled_of_pos _ hlow.1, filled_of_pos _ hlow.2, filled_of_pos _ hlow.3,
    filled_of_pos _ hlow.4, filled_of_pos _ hlow.5, filled_of_pos _ hlow.6, filled_of_pos _ hlow.7,
    filled_of_pos _ hlow.8, filled_of_pos _ hlow.9, filled_of_pos _ hlow.10,
    filled_of_pos _ hlow.11]

theorem tighten_ok (hl : normalizeLimits l = .ok l') (hm : normalizeLimits m = .ok m') :
    l.tighten m = .ok (l'.zip min m') := by
  rw [Limits.tighten, hl, hm]
  rfl

theorem Limits.Le.trans (hl : l.Le m) (hm : m.Le n) : l.Le n := by
  cases hl
  cases hm
  constructor <;> apply le_trans <;> assumption

/-- What is at most both is at most the meet. -/
theorem Limits.Le.meet (hl : n.Le l) (hm : n.Le m) : n.Le (l.zip min m) := by
  cases hl
  cases hm
  constructor <;> apply le_min <;> assumption

theorem Limits.meet_left (l m : Limits) : (l.zip min m).Le l := by
  constructor <;> exact min_le_left _ _

theorem Limits.meet_right (l m : Limits) : (l.zip min m).Le m := by
  constructor <;> exact min_le_right _ _

theorem Limits.Normal.meet (hl : l.Normal) (hm : m.Normal) : (l.zip min m).Normal :=
  ⟨hl.1.meet hm.1, (Limits.meet_left l m).trans hl.2⟩

theorem meet_comm (l m : Limits) : l.zip min m = m.zip min l := by
  simp only [Limits.zip, min_comm]

theorem meet_assoc (l m n : Limits) : (l.zip min m).zip min n = l.zip min (m.zip min n) := by
  simp only [Limits.zip, min_assoc]

theorem meet_self (l : Limits) : l.zip min l = l := by
  simp only [Limits.zip, min_self]

/-! ## Wider limits accept more -/

/-- Under wider limits, `f` still accepts, with the same outcome. -/
def Widens {α : Type} (f : Limits → Except GoError α) : Prop :=
  ∀ l m, l.Le m → ∀ x, f l = .ok x → f m = .ok x

namespace Widens

variable {α β : Type}

theorem const (r : Except GoError α) : Widens fun _ => r := fun _ _ _ _ h => h

theorem bind {f : Limits → Except GoError α} {g : α → Limits → Except GoError β} (hf : Widens f)
    (hg : ∀ x, Widens (g x)) : Widens fun l => f l >>= fun x => g x l := by
  intro l m hle y h
  obtain ⟨x, hx, hy⟩ := bind_ok.mp h
  exact bind_ok.mpr ⟨x, hf l m hle x hx, hg x l m hle y hy⟩

theorem wrapped {f : Limits → Except GoError α} (context : GoString) (hf : Widens f) :
    Widens fun l => wrapping context (f l) :=
  fun l m hle x h => wrapping_ok.mpr (hf l m hle x (wrapping_ok.mp h))

/-- Checks that each pass under wider limits. -/
theorem checked {cs : Limits → List (Check GoError)}
    (h : ∀ l m, l.Le m → (∀ c ∈ cs l, c.fails = false) → ∀ c ∈ cs m, c.fails = false) :
    Widens fun l => checks (cs l) :=
  fun l m hle _ hx => checks_ok.mpr (h l m hle (checks_ok.mp hx))

end Widens

/-- A size that is checked against a limit, after checks that have no limit. -/
theorem Widens.bounded {bad : List (Check GoError)} {err : GoError} {size : Int}
    {limit : Limits → Int} (h : ∀ l m, l.Le m → limit l ≤ limit m) :
    Widens fun l => checks (bad ++ [⟨limit l < size, err⟩]) := by
  refine .checked fun l m hle => ?_
  simp only [List.forall_mem_append, List.forall_mem_cons, decide_eq_false_iff_not, not_lt]
  rintro ⟨hbad, hsize, hnil⟩
  exact ⟨hbad, hsize.trans (h l m hle), hnil⟩

theorem widens_validatePath (value : GoString) :
    Widens fun l => validatePath value l.pathBytes := by
  refine .bind (.checked fun l m hle => ?_) fun _ => .const _
  simp only [List.forall_mem_cons, Bool.or_eq_false_iff, decide_eq_false_iff_not, not_lt]
  rintro ⟨⟨⟨hstart, hsize⟩, hutf⟩, hrest⟩
  exact ⟨⟨⟨hstart, hsize.trans hle.pathBytes⟩, hutf⟩, hrest⟩

theorem widens_validateQuery (query : Fields) : Widens fun l => validateQuery query l := by
  refine .bind (.const _) fun query => .bind (.const _) fun total => .checked fun l m hle => ?_
  simp only [List.forall_mem_cons, Bool.or_eq_false_iff, decide_eq_false_iff_not, not_lt]
  rintro ⟨⟨hpairs, hbytes⟩, hnil⟩
  exact ⟨⟨hpairs.trans hle.queryPairs, hbytes.trans hle.queryBytes⟩, hnil⟩

theorem widens_headerValue (value : GoString) : Widens fun l => headerValue l value :=
  @Widens.bounded [_] _ _ _ fun _ _ hle => hle.headerValueBytes

theorem widens_headerEntries (entries : List (GoString × Option (List GoString)))
    (normalized : GoMap GoString (Option (List GoString))) (total : Nat) :
    Widens fun l => headerEntries l entries normalized total := by
  induction entries generalizing normalized total with
  | nil => exact .const _
  | cons entry rest ih =>
    refine .bind (.const _) fun _ => .bind (.const _) fun _ => .bind (.const _) fun values => ?_
    refine .bind ?_ fun _ => ih _ _
    intro l m hle x hx
    rw [checkAll_ok] at hx ⊢
    exact fun value hvalue => widens_headerValue value l m hle () (hx value hvalue)

theorem widens_normalizeHeaders (fields : Fields) :
    Widens fun l => normalizeHeaders fields l := by
  refine .bind (.const _) fun fields => .bind (widens_headerEntries _ _ _) fun total => ?_
  refine .bind (.checked fun l m hle => ?_) fun _ => .const _
  simp only [List.forall_mem_cons, Bool.or_eq_false_iff, decide_eq_false_iff_not, not_lt]
  rintro ⟨⟨hcount, hbytes⟩, hnil⟩
  exact ⟨⟨hcount.trans hle.headerCount, hbytes.trans hle.headerBytes⟩, hnil⟩

theorem widens_validateMetadataSize (metadata : Json Json.Num) :
    Widens fun l => validateMetadataSize metadata l.metadataBytes :=
  @Widens.bounded [] _ _ _ fun _ _ hle => hle.metadataBytes

theorem widens_normalizeRequest (request : Request) :
    Widens fun l => normalizeRequest request l := by
  refine .bind (.const _) fun _ => .bind (.checked fun l m hle => ?_) fun _ => ?_
  · simp only [List.forall_mem_cons, Bool.or_eq_false_iff, decide_eq_false_iff_not, not_lt]
    rintro ⟨⟨⟨hempty, hsize⟩, hpattern⟩, hnil⟩
    exact ⟨⟨⟨hempty, hsize.trans hle.methodBytes⟩, hpattern⟩, hnil⟩
  refine .bind (widens_validatePath _) fun _ => ?_
  refine .bind (@Widens.bounded [_] _ _ _ fun _ _ hle => hle.bodyBytes) fun _ => ?_
  refine .bind (.const _) fun _ => .bind (widens_validateQuery _) fun _ => ?_
  refine .bind (widens_normalizeHeaders _) fun headers => ?_
  exact .bind (widens_validateMetadataSize _) fun _ => .const _

theorem widens_validateResponse (response : Response) (requestMethod : GoString) :
    Widens fun l => validateResponse response requestMethod l := by
  refine .bind (.checked fun l m hle => ?_) fun _ => ?_
  · simp only [List.forall_mem_cons, decide_eq_false_iff_not, not_lt]
    rintro ⟨hversion, hstatus, hbody, hrest⟩
    exact ⟨hversion, hstatus, hbody.trans hle.bodyBytes, hrest⟩
  exact .bind (widens_normalizeHeaders _) fun _ => widens_validateMetadataSize _

theorem read_ok {source data : GoString} {maxBytes : Int} :
    StrictJson.read source maxBytes = .ok data ↔
      1 ≤ maxBytes ∧ (source.length : Int) ≤ maxBytes ∧ data = source := by
  rw [StrictJson.read]
  simp only [↓after_ok, checks_ok, List.forall_mem_cons, decide_eq_false_iff_not, not_lt,
    List.length_take, List.not_mem_nil, false_imp_iff, implies_true, and_true]
  refine and_congr_right fun hmax => ?_
  constructor
  · rintro ⟨hsize, hdata⟩
    have hall : source.length ≤ (maxBytes + 1).toNat := by omega
    rw [List.take_of_length_le hall] at hdata
    cases hdata
    exact ⟨by omega, rfl⟩
  · rintro ⟨hsize, rfl⟩
    rw [List.take_of_length_le (by omega)]
    exact ⟨by omega, rfl⟩

theorem widens_readEnvelope (source : GoString) : Widens fun l => readEnvelope source l := by
  refine .bind (.wrapped _ fun l m hle data h => ?_) fun data => ?_
  · rw [read_ok] at h ⊢
    have := hle.rawEnvelopeBytes
    exact ⟨by omega, by omega, h.2.2⟩
  · refine .bind (.wrapped _ fun l m hle _ h => ?_) fun _ => .const _
    obtain ⟨hdepth, hutf, v, hparse, hunique, hheight⟩ := StrictJson.validate_iff.mp h
    have := hle.jsonDepth
    exact StrictJson.validate_iff.mpr ⟨by omega, hutf, v, hparse, hunique, by omega⟩

theorem widens_encodeEnvelope (destination : Writer) (envelope : Json Json.Num) :
    Widens fun l => encodeEnvelope destination envelope l :=
  .bind (@Widens.bounded [] _ _ _ fun _ _ hle => hle.rawEnvelopeBytes) fun _ => .const _

/-- A codec function normalises its limits first. -/
theorem Widens.normalized {α : Type} {f : Limits → Except GoError α} (hf : Widens f)
    (hl : normalizeLimits l = .ok l') (hm : normalizeLimits m = .ok m') (hle : l'.Le m') {x : α}
    (h : (normalizeLimits l >>= f) = .ok x) : (normalizeLimits m >>= f) = .ok x := by
  rw [hl] at h
  rw [hm]
  exact hf l' m' hle x h

/--
**Tightening is a meet, and wider limits accept more.** On limits that normalise, `Tighten` succeeds,
is commutative, associative and idempotent up to normalisation, and gives the greatest limits at
most both; and whatever one of the four codec functions accepts under narrower limits it accepts
under wider ones, with the same result.
-/
theorem tighten_meet (hl : normalizeLimits l = .ok l') (hm : normalizeLimits m = .ok m')
    (hn : normalizeLimits n = .ok n') :
    (∃ t u, l.tighten m = .ok t ∧ m.tighten l = .ok t ∧ m.tighten n = .ok u ∧
      (∃ v, t.tighten n = .ok v ∧ l.tighten u = .ok v) ∧
      normalizeLimits t = .ok t ∧ t.Le l' ∧ t.Le m' ∧ ∀ k : Limits, k.Le l' → k.Le m' → k.Le t) ∧
    l.tighten l = .ok l' ∧
    (l'.Le m' →
      (∀ destination request data, encodeRequest destination request l = .ok data →
        encodeRequest destination request m = .ok data) ∧
      (∀ destination response method data, encodeResponse destination response method l = .ok data →
        encodeResponse destination response method m = .ok data) ∧
      (∀ source request, decodeRequest source l = .ok request →
        decodeRequest source m = .ok request) ∧
      ∀ source method response, decodeResponse source method l = .ok response →
        decodeResponse source method m = .ok response) := by
  have hnormal := fun {l n} (h : normalizeLimits l = .ok n) => (normalizeLimits_ok.mp h).1
  have ht := ((hnormal hl).meet (hnormal hm)).fixed
  have hu := ((hnormal hm).meet (hnormal hn)).fixed
  refine ⟨⟨l'.zip min m', m'.zip min n', tighten_ok hl hm, ?_, tighten_ok hm hn, ?_, ht,
    Limits.meet_left .., Limits.meet_right .., fun k hkl hkm => hkl.meet hkm⟩, ?_, fun hle => ?_⟩
  · rw [tighten_ok hm hl, meet_comm]
  · exact ⟨_, tighten_ok ht hn, by rw [tighten_ok hl hu, meet_assoc]⟩
  · rw [tighten_ok hl hl, meet_self]
  refine ⟨fun destination request data => ?_, fun destination response method data => ?_,
    fun source request => ?_, fun source method response => ?_⟩
  · exact Widens.normalized (.bind (widens_normalizeRequest _) fun _ => widens_encodeEnvelope _ _)
      hl hm hle
  · exact Widens.normalized (.bind (widens_validateResponse _ _) fun _ =>
      widens_encodeEnvelope _ _) hl hm hle
  · exact Widens.normalized (.bind (widens_readEnvelope _) fun _ => .bind (.const _) fun _ =>
      widens_normalizeRequest _) hl hm hle
  · exact Widens.normalized (.bind (widens_readEnvelope _) fun _ => .bind (.const _) fun _ =>
      .bind (widens_validateResponse _ _) fun _ => .const _) hl hm hle

def sampleRequest (method : GoString) : Request where
  specVersion := version
  invocationID := "i"
  method := method
  path := "/"
  query := some ∅
  headers := some ∅
  body := []
  deadlineUnixMS := 1
  trigger := ⟨"http", "t", 1, [], [], [], [], [], [], [], []⟩

def shortMethods : Limits := { defaults with methodBytes := 4 }

def shortPaths : Limits := { defaults with methodBytes := 8, pathBytes := 64 }

/-- The destination that takes every byte. -/
def sampleWriter : Writer := fun data => .ok data.length

theorem sampleRequest_encoded :
    (encodeRequest sampleWriter (sampleRequest "post") shortMethods).isOk = true ∧
      (encodeRequest sampleWriter (sampleRequest "poſt") shortMethods).isOk = true := by
  decide +kernel

theorem sampleRequest_passes : ∃ data,
    encodeRequest sampleWriter (sampleRequest "post") shortMethods = .ok data := by
  cases hdata : encodeRequest sampleWriter (sampleRequest "post") shortMethods with
  | ok data => exact ⟨data, rfl⟩
  | error e =>
    have hok := sampleRequest_encoded.1
    rw [hdata] at hok
    cases hok

/-- The meet of two limits of which neither is below the other, and a request that passes under the
one and so under a wider one. -/
theorem tighten_meet_sample :
    (∃ t, shortMethods.tighten shortPaths = .ok t ∧ shortPaths.tighten shortMethods = .ok t ∧
      t.methodBytes ≤ 4 ∧ t.pathBytes ≤ 64) ∧
    ∃ data, encodeRequest sampleWriter (sampleRequest "post") shortMethods = .ok data ∧
      encodeRequest sampleWriter (sampleRequest "post") { defaults with methodBytes := 8 } =
        .ok data := by
  have hmethods : normalizeLimits shortMethods = .ok shortMethods := rfl
  have hpaths : normalizeLimits shortPaths = .ok shortPaths := rfl
  have hwide : normalizeLimits { defaults with methodBytes := 8 } =
      .ok { defaults with methodBytes := 8 } := rfl
  constructor
  · obtain ⟨t, -, ht, hcomm, -, -, -, hleft, hright, -⟩ :=
      (tighten_meet hmethods hpaths hwide).1
    exact ⟨t, ht, hcomm, hleft.methodBytes, hright.pathBytes⟩
  · obtain ⟨data, hdata⟩ := sampleRequest_passes
    refine ⟨data, hdata, ((tighten_meet hmethods hwide hpaths).2.2 ?_).1 _ _ _ hdata⟩
    constructor <;> decide

/-! ## Methods -/

/-- The runes whose upper case is `I` and `S`. -/
def dotlessI : GoString := [0xC4, 0xB1]

def longS : GoString := [0xC5, 0xBF]

/-- `result` is a method within the limit, and `given` the same up to the case of ASCII letters. -/
structure RealMethod (limits : Limits) (given result : GoString) : Prop where
  tokens : ∀ b ∈ given, isTokenByte b = true
  size : (given.length : Int) ≤ limits.methodBytes
  upper : result = given.map Text.upperByte

theorem upperFrom_eq {s : GoString} (hi : ¬ dotlessI <:+: s) (hs : ¬ longS <:+: s) :
    upperFrom 0 s = s.map Text.upperByte := by
  induction s with
  | nil => rfl
  | cons b rest ih =>
    rw [upperFrom, if_neg, if_neg, ih, List.map_cons]
    · exact fun h => hi (h.trans (List.suffix_cons b rest).isInfix)
    · exact fun h => hs (h.trans (List.suffix_cons b rest).isInfix)
    · rintro ⟨rfl, htake⟩
      refine hs (List.IsPrefix.isInfix ?_)
      rw [longS, List.cons_prefix_cons]
      exact ⟨rfl, htake ▸ List.take_prefix 1 rest⟩
    · rintro ⟨rfl, htake⟩
      refine hi (List.IsPrefix.isInfix ?_)
      rw [dotlessI, List.cons_prefix_cons]
      exact ⟨rfl, htake ▸ List.take_prefix 1 rest⟩

theorem isTokenByte_upperByte {b : UInt8} (h : isTokenByte (Text.upperByte b) = true) :
    isTokenByte b = true := by
  rw [Text.upperByte] at h
  split_ifs at h with hlower
  · rw [isTokenByte, Text.isLetter, hlower]
    rfl
  · exact h

theorem normalizeRequest_method {request result : Request} {limits : Limits}
    (h : normalizeRequest request limits = .ok result) :
    result.method = toUpper request.method ∧
      ((toUpper request.method).length : Int) ≤ limits.methodBytes ∧
      ∀ b ∈ toUpper request.method, isTokenByte b = true := by
  rw [normalizeRequest] at h
  simp only [bind_ok, ↓after_ok, checks_ok, List.forall_mem_cons, Bool.or_eq_false_iff,
    decide_eq_false_iff_not, not_lt, Bool.not_eq_false', headerNamePattern, Bool.and_eq_true] at h
  obtain ⟨-, ⟨⟨⟨-, hsize⟩, -, htokens⟩, -⟩, -, -, -, -, headers, -, -, hresult⟩ := h
  cases hresult
  exact ⟨rfl, hsize, List.all_eq_true.mp htokens⟩

theorem realMethod_iff {request result : Request} {limits : Limits}
    (h : normalizeRequest request limits = .ok result) :
    RealMethod limits request.method result.method ↔
      ¬ dotlessI <:+: request.method ∧ ¬ longS <:+: request.method := by
  obtain ⟨hmethod, hsize, htokens⟩ := normalizeRequest_method h
  constructor
  · intro hreal
    refine ⟨fun hi => ?_, fun hs => ?_⟩
    · exact absurd (hreal.tokens 0xC4 (hi.subset (by decide))) (by decide)
    · exact absurd (hreal.tokens 0xC5 (hs.subset (by decide))) (by decide)
  · rintro ⟨hi, hs⟩
    have hupper : toUpper request.method = request.method.map Text.upperByte := upperFrom_eq hi hs
    rw [hupper] at hmethod hsize htokens
    refine ⟨fun b hb => ?_, by simpa using hsize, hmethod⟩
    exact isTokenByte_upperByte (htokens _ (List.mem_map_of_mem hb))

/--
**Only real methods pass**, but for the two runes that upper-case into ASCII. The method that is
given, to the encoder or inside the bytes that are decoded, is one within the limit, and the result
has it up to ASCII case, exactly when it holds neither of them.
-/
theorem envelope_method (l : Limits) :
    (∀ destination request data, encodeRequest destination request l = .ok data →
      ∃ limits result, normalizeLimits l = .ok limits ∧
        normalizeRequest request limits = .ok result ∧ data = result.toJSON.marshal ∧
        (RealMethod limits request.method result.method ↔
          ¬ dotlessI <:+: request.method ∧ ¬ longS <:+: request.method)) ∧
    (∀ source result, decodeRequest source l = .ok result →
      ∃ limits given, normalizeLimits l = .ok limits ∧ unmarshalRequest source = .ok given ∧
        (RealMethod limits given.method result.method ↔
          ¬ dotlessI <:+: given.method ∧ ¬ longS <:+: given.method)) := by
  constructor
  · intro destination request data h
    rw [encodeRequest] at h
    simp only [bind_ok] at h
    obtain ⟨limits, hlimits, result, hresult, hdata⟩ := h
    rw [encodeEnvelope] at hdata
    simp only [bind_ok, ↓after_ok] at hdata
    obtain ⟨-, written, -, -, hdata⟩ := hdata
    cases hdata
    exact ⟨limits, result, hlimits, hresult, rfl, realMethod_iff hresult⟩
  · intro source result h
    rw [decodeRequest] at h
    simp only [bind_ok, wrapping_ok, readEnvelope, ↓after_ok, read_ok] at h
    obtain ⟨limits, hlimits, data, ⟨read, ⟨-, -, rfl⟩, -, hdata⟩, given, hgiven, hresult⟩ := h
    cases hdata
    exact ⟨limits, given, hlimits, hgiven, realMethod_iff hresult⟩

theorem envelope_method_sample :
    ∃ data limits result,
      encodeRequest sampleWriter (sampleRequest "post") shortMethods = .ok data ∧
      normalizeLimits shortMethods = .ok limits ∧ RealMethod limits "post" result := by
  obtain ⟨data, hdata⟩ := sampleRequest_passes
  obtain ⟨limits, result, hlimits, -, -, hreal⟩ :=
    (envelope_method shortMethods).1 _ _ _ hdata
  exact ⟨data, limits, result.method, hdata, hlimits, hreal.mpr ⟨by decide, by decide⟩⟩

/-- `poſt` passes: five bytes where four are allowed, two of them outside ASCII. -/
theorem envelope_method_folds :
    (encodeRequest sampleWriter (sampleRequest "poſt") shortMethods).isOk = true ∧
      normalizeLimits shortMethods = .ok shortMethods ∧
      ∀ result, ¬ RealMethod shortMethods "poſt" result :=
  ⟨sampleRequest_encoded.2, rfl, fun _ h => absurd h.size (by decide)⟩

end MiniCloud.Abi
