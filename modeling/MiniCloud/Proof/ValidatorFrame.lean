import MiniCloud.Lib.Json.MarshalParse
import MiniCloud.Proof.StrictJson
import MiniCloud.Validator.Frame

/-!
# The frame codec

The writer and the reader of a frame meet at `Framed`, the shape of a frame as bytes. A source that
delivers such bytes is accepted, however it cuts them into pieces, and nothing else is; the header
announces the length of everything behind it, so no frame is a part of another one.
-/

namespace MiniCloud.Validator

open Lib Problem Digest Model

variable {r request : Request} {artifact bs : GoString} {source : Reader} {frame : RequestFrame}
  {prompt : Bool} {maxArtifactBytes : Int} {e : ReadError}

/-! ## The header -/

theorem decodeStruct_capability (c : CapabilityRequest) :
    Json.decodeStruct capabilityFields (capabilityJSON c) ⟨[], []⟩ = some c := by
  have hnames : (capabilityFields.map (·.name)).Nodup := by decide +kernel
  exact Json.decodeMembers_zip hnames [.str c.name, .str c.version] ⟨[], []⟩

/-- The size of a valid request is a machine integer. -/
theorem Request.size_bounds (h : r.validate = .ok ()) :
    1 ≤ r.artifactSize ∧ r.artifactSize ≤ hardArtifactBytes := by
  rw [Request.validate, checks_ok] at h
  have hsize := h ⟨r.artifactSize < 1 || hardArtifactBytes < r.artifactSize,
    .text "validator protocol: invalid artifact size"⟩ (by simp)
  simp only [Bool.or_eq_false_iff, decide_eq_false_iff_not, not_lt] at hsize
  exact hsize

/-- Every field of a valid request is read back. -/
theorem decodeStruct_request (h : r.validate = .ok ()) :
    Json.decodeStruct requestFields r.toJSON zeroRequest = some r := by
  have hnames : (requestFields.map (·.name)).Nodup := by decide +kernel
  obtain ⟨hlo, hhi⟩ := r.size_bounds h
  have hcaps : ∃ cs, r.requestedCapabilities = some cs := by
    rw [Request.validate, checks_ok] at h
    have hnone := h ⟨r.requestedCapabilities.isNone,
      .text "validator protocol: requested capabilities must be an array"⟩ (by simp)
    exact Option.isSome_iff_exists.mp (by simpa using hnone)
  obtain ⟨cs, hcs⟩ := hcaps
  have hdecode := Json.decodeMembers_zip hnames [
    .str r.schemaVersion, .str r.validationID, .str r.artifactDigest, .ofInt r.artifactSize,
    .str r.abi, .str r.hostAPIProfile, .str r.runtimeFeatureProfile, .str r.runtimeEngine,
    .ofNat r.memoryLimitMiB.toNat, .arr (cs.map capabilityJSON)] zeroRequest
  have hsize := Json.decodeInt64_ofInt (n := r.artifactSize) (by omega)
    (by rw [hardArtifactBytes] at hhi; omega)
  have hitems := Json.decodeItems_map (l := cs) fun c _ => decodeStruct_capability c
  have hmemory : ∀ old, Json.decodeUint 32 (.ofNat r.memoryLimitMiB.toNat) old =
      some r.memoryLimitMiB.toNat := Json.decodeUint_ofNat r.memoryLimitMiB.toNat_lt
  rw [Request.toJSON, hcs]
  refine hdecode.trans ?_
  simp only [requestFields, Json.Field.of, List.zip_cons_cons, List.zip_nil_left,
    List.foldlM_cons, List.foldlM_nil, Json.decodeString, hsize, hmemory, Json.decodeSlice,
    Option.map_some, Option.bind_eq_bind, Option.bind_some, zeroRequest, Option.getD_none, hitems]
  rw [UInt32.ofNat_toNat, ← hcs]
  rfl

/-- The capabilities are the only texts that no check bounds. -/
def CapabilitiesValid (r : Request) : Prop :=
  ∀ cs, r.requestedCapabilities = some cs →
    ∀ c ∈ cs, Text.validUTF8 c.name = true ∧ Text.validUTF8 c.version = true

theorem mapStrings_capabilities {cs : List CapabilityRequest}
    (h : ∀ c ∈ cs, Text.validUTF8 c.name = true ∧ Text.validUTF8 c.version = true) :
    Json.mapStringsItems Text.sanitize (cs.map capabilityJSON) = cs.map capabilityJSON := by
  induction cs with
  | nil => rfl
  | cons c cs ih =>
    obtain ⟨hname, hversion⟩ := h c List.mem_cons_self
    rw [List.map_cons, Json.mapStringsItems, ih fun c' hc' => h c' (List.mem_cons_of_mem c hc')]
    simp only [capabilityJSON, Json.mapStrings, Json.mapStringsMembers,
      Text.sanitize_valid hname, Text.sanitize_valid hversion]
    rfl

theorem validUTF8_id {s : GoString} (h : validationIDPattern s = true) :
    Text.validUTF8 s = true := by
  have hbyte : ∀ b, isIdByte b = true → b < 0x80 := Text.forall_byte (by decide +kernel)
  simp only [validationIDPattern, Text.matchClass, Bool.and_eq_true] at h
  exact Text.validUTF8_ascii fun b hb => hbyte b (List.all_eq_true.mp h.2 b hb)

theorem validUTF8_digest {d : SHA256} (h : encodedPattern d = true) : Text.validUTF8 d = true := by
  have hbyte : ∀ b, Text.isLowerHex b = true → b < 0x80 := Text.forall_byte (by decide +kernel)
  simp only [encodedPattern, Text.matchClass, Bool.and_eq_true, beq_iff_eq] at h
  refine Text.validUTF8_ascii fun b hb => ?_
  rw [← List.take_append_drop 7 d, List.mem_append] at hb
  rcases hb with hb | hb
  · rw [h.1] at hb
    exact (show ∀ b ∈ scheme, b < 0x80 by decide +kernel) b hb
  · exact hbyte b (List.all_eq_true.mp h.2.2 b hb)

/-- Every text of a valid request survives the encoder. -/
theorem mapStrings_request (h : r.validate = .ok ()) (hcaps : CapabilitiesValid r) :
    Json.mapStrings Text.sanitize r.toJSON = r.toJSON := by
  rw [Request.validate, checks_ok] at h
  simp only [List.forall_mem_cons, bne_eq_false_iff_eq, Bool.not_eq_false'] at h
  obtain ⟨hschema, hid, hdigest, -, habi, hhost, hprofile, hengine, -, hsome, -⟩ := h
  have hengine : Text.sanitize r.runtimeEngine = r.runtimeEngine := by
    simp only [Bool.and_eq_false_iff, bne_eq_false_iff_eq] at hengine
    rcases hengine with hengine | hengine
    all_goals
      rw [hengine]
      decide +kernel
  obtain ⟨cs, hcs⟩ := Option.isSome_iff_exists.mp (show r.requestedCapabilities.isSome = true by
    simpa using hsome)
  simp only [Request.toJSON, Json.mapStrings, Json.mapStringsMembers, Json.ofInt, Json.ofNat, hcs,
    Json.ofOption, mapStrings_capabilities (hcaps cs hcs), hschema, habi, hhost, hprofile, hengine,
    Text.sanitize_valid (validUTF8_id hid), Text.sanitize_valid (validUTF8_digest hdigest)]
  rfl

theorem height_capabilities (cs : List CapabilityRequest) :
    Json.heightItems (cs.map capabilityJSON) ≤ 1 := by
  induction cs with
  | nil => exact Nat.zero_le _
  | cons c cs ih =>
    rw [List.map_cons, Json.heightItems]
    exact max_le le_rfl ih

theorem height_request (r : Request) : Json.height r.toJSON ≤ 3 := by
  have hcaps : Json.height (.ofOption (fun cs => .arr (cs.map capabilityJSON))
      r.requestedCapabilities) ≤ 2 := by
    cases r.requestedCapabilities with
    | none => exact Nat.zero_le _
    | some cs =>
      simp only [Json.ofOption, Json.height]
      have := height_capabilities cs
      omega
  simp only [Request.toJSON, Json.height, Json.heightMembers, Json.ofInt, Json.ofNat]
  omega

theorem unique_capability (c : CapabilityRequest) : Json.Unique (capabilityJSON c) := by
  refine ⟨?_, trivial, trivial, trivial⟩
  simp only [List.map_cons, List.map_nil]
  decide +kernel

theorem unique_request (r : Request) : Json.Unique r.toJSON := by
  refine ⟨?_, trivial, trivial, trivial, trivial, trivial, trivial, trivial, trivial, trivial, ?_,
    trivial⟩
  · simp only [List.map_cons, List.map_nil]
    decide +kernel
  · cases r.requestedCapabilities with
    | none => trivial
    | some cs =>
      refine Json.uniqueItems_iff.mpr fun v hv => ?_
      obtain ⟨c, -, rfl⟩ := List.mem_map.mp hv
      exact unique_capability c

theorem nums_request (r : Request) : r.toJSON.Nums Json.Num.WF := by
  refine ⟨trivial, trivial, trivial, Json.wf_decimal _ _, trivial, trivial, trivial, trivial,
    Json.wf_decimal _ _, ?_, trivial⟩
  cases r.requestedCapabilities with
  | none => trivial
  | some cs =>
    refine Json.numsItems_iff.mpr fun v hv => ?_
    obtain ⟨c, -, rfl⟩ := List.mem_map.mp hv
    exact ⟨trivial, trivial, trivial⟩

/-- **The header of a valid request is read back as that request.** -/
theorem decodeHeader_marshal (h : r.validate = .ok ()) (hcaps : CapabilitiesValid r) :
    decodeHeader r.toJSON.marshal = .ok r := by
  have hparse : Json.parse .replace r.toJSON.marshal = some r.toJSON := by
    rw [Json.parse_marshal _ (nums_request r), mapStrings_request h hcaps]
  have hheight := height_request r
  have hstrict : StrictJson.validate r.toJSON.marshal 16 = .ok () :=
    StrictJson.validate_iff.mpr ⟨by decide, Json.validUTF8_marshal _ (nums_request r),
      r.toJSON, hparse, unique_request r, by omega⟩
  rw [decodeHeader, hstrict, hparse, Option.bind_some, decodeStruct_request h]
  rfl

/-! ## The shape of a frame -/

/-- A frame: the request its header announces and the artifact behind it. -/
structure Framed (bs header : GoString) (request : Request) (artifact : GoString) : Prop where
  bytes : bs = frameMagic ++ bigEndian 4 header.length ++ header ++ artifact
  header_pos : 0 < header.length
  header_le : header.length ≤ maxHeaderBytes
  decoded : decodeHeader header = .ok request
  valid : request.validate = .ok ()
  size : (artifact.length : Int) = request.artifactSize
  digest : sum artifact = request.artifactDigest

theorem readPart_ok {context : GoString} {size : Nat} {x : GoString × Reader} :
    readPart context source size = .ok x ↔ source.readFull false size = .ok x := by
  unfold readPart
  cases source.readFull false size with
  | error e => exact ⟨fun h => (by cases h), fun h => (by cases h)⟩
  | ok y =>
    constructor
    · intro h
      exact congrArg Except.ok (Except.ok.inj h)
    · intro h
      exact congrArg Except.ok (Except.ok.inj h)

/-- The tests of `ReadRequest`, one after another. -/
theorem readRequest_ok :
    readRequest source maxArtifactBytes = .ok (request, artifact) ↔
      (1 ≤ artifactLimit maxArtifactBytes ∧
        artifactLimit maxArtifactBytes ≤ hardArtifactBytes) ∧
      ∃ start, source.readFull false frameStart = .ok start ∧
        start.1.take frameMagic.length = frameMagic ∧
        0 < ofBigEndian (start.1.drop frameMagic.length) ∧
        ofBigEndian (start.1.drop frameMagic.length) ≤ maxHeaderBytes ∧
      ∃ header, start.2.readFull false (ofBigEndian (start.1.drop frameMagic.length)) =
          .ok header ∧
        decodeHeader header.1 = .ok request ∧ request.validate = .ok () ∧
        request.artifactSize ≤ artifactLimit maxArtifactBytes ∧
      ∃ tail, header.2.readFull false request.artifactSize.toNat = .ok (artifact, tail) ∧
        tail.bytes 0 = [] ∧ tail.err 0 = some .eof ∧ sum artifact = request.artifactDigest := by
  unfold readRequest
  simp only [bind_ok, checks_ok, readPart_ok, List.forall_mem_cons, List.not_mem_nil,
    IsEmpty.forall_iff, implies_true, and_true, Bool.or_eq_false_iff,
    decide_eq_false_iff_not, not_lt, bne_eq_false_iff_eq, pure, Except.pure, Except.ok.injEq,
    Prod.mk.injEq, Unique.exists_iff, PUnit.default_eq_unit]
  constructor
  · rintro ⟨hlimit, start, hstart, ⟨hmagic, hpos, hle⟩, header, hheader, request', hdecode,
      hvalid, hsize, ⟨artifact', tail⟩, htail, ⟨⟨hempty, hend⟩, hdigest⟩, rfl, rfl⟩
    exact ⟨hlimit, start, hstart, hmagic, Nat.pos_of_ne_zero hpos, hle, header, hheader, hdecode,
      hvalid, hsize, tail, htail, hempty, hend, hdigest⟩
  · rintro ⟨hlimit, start, hstart, hmagic, hpos, hle, header, hheader, hdecode, hvalid, hsize, tail,
      htail, hempty, hend, hdigest⟩
    exact ⟨hlimit, start, hstart, ⟨hmagic, hpos.ne', hle⟩, header, hheader, request, hdecode,
      hvalid, hsize, (artifact, tail), htail, ⟨⟨hempty, hend⟩, hdigest⟩, rfl, rfl⟩

/-- What is accepted is a frame, and its source ends where the frame does. -/
theorem framed_of_readRequest (h : source.Delivers prompt bs e)
    (hread : readRequest source maxArtifactBytes = .ok (request, artifact)) :
    e = .eof ∧ ∃ header, Framed bs header request artifact := by
  obtain ⟨-, start, hstart, hmagic, hpos, hle, header, hheader, hdecode, hvalid, -, tail, htail,
    hempty, hend, hdigest⟩ := readRequest_ok.mp hread
  obtain ⟨hlo, -⟩ := request.size_bounds hvalid
  obtain ⟨hstartLe, hstartTake, hafterStart⟩ := Reader.of_readFull h hstart
  obtain ⟨hheaderLe, hheaderTake, hafterHeader⟩ := Reader.of_readFull hafterStart hheader
  obtain ⟨hartifactLe, hartifactTake, hafterArtifact⟩ := Reader.of_readFull hafterHeader htail
  dsimp only at hartifactTake hafterArtifact
  -- the last read found nothing and the end, so nothing is left to be delivered
  obtain ⟨-, rest, hrest, -, hlast⟩ := hafterArtifact.read 0
  obtain ⟨rfl, rfl, -⟩ := hlast _ hend
  rw [hempty, List.append_nil] at hrest
  have hstartLength : start.1.length = frameStart := by
    rw [hstartTake, List.length_take]
    omega
  have hsizeLength : (start.1.drop frameMagic.length).length = 4 := by
    rw [List.length_drop, hstartLength]
    rfl
  have hheaderLength : header.1.length = ofBigEndian (start.1.drop frameMagic.length) := by
    rw [hheaderTake, List.length_take]
    omega
  have hartifactLength : artifact.length = request.artifactSize.toNat := by
    rw [hartifactTake, List.length_take]
    omega
  refine ⟨rfl, header.1, ?_, by omega, by omega, hdecode, hvalid, by omega, hdigest⟩
  have hstartEq : start.1 = frameMagic ++ start.1.drop frameMagic.length := by
    conv_lhs => rw [← List.take_append_drop frameMagic.length start.1, hmagic]
  calc bs = start.1 ++ (header.1 ++ (artifact ++ [])) := by
        rw [← hrest, hartifactTake, List.take_append_drop, hheaderTake, List.take_append_drop,
          hstartTake, List.take_append_drop]
    _ = frameMagic ++ bigEndian 4 header.1.length ++ header.1 ++ artifact := by
        rw [hheaderLength, ← hsizeLength, bigEndian_ofBigEndian, ← hstartEq, List.append_nil,
          List.append_assoc]

/-- A frame is accepted from every source that delivers it. -/
theorem readRequest_of_framed {header : GoString} (h : source.Delivers true bs .eof)
    (hframed : Framed bs header request artifact) (hlo : 1 ≤ artifactLimit maxArtifactBytes)
    (hhi : artifactLimit maxArtifactBytes ≤ hardArtifactBytes)
    (hfits : request.artifactSize ≤ artifactLimit maxArtifactBytes) :
    readRequest source maxArtifactBytes = .ok (request, artifact) := by
  obtain ⟨rfl, hpos, hle, hdecode, hvalid, hsize, hdigest⟩ := hframed
  have hstartLength : (frameMagic ++ bigEndian 4 header.length).length =
      frameStart := rfl
  have hword : header.length < 256 ^ 4 := lt_of_le_of_lt hle (by decide)
  have hheaderSize : ofBigEndian ((frameMagic ++
      bigEndian 4 header.length).drop frameMagic.length) = header.length := by
    rw [List.drop_left, ofBigEndian_bigEndian hword]
  -- the three reads, each starting where the one before it ended
  obtain ⟨source₁, hread₁, hafter₁⟩ := Reader.readFull_delivers h false (n := frameStart) (by
    rw [List.length_append, List.length_append, hstartLength]
    omega)
  rw [List.append_assoc, List.take_left' hstartLength] at hread₁
  rw [List.append_assoc, List.drop_left' hstartLength] at hafter₁
  obtain ⟨source₂, hread₂, hafter₂⟩ := Reader.readFull_delivers hafter₁ false
    (n := header.length) (by rw [List.length_append]; omega)
  rw [List.take_left] at hread₂
  rw [List.drop_left] at hafter₂
  obtain ⟨source₃, hread₃, hafter₃⟩ := Reader.readFull_delivers hafter₂ false
    (n := request.artifactSize.toNat) (by omega)
  rw [List.take_of_length_le (by omega)] at hread₃
  rw [List.drop_of_length_le (by omega)] at hafter₃
  obtain ⟨hempty, hend⟩ := hafter₃.finished 0
  refine readRequest_ok.mpr ⟨⟨hlo, hhi⟩, _, hread₁, List.take_left, ?_, ?_, (header, source₂), ?_,
    hdecode, hvalid, hfits, source₃, hread₃, hempty, hend, hdigest⟩
  · rw [hheaderSize]
    exact hpos
  · rw [hheaderSize]
    exact hle
  · rw [hheaderSize]
    exact hread₂

/-- Neither of two frames is a proper part of the other. -/
theorem Framed.eq_of_isPrefix {bs' header header' artifact' : GoString} {request' : Request}
    (h : Framed bs header request artifact) (h' : Framed bs' header' request' artifact')
    (hpre : bs <+: bs') : bs = bs' := by
  obtain ⟨tail, htail⟩ := hpre
  have hbytes := h'.bytes
  rw [← htail, h.bytes] at hbytes
  simp only [List.append_assoc, List.append_cancel_left_eq] at hbytes
  -- the lengths of the headers stand at one place, so the headers do too
  obtain ⟨hsize, hbehind⟩ := List.append_inj hbytes rfl
  have hlength : header.length = header'.length := by
    have hword := congrArg ofBigEndian hsize
    have hlt : header.length < 256 ^ 4 := lt_of_le_of_lt h.header_le (by decide)
    have hlt' : header'.length < 256 ^ 4 := lt_of_le_of_lt h'.header_le (by decide)
    rwa [ofBigEndian_bigEndian hlt, ofBigEndian_bigEndian hlt'] at hword
  obtain ⟨rfl, hartifact⟩ := List.append_inj hbehind hlength
  -- one header announces one size
  obtain rfl : request = request' := Except.ok.inj (h.decoded.symm.trans h'.decoded)
  have hartifacts : artifact.length = artifact'.length := by
    have := h.size.trans h'.size.symm
    omega
  have htailLength := congrArg List.length hartifact
  rw [List.length_append] at htailLength
  obtain rfl : tail = [] := List.eq_nil_of_length_eq_zero (by omega)
  rw [← htail, List.append_nil]

/-! ## Streams -/

theorem newRequestReader_ok :
    newRequestReader request = .ok frame ↔ request.validate = .ok () ∧
      request.toJSON.marshal.length ≤ maxHeaderBytes ∧
      frame = ⟨frameMagic ++ bigEndian 4 request.toJSON.marshal.length ++
        request.toJSON.marshal, request.artifactSize⟩ := by
  unfold newRequestReader
  simp only [bind_ok, checks_ok, List.forall_mem_cons, List.not_mem_nil, IsEmpty.forall_iff,
    implies_true, and_true, decide_eq_false_iff_not, not_lt, pure, Except.pure, Except.ok.injEq,
    Unique.exists_iff, PUnit.default_eq_unit]
  constructor
  · rintro ⟨hvalid, hle, rfl⟩
    exact ⟨hvalid, hle, rfl⟩
  · rintro ⟨hvalid, hle, rfl⟩
    exact ⟨hvalid, hle, rfl⟩

/-- The stream delivers what its frame begins with and then what the source contributes. -/
theorem delivers_requestStream (h : (source.exact frame.artifactSize.toNat).Delivers prompt bs e) :
    (requestStream frame source).Delivers prompt (frame.head ++ bs) e := by
  have hstream := Reader.delivers_multi
    [frame.head.take frameStart, frame.head.drop frameStart] h
  rwa [List.flatten_cons, List.flatten_singleton, List.take_append_drop] at hstream

section

variable (h : newRequestReader request = .ok frame)
include h

/-- What the encoder wrote ahead of its artifact is a frame. -/
theorem framed_of_newRequestReader (hcaps : CapabilitiesValid request)
    (hsize : (artifact.length : Int) = request.artifactSize)
    (hdigest : sum artifact = request.artifactDigest) :
    Framed (frame.head ++ artifact) request.toJSON.marshal request artifact := by
  obtain ⟨hvalid, hle, rfl⟩ := newRequestReader_ok.mp h
  refine ⟨rfl, ?_, hle, decodeHeader_marshal hvalid hcaps, hvalid, hsize, hdigest⟩
  exact Nat.succ_pos _

/-- A source that holds enough contributes as many bytes as were announced. -/
theorem requestStream_enough (hsource : source.Delivers prompt bs e)
    (hsize : request.artifactSize ≤ bs.length)
    (hmore : e = .eof ∨ request.artifactSize < bs.length) :
    (requestStream frame source).Delivers true
      (frame.head ++ bs.take request.artifactSize.toNat) .eof := by
  obtain ⟨hvalid, -, rfl⟩ := newRequestReader_ok.mp h
  obtain ⟨hlo, -⟩ := request.size_bounds hvalid
  refine delivers_requestStream (Reader.delivers_exact hsource (by dsimp only; omega) ?_)
  rcases hmore with hmore | hmore
  · exact .inl hmore
  · exact .inr (by dsimp only; omega)

/-- A source that holds too little makes the stream fail. -/
theorem requestStream_short (hsource : source.Delivers prompt bs .eof)
    (hsize : bs.length < request.artifactSize) :
    (requestStream frame source).Delivers false (frame.head ++ bs) .unexpectedEOF := by
  obtain ⟨-, -, rfl⟩ := newRequestReader_ok.mp h
  exact delivers_requestStream (Reader.delivers_exact_short hsource (by dsimp only; omega))

end

/--
**The frame codec.** What the writer streams is read back, however the source cuts the artifact into
pieces; whatever the reader accepts is a frame, and no frame is a proper part of another one; a
longer source is cut off, and a shorter one makes the stream fail.
-/
theorem frame_codec :
    (∀ (request : Request) (source : Reader) (artifact : GoString) (maxArtifactBytes : Int),
      request.validate = .ok () → CapabilitiesValid request →
      request.toJSON.marshal.length ≤ maxHeaderBytes →
      source.Delivers false artifact .eof →
      (artifact.length : Int) = request.artifactSize →
      sum artifact = request.artifactDigest →
      request.artifactSize ≤ artifactLimit maxArtifactBytes →
      artifactLimit maxArtifactBytes ≤ hardArtifactBytes →
      ∃ frame, newRequestReader request = .ok frame ∧
        (requestStream frame source).Delivers true (frame.head ++ artifact) .eof ∧
        readRequest (requestStream frame source) maxArtifactBytes = .ok (request, artifact) ∧
        readRequest (.ofBytes (frame.head ++ artifact)) maxArtifactBytes =
          .ok (request, artifact)) ∧
    (∀ (bs : GoString) (maxArtifactBytes : Int) (request : Request) (artifact : GoString),
      readRequest (.ofBytes bs) maxArtifactBytes = .ok (request, artifact) →
      ∃ header, Framed bs header request artifact) ∧
    (∀ (bs bs' : GoString) (maxArtifactBytes maxArtifactBytes' : Int)
        (x x' : Request × GoString),
      readRequest (.ofBytes bs) maxArtifactBytes = .ok x →
      readRequest (.ofBytes bs') maxArtifactBytes' = .ok x' → bs <+: bs' → bs = bs') ∧
    (∀ (request : Request) (frame : RequestFrame) (source : Reader) (bs : GoString)
        (e : ReadError),
      newRequestReader request = .ok frame → source.Delivers false bs e →
      request.artifactSize < bs.length →
      (requestStream frame source).Delivers true
        (frame.head ++ bs.take request.artifactSize.toNat) .eof) ∧
    ∀ (request : Request) (frame : RequestFrame) (source : Reader) (bs : GoString),
      newRequestReader request = .ok frame → source.Delivers false bs .eof →
      bs.length < request.artifactSize →
      (requestStream frame source).Delivers false (frame.head ++ bs) .unexpectedEOF ∧
      ∀ maxArtifactBytes x, readRequest (requestStream frame source) maxArtifactBytes ≠ .ok x := by
  refine ⟨?_, ?_, ?_, ?_, ?_⟩
  · intro request source artifact maxArtifactBytes hvalid hcaps hheader hsource hsize hdigest hfits
      hhard
    obtain ⟨hlo, -⟩ := request.size_bounds hvalid
    have hframe := newRequestReader_ok.mpr ⟨hvalid, hheader, rfl⟩
    refine ⟨_, hframe, ?_⟩
    have hstream := requestStream_enough hframe hsource hsize.ge (.inl rfl)
    rw [List.take_of_length_le (by omega)] at hstream
    have hframed := framed_of_newRequestReader hframe hcaps hsize hdigest
    exact ⟨hstream, readRequest_of_framed hstream hframed (by omega) hhard hfits,
      readRequest_of_framed (Reader.delivers_ofBytes _) hframed (by omega) hhard hfits⟩
  · intro bs maxArtifactBytes request artifact hread
    exact (framed_of_readRequest (Reader.delivers_ofBytes bs) hread).2
  · intro bs bs' maxArtifactBytes maxArtifactBytes' x x' hread hread' hpre
    obtain ⟨-, header, hframed⟩ := framed_of_readRequest (Reader.delivers_ofBytes bs) hread
    obtain ⟨-, header', hframed'⟩ := framed_of_readRequest (Reader.delivers_ofBytes bs') hread'
    exact hframed.eq_of_isPrefix hframed' hpre
  · intro request frame source bs e hframe hsource hsize
    exact requestStream_enough hframe hsource hsize.le (.inr hsize)
  · intro request frame source bs hframe hsource hsize
    have hstream := requestStream_short hframe hsource hsize
    refine ⟨hstream, ?_⟩
    rintro maxArtifactBytes ⟨request', artifact⟩ hread
    cases (framed_of_readRequest hstream hread).1

def sampleArtifact : GoString := [0x00, 0x61, 0x73, 0x6D]

/-- A request for an artifact of four bytes, with one capability. -/
def sampleRequest : Request where
  schemaVersion := schemaVersion
  validationID := "validation-1"
  artifactDigest := sum sampleArtifact
  artifactSize := 4
  abi := abiWASICommandV1
  hostAPIProfile := hostAPIProfileNone
  runtimeFeatureProfile := WasmProfile.featureProfile
  runtimeEngine := WasmProfile.engineCompiler
  memoryLimitMiB := 64
  requestedCapabilities := some [⟨"clock", "v1"⟩]

theorem sampleRequest_valid : sampleRequest.validate = .ok () := by
  rw [Request.validate, checks_ok]
  simp only [List.forall_mem_cons, List.not_mem_nil, IsEmpty.forall_iff, implies_true, and_true]
  refine ⟨by decide, by decide, ?_, by decide, by decide, by decide, by decide, by decide,
    by decide, rfl⟩
  rw [show sampleRequest.artifactDigest = sum sampleArtifact from rfl, sum_pattern]
  rfl

/-- A source that gives at most three bytes first and the rest afterwards. -/
def samplePieces : Reader :=
  .reading (fun n => sampleArtifact.take (min (n + 1) 3)) (fun _ => none) fun n =>
    .ofBytes (sampleArtifact.drop (min (n + 1) 3))

theorem frame_codec_sample : ∃ frame, newRequestReader sampleRequest = .ok frame ∧
    readRequest (requestStream frame samplePieces) 0 = .ok (sampleRequest, sampleArtifact) := by
  have hcaps : CapabilitiesValid sampleRequest := by
    intro cs hcs c hc
    cases hcs
    obtain rfl := List.mem_singleton.mp hc
    decide +kernel
  have hsource : samplePieces.Delivers false sampleArtifact .eof := by
    refine ⟨fun habsurd => (by cases habsurd), fun n =>
      ⟨?_, sampleArtifact.drop (min (n + 1) 3), ?_, ?_, ?_⟩⟩
    · rw [List.length_take]
      omega
    · exact (List.take_append_drop (min (n + 1) 3) sampleArtifact).symm
    · intro _
      exact (Reader.delivers_ofBytes _).lazily
    · intro e he
      cases he
  obtain ⟨frame, hframe, -, hread, -⟩ := frame_codec.1 sampleRequest samplePieces sampleArtifact 0
    sampleRequest_valid hcaps (by decide +kernel) hsource rfl rfl (by decide) (by decide)
  exact ⟨frame, hframe, hread⟩

end MiniCloud.Validator
