import MiniCloud.Abi.Envelope
import MiniCloud.Lib.Url
import MiniCloud.StrictJson

/-!
# Checked encoding and decoding of envelopes

`DecodeRequest`, `EncodeRequest` and their two counterparts for responses. A source is the bytes it
delivers before it ends, and a destination is what its `Write` returns for the bytes it is given;
the encoders return the bytes that the destination has taken.

The loops over headers and query go through a map in an order Go leaves open. It only decides which
of several errors an invalid envelope gets.
-/

namespace MiniCloud

open Lib Problem

/-- `strictjson.Read` of a source that ends after these bytes. -/
def StrictJson.read (source : GoString) (maxBytes : Int) : Except GoError GoString := do
  checks [⟨maxBytes < 1, .text "json size limit must be positive"⟩]
  let data := source.take (maxBytes + 1).toNat
  checks [⟨maxBytes < data.length, .text "json input exceeds size limit"⟩]
  return data

namespace Abi

/-! ## Limits -/

structure Limits where
  rawEnvelopeBytes : Int
  metadataBytes : Int
  bodyBytes : Int
  headerCount : Int
  headerBytes : Int
  headerValueBytes : Int
  queryPairs : Int
  queryBytes : Int
  jsonDepth : Int
  methodBytes : Int
  pathBytes : Int
  deriving DecidableEq

def defaults : Limits where
  rawEnvelopeBytes := 1536 * 1024
  metadataBytes := 128 * 1024
  bodyBytes := 1024 * 1024
  headerCount := 64
  headerBytes := 32 * 1024
  headerValueBytes := 8 * 1024
  queryPairs := 128
  queryBytes := 32 * 1024
  jsonDepth := 32
  methodBytes := 16
  pathBytes := 4096

/-- One limit: zero selects the default, and nothing may exceed it. -/
def normalizeLimit (message : GoString) (value default : Int) : Except GoError Int := do
  let value := if value = 0 then default else value
  checks [⟨value < 1 || default < value, .text message⟩]
  return value

def outsideBounds : GoString := "minicloudabi: limit is outside v1 bounds"

def normalizeLimits (l : Limits) : Except GoError Limits := do
  let rawEnvelopeBytes ← normalizeLimit "minicloudabi: raw envelope limit is outside v1 bounds"
    l.rawEnvelopeBytes defaults.rawEnvelopeBytes
  let metadataBytes ← normalizeLimit outsideBounds l.metadataBytes defaults.metadataBytes
  let bodyBytes ← normalizeLimit outsideBounds l.bodyBytes defaults.bodyBytes
  let headerCount ← normalizeLimit outsideBounds l.headerCount defaults.headerCount
  let headerBytes ← normalizeLimit outsideBounds l.headerBytes defaults.headerBytes
  let headerValueBytes ← normalizeLimit outsideBounds l.headerValueBytes defaults.headerValueBytes
  let queryPairs ← normalizeLimit outsideBounds l.queryPairs defaults.queryPairs
  let queryBytes ← normalizeLimit outsideBounds l.queryBytes defaults.queryBytes
  let jsonDepth ← normalizeLimit outsideBounds l.jsonDepth defaults.jsonDepth
  let methodBytes ← normalizeLimit outsideBounds l.methodBytes defaults.methodBytes
  let pathBytes ← normalizeLimit outsideBounds l.pathBytes defaults.pathBytes
  return {
    rawEnvelopeBytes := rawEnvelopeBytes
    metadataBytes := metadataBytes
    bodyBytes := bodyBytes
    headerCount := headerCount
    headerBytes := headerBytes
    headerValueBytes := headerValueBytes
    queryPairs := queryPairs
    queryBytes := queryBytes
    jsonDepth := jsonDepth
    methodBytes := methodBytes
    pathBytes := pathBytes }

/-- `Limits.Tighten`. -/
def Limits.tighten (l override : Limits) : Except GoError Limits := do
  let base ← normalizeLimits l
  let requested ← normalizeLimits override
  return {
    rawEnvelopeBytes := min base.rawEnvelopeBytes requested.rawEnvelopeBytes
    metadataBytes := min base.metadataBytes requested.metadataBytes
    bodyBytes := min base.bodyBytes requested.bodyBytes
    headerCount := min base.headerCount requested.headerCount
    headerBytes := min base.headerBytes requested.headerBytes
    headerValueBytes := min base.headerValueBytes requested.headerValueBytes
    queryPairs := min base.queryPairs requested.queryPairs
    queryBytes := min base.queryBytes requested.queryBytes
    jsonDepth := min base.jsonDepth requested.jsonDepth
    methodBytes := min base.methodBytes requested.methodBytes
    pathBytes := min base.pathBytes requested.pathBytes }

/-! ## Validation -/

/-- `^[A-Za-z0-9._:-]{1,128}$`. -/
def identifierPattern (s : GoString) : Bool := Text.matchClass Model.isIdByte 1 128 s

def connectionHeaders : List GoString :=
  ["connection", "content-length", "keep-alive", "proxy-authenticate", "proxy-authorization", "te",
    "trailer", "transfer-encoding", "upgrade"]

/--
`strings.ToUpper`, `k` bytes into a rune that has been mapped. U+0131 and U+017F are the two runes
outside ASCII with an upper case in it. The others are mapped to runes outside ASCII and left alone
here; a method that has one is refused either way.
-/
def upperFrom : Nat → GoString → GoString
  | _, [] => []
  | k + 1, _ :: rest => upperFrom k rest
  | 0, b :: rest =>
    if b = 0xC4 ∧ rest.take 1 = [0xB1] then 0x49 :: upperFrom 1 rest
    else if b = 0xC5 ∧ rest.take 1 = [0xBF] then 0x53 :: upperFrom 1 rest
    else Text.upperByte b :: upperFrom 0 rest

def toUpper (s : GoString) : GoString := upperFrom 0 s

example : toUpper "post" = "POST" ∧ toUpper "lıſt" = "LIST" := by decide +kernel

def validatePath (value : GoString) (maxBytes : Int) : Validation := do
  checks [
    ⟨value = [] || value.head? != some 0x2F || maxBytes < value.length || !Text.validUTF8 value,
      .text "minicloudabi: invalid path"⟩,
    ⟨value.contains 0, .text "minicloudabi: path contains nul"⟩]
  let decoded ← orError (Url.unescapePath value)
    (.text "minicloudabi: path contains invalid percent encoding")
  checks [⟨!Text.validUTF8 decoded || decoded.contains 0,
    .text "minicloudabi: decoded path is not valid utf-8 or contains nul"⟩]

def validateTrigger (trigger : Trigger) : Validation :=
  checks [
    ⟨!identifierPattern trigger.id, .text "minicloudabi: invalid trigger id"⟩,
    ⟨trigger.type != "http" && trigger.type != "cron" && trigger.type != "event",
      .text "minicloudabi: invalid trigger type"⟩]

/-- The loop of `validateQuery`, with the pairs and bytes counted so far. -/
def queryEntries : List (GoString × Option (List GoString)) → Nat → Nat → Except GoError (Nat × Nat)
  | [], pairs, totalBytes => .ok (pairs, totalBytes)
  | (key, values) :: rest, pairs, totalBytes => do
    checks [⟨!Text.validUTF8 key || values.isNone, .text "minicloudabi: invalid query entry"⟩]
    let values := values.getD []
    checks [⟨!values.all Text.validUTF8, .text "minicloudabi: invalid query value"⟩]
    queryEntries rest (pairs + values.length)
      (totalBytes + (values.map fun value => key.length + value.length).sum)

def validateQuery (query : Fields) (limits : Limits) : Validation := do
  let query ← orError query (.text "minicloudabi: query must be an object")
  let total ← queryEntries query.toList 0 0
  checks [⟨limits.queryPairs < total.1 || limits.queryBytes < total.2,
    .text "minicloudabi: query exceeds pair or size limit"⟩]

def headerValue (limits : Limits) (value : GoString) : Validation :=
  checks [
    ⟨!Text.validUTF8 value || value.any fun b => b = 0x0D || b = 0x0A || b = 0,
      .text "minicloudabi: invalid header value"⟩,
    ⟨limits.headerValueBytes < value.length,
      .text "minicloudabi: header value exceeds size limit"⟩]

/-- The loop of `normalizeHeaders`, with the fields copied and the bytes counted so far. -/
def headerEntries (limits : Limits) :
    List (GoString × Option (List GoString)) → GoMap GoString (Option (List GoString)) → Nat →
      Except GoError (GoMap GoString (Option (List GoString)) × Nat)
  | [], normalized, totalBytes => .ok (normalized, totalBytes)
  | (name, values) :: rest, normalized, totalBytes => do
    checks [⟨!headerNamePattern name, .text "minicloudabi: invalid header name"⟩]
    let lowerName := Text.toLower name
    checks [
      ⟨name != lowerName, .text "minicloudabi: constructed header names must be lowercase"⟩,
      ⟨connectionHeaders.contains lowerName,
        .text "minicloudabi: connection-level header is forbidden"⟩]
    let values ← orError values (.text "minicloudabi: header values must be an array")
    checkAll (headerValue limits) values
    headerEntries limits rest (normalized.set lowerName (some values))
      (totalBytes + (values.map List.length).sum + lowerName.length)

def normalizeHeaders (fields : Fields) (limits : Limits) : Except GoError Fields := do
  let fields ← orError fields (.text "minicloudabi: headers must be an object")
  let total ← headerEntries limits fields.toList ∅ 0
  checks [⟨limits.headerCount < total.1.len || limits.headerBytes < total.2,
    .text "minicloudabi: headers exceed count or size limit"⟩]
  return some total.1

/-- `validateMetadataSize`, given the JSON of the envelope without its body. -/
def validateMetadataSize (metadata : Json Json.Num) (maxBytes : Int) : Validation :=
  checks [⟨maxBytes < metadata.marshal.length,
    .text "minicloudabi: envelope metadata exceeds size limit"⟩]

def normalizeRequest (request : Request) (limits : Limits) : Except GoError Request := do
  checks [
    ⟨request.specVersion != version, .text "minicloudabi: unsupported request spec_version"⟩,
    ⟨!identifierPattern request.invocationID, .text "minicloudabi: invalid invocation_id"⟩]
  let method := toUpper request.method
  checks [⟨method.length = 0 || limits.methodBytes < method.length || !headerNamePattern method,
    .text "minicloudabi: invalid method"⟩]
  validatePath request.path limits.pathBytes
  checks [
    ⟨request.deadlineUnixMS ≤ 0, .text "minicloudabi: deadline_unix_ms must be positive"⟩,
    ⟨limits.bodyBytes < request.body.length,
      .text "minicloudabi: request body exceeds size limit"⟩]
  validateTrigger request.trigger
  validateQuery request.query limits
  let headers ← normalizeHeaders request.headers limits
  let normalized := { request with method := method, headers := headers }
  validateMetadataSize { normalized with body := [] }.toJSON limits.metadataBytes
  return normalized

def validateResponse (response : Response) (requestMethod : GoString) (limits : Limits) :
    Validation := do
  checks [
    ⟨response.specVersion != version, .text "minicloudabi: unsupported response spec_version"⟩,
    ⟨response.status < 200 || 599 < response.status,
      .text "minicloudabi: response status must be between 200 and 599"⟩,
    ⟨limits.bodyBytes < response.body.length,
      .text "minicloudabi: response body exceeds size limit"⟩,
    -- only ASCII letters fold to those of `HEAD`
    ⟨(Text.toLower requestMethod = "head" || response.status = 204 || response.status = 304) &&
      response.body.length != 0,
      .text "minicloudabi: response body is forbidden for method or status"⟩]
  let _ ← normalizeHeaders response.headers limits
  validateMetadataSize { response with body := [] }.toJSON limits.metadataBytes

/-! ## The codec -/

def readEnvelope (source : GoString) (limits : Limits) : Except GoError GoString := do
  let data ← wrapping "minicloudabi: reading envelope"
    (StrictJson.read source limits.rawEnvelopeBytes)
  wrapping "minicloudabi: validating envelope json" (StrictJson.validate data limits.jsonDepth)
  return data

/-- What `Write` returns: the number of bytes taken, or an error. -/
abbrev Writer := GoString → Except GoError Nat

def encodeEnvelope (destination : Writer) (envelope : Json Json.Num) (limits : Limits) :
    Except GoError GoString := do
  let data := envelope.marshal
  checks [⟨limits.rawEnvelopeBytes < data.length,
    .text "minicloudabi: encoded envelope exceeds raw size limit"⟩]
  let written ← wrapping "minicloudabi: writing envelope" (destination data)
  checks [⟨written != data.length, .text "short write"⟩]
  return data

def decodeRequest (source : GoString) (limits : Limits) : Except GoError Request := do
  let limits ← normalizeLimits limits
  let data ← readEnvelope source limits
  let request ← wrapping "minicloudabi: decoding request" (unmarshalRequest data)
  normalizeRequest request limits

def encodeRequest (destination : Writer) (request : Request) (limits : Limits) :
    Except GoError GoString := do
  let limits ← normalizeLimits limits
  let request ← normalizeRequest request limits
  encodeEnvelope destination request.toJSON limits

def decodeResponse (source requestMethod : GoString) (limits : Limits) :
    Except GoError Response := do
  let limits ← normalizeLimits limits
  let data ← readEnvelope source limits
  let response ← wrapping "minicloudabi: decoding response" (unmarshalResponse data)
  validateResponse response requestMethod limits
  return response

def encodeResponse (destination : Writer) (response : Response) (requestMethod : GoString)
    (limits : Limits) : Except GoError GoString := do
  let limits ← normalizeLimits limits
  validateResponse response requestMethod limits
  encodeEnvelope destination response.toJSON limits

end Abi

end MiniCloud
