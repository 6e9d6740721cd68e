import MiniCloud.Abi.Codec
import MiniCloud.GatewayInvoke.Gateway

/-!
# The HTTP trigger boundary

`internal/gatewayhttp/handler.go`: a request is bounded, its Function is found in the serving view,
its token is checked against the Trigger found there, and the invocation built from it goes to the
coordinator. Writing the response is left out.

The rate limiter, the slots, the identifiers, the deadline and the parsed query are given to a
request. Header names are the tokens `net/http` accepts, under their canonical form, so lower case
is that of ASCII.
-/

namespace MiniCloud.GatewayHttp

open Lib Problem Digest Model ServingAuth Discovery GatewayDiscovery GatewayRoute GatewayInvoke

def maxTokenBytes : Nat := 4096

def isNameByte (b : UInt8) : Bool := Text.isLower b || Text.isDigit b || b == '-'.toUInt8

def functionNamePattern (s : GoString) : Bool := Text.matchHeadTail Text.isLower isNameByte 62 s

def requestIDPattern (s : GoString) : Bool := Text.matchClass isIdByte 1 128 s

structure HTTPRequest where
  method : GoString
  escapedPath : GoString
  /-- What `url.ParseQuery` makes of the raw query. -/
  query : Option (GoMap GoString (Option (List GoString)))
  header : GoMap GoString (List GoString)
  body : GoString

/-- What one request finds around it. -/
structure Surroundings where
  newRequestID : Except GoError GoString
  newInvocationID : Except GoError GoString
  rateAllows : Bool
  slotFree : Bool
  deadlineUnixMS : Int64

/-- The bounds a Handler is made with; `New` stores the effective limits. -/
structure Handler where
  limits : Abi.Limits
  timeout : Duration

/-! ## Headers -/

/-- Upper case at the start and behind every hyphen. -/
def capitalize : Bool → GoString → GoString
  | _, [] => []
  | upper, b :: rest =>
    (if upper then Text.upperByte b else Text.lowerByte b) :: capitalize (b == '-'.toUInt8) rest

/-- `textproto.CanonicalMIMEHeaderKey`. -/
def canonicalHeaderKey (s : GoString) : GoString :=
  if s.all Abi.isTokenByte then capitalize true s else s

def HTTPRequest.values (r : HTTPRequest) (name : GoString) : List GoString :=
  (r.header.get? (canonicalHeaderKey name)).getD []

/-- `Header.Get`. -/
def HTTPRequest.value (r : HTTPRequest) (name : GoString) : GoString := (r.values name).headD []

def reservedRequestHeader (name : GoString) : Bool :=
  (["authorization", "connection", "content-length", "forwarded", "keep-alive",
    "proxy-authenticate", "proxy-authorization", "te", "trailer", "transfer-encoding", "upgrade",
    "x-request-id"] : List GoString).contains name ||
  ("x-forwarded-" : GoString).isPrefixOf name || ("x-minicloud-" : GoString).isPrefixOf name

def connectionNames (r : HTTPRequest) : List GoString :=
  (r.values "Connection").flatMap fun value =>
    (value.splitOn ','.toUInt8).map fun name => Text.toLower (Net.trimSpace name)

def guestHeaders (r : HTTPRequest) : GoMap GoString (Option (List GoString)) :=
  r.header.toList.foldl (fun result entry =>
    let lower := Text.toLower entry.1
    if reservedRequestHeader lower || (connectionNames r).contains lower then result
    else result.set lower (some entry.2)) ∅

/-! ## The steps of a request -/

def requestID (env : Surroundings) (r : HTTPRequest) : Except GoError GoString :=
  let value := r.value "X-Request-ID"
  if value != [] then
    if !requestIDPattern value then .error (.text "invalid request id") else .ok value
  else do
    let value ← wrapping "generating request id" env.newRequestID
    checks [⟨!requestIDPattern value, .text "id source returned an invalid request id"⟩]
    return value

/-- The Function named by the path, and the path its code sees. -/
def invocationPath (escapedPath : GoString) : Except GoError (GoString × GoString) := do
  let base : GoString := "/invoke/"
  let remainder := escapedPath.drop base.length
  checks [mustNot (!base.isPrefixOf escapedPath || remainder == []) "path"
    "must match /invoke/\x7bname\x7d/\x7bpath...\x7d"]
  let name := remainder.takeWhile (· != '/'.toUInt8)
  checks [mustNot (!functionNamePattern name) "function_name" "must be a valid function name"]
  -- The guest path starts with a slash whether or not the suffix has one.
  return (name, '/'.toUInt8 :: remainder.drop (name.length + 1))

/-- The loop over the views. -/
def lookupFunctionFrom (name : GoString) : Option View → List View → Except GoError View
  | found, [] => orError found (classified .notFound "function was not found")
  | found, view :: rest =>
    if view.snapshot.function.name != name then lookupFunctionFrom name found rest
    else if found.isSome then
      .error (classified .controlPlaneStale "serving view contains a duplicate function name")
    else lookupFunctionFrom name (some view) rest

def authenticate (values : List GoString) (trigger : HTTPTrigger) : Validation :=
  if trigger.authPolicy == .public then .ok ()
  else
    match trigger.authPolicy, trigger.tokenVerifierDigest, values with
    | .token, some verifier, [value] =>
      let scheme := value.takeWhile (· != ' '.toUInt8)
      let token := value.drop (scheme.length + 1)
      checks [
        ⟨!value.contains ' '.toUInt8 || Text.toLower scheme != "bearer" || token == [] ||
            maxTokenBytes < token.length || token.any (Text.oneOf " \t\r\n"),
          classified .unauthenticated "invocation token is invalid"⟩,
        ⟨sum token != verifier, classified .unauthenticated "invocation token is invalid"⟩]
    | _, _, _ => .error (classified .unauthenticated "invocation token is required")

/-- The ABI request, encoded once for its limits. -/
def Handler.buildInvocation (h : Handler) (env : Surroundings) (r : HTTPRequest)
    (snapshot : Discovery.Snapshot) (invocationID guestPath : GoString) : Except GoError Abi.Request := do
  checks [mustNot (h.limits.bodyBytes < r.body.length) "body" "exceeds the gateway request limit"]
  let query ← orError r.query (invalid "query" "must use valid URL encoding")
  let invocation : Abi.Request := {
    specVersion := Abi.version
    invocationID := invocationID
    method := r.method
    path := guestPath
    query := some query
    headers := some (guestHeaders r)
    body := r.body
    deadlineUnixMS := env.deadlineUnixMS
    trigger := { Abi.zeroTrigger with
      type := "http", id := snapshot.trigger.id
      resourceRevision := snapshot.trigger.resourceRevision } }
  match Abi.encodeRequest (fun data => .ok data.length) invocation h.limits with
  | .error _ => .error (invalid "request" "exceeds the invocation ABI limits")
  | .ok _ => .ok invocation

def affinityKey (r : HTTPRequest) (requestID : GoString) : GoString :=
  if r.value "Idempotency-Key" != [] then r.value "Idempotency-Key" else requestID

/-- What is known of a request when the serving views are read. -/
structure Arrival where
  requestID : GoString
  functionName : GoString
  guestPath : GoString

def arrive (env : Surroundings) (r : HTTPRequest) : Except GoError Arrival := do
  let requestID ← (requestID env r).mapError fun _ =>
    invalid "x-request-id" "must be a valid request identifier"
  checks [
    ⟨!env.rateAllows, classified .overloaded "gateway request rate limit exceeded"⟩,
    ⟨!env.slotFree, classified .overloaded "gateway concurrency limit exceeded"⟩]
  let (functionName, guestPath) ← invocationPath r.escapedPath
  return ⟨requestID, functionName, guestPath⟩

/-- A request that passed authentication, with the view it was checked against. -/
structure Admitted where
  view : View
  request : GatewayInvoke.Request

def Handler.admit (h : Handler) (env : Surroundings) (r : HTTPRequest) (arrival : Arrival)
    (views : List View) : Except GoError Admitted := do
  let view ← lookupFunctionFrom arrival.functionName none views
  authenticate (r.values "Authorization") view.snapshot.trigger
  let invocationID ← wrapping "generating invocation id" env.newInvocationID
  let invocation ← h.buildInvocation env r view.snapshot invocationID arrival.guestPath
  return ⟨view,
    ⟨view.snapshot.functionID, affinityKey r arrival.requestID, invocation, h.timeout⟩⟩

/-- `ServeHTTP` up to the call of the coordinator. -/
def Handler.serve (h : Handler) (env : Surroundings) (r : HTTPRequest) :
    Op GoError Store Admitted := do
  let arrival ← Op.ofExcept (arrive env r)
  let views ← Op.mapError (.wrap "looking up HTTP serving views") Store.lookupAll
  Op.ofExcept <| Handler.admit h env r arrival views

/-! ## Requests side by side -/

/-- Where a request stands between two accesses to what it shares with others. -/
inductive Phase where
  | admitted (view : View) (request : GatewayInvoke.Request)
  | routed (view : View) (decision : Routing.Decision) (request : GatewayInvoke.Request)
  | leased (view : View) (decision : Routing.Decision) (request : GatewayInvoke.Request)
      (lease : Lease)
  | forwarded (lease : Lease)
  | ended

structure Exchange where
  http : HTTPRequest
  phase : Phase

/-- An invocation that went to a Worker, with the view its target was selected from. -/
structure Sent where
  http : HTTPRequest
  view : View
  decision : Routing.Decision
  call : Forwarded

structure System where
  gateway : Gateway
  exchanges : List Exchange
  sent : List Sent

inductive Move (ρ : Type) where
  | store (call : GatewayDiscovery.Call)
  | serve (env : Surroundings) (http : HTTPRequest)
  | advance (exchange : Nat) (outside : Outside ρ)

/-- The next access of a request. -/
def advancePhase {ρ : Type} (g : Gateway) (outside : Outside ρ) (http : HTTPRequest) :
    Phase → Gateway × Phase × List Sent
  | .admitted _ request =>
    match outside.canceled, Op.exec (look request) g.discovery with
    | none, (.ok (view, decision), discovery) =>
      (⟨discovery, g.balancer⟩, .routed view decision request, [])
    | none, (.error _, discovery) => (⟨discovery, g.balancer⟩, .ended, [])
    | some _, _ => (g, .ended, [])
  | .routed view decision request =>
    match g.balancer.acquire request.functionID decision.target view.endpoints with
    | (.ok lease, balancer) => (⟨g.discovery, balancer⟩, .leased view decision request lease, [])
    | (.error _, balancer) => (⟨g.discovery, balancer⟩, .ended, [])
  | .leased view decision request lease =>
    (g, .forwarded lease,
      (forward outside request view decision lease.endpoint).forwarded.map
        fun call => ⟨http, view, decision, call⟩)
  | .forwarded lease => (⟨g.discovery, g.balancer.release lease.state⟩, .ended, [])
  | .ended => (g, .ended, [])

def Handler.step {ρ : Type} (h : Handler) (s : System) : Move ρ → System
  | .store call =>
    { s with gateway := ⟨(storeMachine.step s.gateway.discovery call).2, s.gateway.balancer⟩ }
  | .serve env http =>
    let done := Op.exec (h.serve env http) s.gateway.discovery
    let phase := match done.1 with
      | .ok admitted => .admitted admitted.view admitted.request
      | .error _ => .ended
    ⟨⟨done.2, s.gateway.balancer⟩, s.exchanges ++ [⟨http, phase⟩], s.sent⟩
  | .advance i outside =>
    match s.exchanges[i]? with
    | none => s
    | some e =>
      let (gateway, phase, sent) := advancePhase s.gateway outside e.http e.phase
      ⟨gateway, s.exchanges.set i ⟨e.http, phase⟩, s.sent ++ sent⟩

/-- Any number of requests over one store and one balancer. -/
def Handler.machine (ρ : Type) (h : Handler) : Machine System (Move ρ) Unit where
  step s move := ((), h.step s move)

end MiniCloud.GatewayHttp
