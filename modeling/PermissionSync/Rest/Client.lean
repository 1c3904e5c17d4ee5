import PermissionSync.Glpi.Session
import PermissionSync.Net.Outbound
import PermissionSync.Rest.Envelope
import PermissionSync.Wire.Document

/-!
# The client of the generic REST Provider (`permissionsync-provider-generic-rest/src/{lib,client,wire}.rs`)

URIs, addresses, DNS names and media types are parsed by libraries, whose parsers are parameters. The TLS connector is
the same for every connection and is left out.
-/

namespace PermissionSync.GenericRest

open PermissionSync.Base PermissionSync.Core PermissionSync.Net PermissionSync.Wire
open PermissionSync.Glpi (headerValueOk operationDeadline)

variable {N : Type}

def failures : Failures ProviderFailure where
  runtimeUnavailable := .runtimeUnavailable
  cancelled := .cancelled
  deadlineExceeded := .deadlineExceeded
  transport := .transport
  responseBody := .responseBody
  responseTooLarge := .responseTooLarge

/-! ## Configuration -/

inductive Scheme where
  | https
  | other
deriving DecidableEq

/-- What `http::Uri` tells of a parsed URI. -/
structure Uri where
  scheme : Option Scheme
  authority : Option String
  host : Option String
  port : Option Nat
  path : String
  query : Option String

/-- `mime::Mime`, with its parameters in order. -/
structure Mime where
  type : String
  subtype : String
  params : List (String × String)

structure Library (N : Type) where
  parseUri : String → Option Uri
  parseIp : String → Option IpAddr
  parseName : String → Option N
  parseMime : String → Option Mime

/-- `GenericRestPermissionProviderConfigError`. -/
inductive ConfigError where
  | invalid
deriving DecidableEq

/-- An accepted endpoint, whose URI has an authority with a host. -/
structure Endpoint where
  authority : String
  host : String
  port : Option Nat
  path : String
  host_ne : host ≠ ""
  path_ne : path ≠ ""
  noUserinfo : '@' ∉ authority.toList

theorem slash_ne_empty : "/" ≠ "" := by decide

def parseEndpoint (lib : Library N) (endpoint : String) : Except ConfigError Endpoint :=
  if endpoint.toList.any (fun c => c = '\x7b' || c = '\x7d' || c = '#') then .error .invalid
  else
    match lib.parseUri endpoint with
    | none => .error .invalid
    | some uri =>
        match uri.host, uri.authority with
        | some host, some authority =>
            if h : uri.scheme = some .https ∧ host ≠ "" ∧ uri.query = none ∧ '@' ∉ authority.toList then
              if hpath : uri.path = "" then .ok ⟨authority, host, uri.port, "/", h.2.1, slash_ne_empty, h.2.2.2⟩
              else .ok ⟨authority, host, uri.port, uri.path, h.2.1, hpath, h.2.2.2⟩
            else .error .invalid
        | _, _ => .error .invalid

/-- `bare_host`: the host without the brackets of an IPv6 literal. -/
def bareHost (endpoint : Endpoint) : String :=
  String.ofList (((endpoint.host.toList.dropWhile (· = '[')).reverse.dropWhile (· = ']')).reverse)

inductive EndpointHostKind (N : Type) where
  | literal (address : IpAddr)
  | hostname (name : N) (nameServer : UdpNameServer)

structure EndpointHost (N : Type) where
  port : Nat
  kind : EndpointHostKind N

def configuredUdpNameServer : Io N ConfigError UdpNameServer := do
  let conf ← ask .readSystemConf
  .lift (okOr (conf.bind firstUdpNameServer) .invalid)

def classifyEndpointHost (lib : Library N) (endpoint : Endpoint) : Io N ConfigError (EndpointHost N) := do
  let host := bareHost endpoint
  let port := endpoint.port.getD 443
  match lib.parseIp host with
  | some address => pure ⟨port, .literal address⟩
  | none => do
      let name ← .lift (okOr (lib.parseName host) .invalid)
      let nameServer ← configuredUdpNameServer
      pure ⟨port, .hostname name nameServer⟩

/-- `GenericRestPermissionProvider`. -/
structure Provider (N : Type) where
  endpoint : Endpoint
  endpointHost : EndpointHost N
  operationTimeout : Nat

/-- `GenericRestPermissionProvider::new`, without the TLS connector. -/
def Provider.new (lib : Library N) (endpoint : String) (operationTimeout : Nat) : Io N ConfigError (Provider N) :=
  if operationTimeout = 0 then .fail .invalid
  else do
    let endpoint ← .lift (parseEndpoint lib endpoint)
    let endpointHost ← classifyEndpointHost lib endpoint
    pure ⟨endpoint, endpointHost, operationTimeout⟩

/-! ## The request -/

/-- `serialize_request_body`. -/
def serializeRequestBody (identity : IdentityContext) : List UInt8 :=
  write (.obj [("username", .str identity.username), ("groups", .arr (identity.groups.map .str))])

def authorizationHeader (token : String) : Except ProviderFailure String :=
  if headerValueOk ("Bearer " ++ token) then .ok ("Bearer " ++ token) else .error .invalidAuthorization

def buildRequest (endpoint : Endpoint) (requestBody : List UInt8) (authorization : String) :
    Except ProviderFailure HttpRequest :=
  if headerValueOk endpoint.authority then
    .ok {
      method := .post
      target := endpoint.path
      headers := [("host", endpoint.authority), ("content-type", "application/json"), ("accept", "application/json"),
        ("accept-encoding", ""), ("authorization", authorization)]
      body := requestBody }
  else .error .requestConstruction

/-- The request of one resolution. -/
def outboundRequest (provider : Provider N) (request : PermissionProviderRequest) :
    Except ProviderFailure HttpRequest := do
  let authorization ← authorizationHeader request.technicalCallerBearerToken
  buildRequest provider.endpoint (serializeRequestBody request.identity) authorization

/-! ## The response -/

/-- `HeaderValue::to_str`. -/
def toStr (value : List UInt8) : Option String :=
  if value.all fun b => (32 ≤ b && b < 127) || b = 9 then some (String.ofList (value.map fun b => Char.ofNat b.toNat))
  else none

def headerValues (headers : List (String × List UInt8)) (name : String) : Except ProviderFailure (List String) :=
  (headers.filter fun header => header.1 = name).mapM fun header => okOr (toStr header.2) .responseMetadata

def eqIgnoreAsciiCase (a b : String) : Bool := a.toList.map Char.toLower == b.toList.map Char.toLower

def validateSuccessContentType (lib : Library N) (contentTypes : List String) : Except ProviderFailure Unit :=
  match contentTypes with
  | [contentType] => do
      let mediaType ← okOr (lib.parseMime contentType) .responseMetadata
      if !eqIgnoreAsciiCase mediaType.type "application" || !eqIgnoreAsciiCase mediaType.subtype "json" then
        .error .responseMetadata
      else
        match (mediaType.params.filter fun param => param.1 = "charset").map Prod.snd with
        | [] => .ok ()
        | [charset] =>
            if !eqIgnoreAsciiCase charset "utf-8" && !eqIgnoreAsciiCase charset "utf8" then .error .responseMetadata
            else .ok ()
        | _ => .error .responseMetadata
  | _ => .error .responseMetadata

/-- `str::trim`. -/
def trim (cs : List Char) : List Char :=
  ((cs.dropWhile Char.isWhitespace).reverse.dropWhile Char.isWhitespace).reverse

/-- The loop over the codings of one field. -/
def codings : List (List Char) → Bool → Except ProviderFailure Bool
  | [], foundCoding => .ok foundCoding
  | coding :: rest, _ =>
      let coding := String.ofList (trim coding)
      if coding = "" || !eqIgnoreAsciiCase coding "identity" then .error .responseMetadata else codings rest true

def validateSuccessContentEncoding : List String → Except ProviderFailure Unit
  | [] => .ok ()
  | contentEncoding :: rest => do
      let foundCoding ← codings (contentEncoding.toList.splitOn ',') false
      if !foundCoding then .error .responseMetadata else validateSuccessContentEncoding rest

def parseContentLength (contentLength : String) : Except ProviderFailure Nat :=
  if contentLength = "" || !contentLength.toList.all Char.isDigit then .error .responseMetadata
  else okOr (parseU64 contentLength.toList) .responseMetadata

def validateSuccessHeaders (lib : Library N) (headers : List (String × List UInt8)) (limit : Nat) :
    Except ProviderFailure (Option Nat) := do
  let contentTypes ← headerValues headers "content-type"
  validateSuccessContentType lib contentTypes
  let contentEncodings ← headerValues headers "content-encoding"
  validateSuccessContentEncoding contentEncodings
  let contentLengths ← headerValues headers "content-length"
  let declaredLength ← match contentLengths with
    | [] => .ok none
    | [contentLength] => (parseContentLength contentLength).map some
    | _ => .error .responseMetadata
  if declaredLength.any (limit < ·) then .error .responseTooLarge else .ok declaredLength

/-- `RESPONSE_BODY_LIMIT_BYTES`. -/
def responseBodyLimitBytes : Nat := 1048576

/-- `check_context`. -/
def checkContext (context : SynchronizationContext) (deadline : Instant) : Io N ProviderFailure Unit :=
  check failures (some context.cancellation) deadline

/-- `read_body`. -/
def readBody (frames : List BodyFrame) (limit : Nat) (context : SynchronizationContext) (deadline : Instant) :
    Io N ProviderFailure (List UInt8) := do
  let bytes ← readFrames failures (some context.cancellation) deadline limit frames []
  checkContext context deadline
  pure bytes

/-- `send_and_read_response` after the response has come and the context has been checked. -/
def readResponse (lib : Library N) (context : SynchronizationContext) (deadline : Instant) (response : HttpResponse) :
    Io N ProviderFailure DesiredStateEnvelope := do
  if response.status ≠ 200 then
    .fail .unexpectedStatus
  else
    let _ ← .lift (validateSuccessHeaders lib response.headers responseBodyLimitBytes)
    let responseBody ← readBody response.frames responseBodyLimitBytes context deadline
    checkContext context deadline
    let envelope ← .lift (parseSuccessEnvelope responseBody)
    checkContext context deadline
    pure envelope

/-! ## One resolution -/

def effectiveDeadline (context : SynchronizationContext) (operationTimeout : Nat) : Io N ProviderFailure Instant := do
  if ← Net.isCancelled context.cancellation then
    .fail .cancelled
  else
    let t ← now
    if context.deadline ≤ t then
      .fail .deadlineExceeded
    else
      pure (operationDeadline ⟨context.deadline⟩ operationTimeout t)

variable [BEq N] [EquivBEq N]

def resolveOneAddress (endpointHost : EndpointHost N) (deadline : Instant) : Io N ProviderFailure SocketAddr :=
  match endpointHost.kind with
  | .literal address => pure ⟨address, endpointHost.port⟩
  | .hostname name nameServer => do
      let address ← resolveHostname failures name nameServer deadline
      pure ⟨address, endpointHost.port⟩

def resolveWithinDeadline (lib : Library N) (provider : Provider N) (request : PermissionProviderRequest)
    (deadline : Instant) :
    Io N ProviderFailure DesiredStateEnvelope := do
  checkContext request.context deadline
  let outboundRequest ← .lift (outboundRequest provider request)
  attempt failures (some request.context.cancellation) deadline (resolveOneAddress provider.endpointHost deadline)
    (bareHost provider.endpoint) outboundRequest (readResponse lib request.context deadline)

/-- `client::resolve`. -/
def resolve (lib : Library N) (provider : Provider N) (request : PermissionProviderRequest) :
    Prog (bounded N) ProviderFailure DesiredStateEnvelope :=
  timeoutAt failures do
    let deadline ← effectiveDeadline request.context provider.operationTimeout
    if ← tryCurrent then
      resolveWithinDeadline lib provider request deadline
    else
      .fail .runtimeUnavailable

end PermissionSync.GenericRest
