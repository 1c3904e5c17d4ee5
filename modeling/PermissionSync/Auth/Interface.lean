import PermissionSync.Auth.Types
import PermissionSync.Base.Program
import PermissionSync.Base.Result
import PermissionSync.Runtime.Configuration
import PermissionSync.Wire.Json

/-!
# What the authenticator sees of the world (`permissionsync-auth/src/config.rs`, `context.rs`, `clock.rs`)

The calls of one authenticator share the trusted verification cache, the mutex of the refreshes, the clocks and the
metadata client. A guard is held from the operation that obtains it to the one that drops it. What `josekit`,
`serde_json`, `hyper` and the floating-point unit compute is a parameter.
-/

namespace PermissionSync.Authenticator

open PermissionSync.Auth PermissionSync.Base PermissionSync.Core PermissionSync.Wire
open PermissionSync.Runtime (Duration JwtAlgorithm VerificationCachePolicy)

/-! ## Configuration -/

def maxTextBytes : Nat := 4096

def maxTokenBytes : Nat := 16384

def maxDocumentBytes : Nat := 1048576

def maxJwksKeys : Nat := 32

def maxPublicComponentBytes : Nat := 1366

def maxRsaExponentBytes : Nat := 16

/-- `JwtAlgorithm::name`. -/
def algorithmName : JwtAlgorithm → String
  | .rs256 => "RS256"
  | .rs384 => "RS384"
  | .rs512 => "RS512"
  | .ps256 => "PS256"
  | .ps384 => "PS384"
  | .ps512 => "PS512"
  | .es256 => "ES256"
  | .es384 => "ES384"
  | .es512 => "ES512"
  | .edDsa => "EdDSA"

deriving instance Ord for JwtAlgorithm

/-- `hyper::Uri`, with the components that are checked. -/
structure Uri where
  text : String
  scheme : Option String
  host : Option String
  authority : Option String
deriving DecidableEq

inductive SourceUri where
  | direct (uri : Uri)
  | discovery (uri : Uri)
deriving DecidableEq

/-- `Config`. The algorithms are a `BTreeSet`. -/
structure Config where
  issuer : String
  audience : String
  source : SourceUri
  algorithms : List JwtAlgorithm
  ascending : algorithms.Pairwise fun a b => compare a b = .lt
  metadataTimeout : Duration
  cachePolicy : VerificationCachePolicy
  clockSkew : Duration

/-- One more than the largest `Duration`, whose seconds are an unsigned 64-bit integer. -/
def durationBound : Nat := 2 ^ 64 * 10 ^ 9

/-- `Duration::checked_add`. -/
def durationSum (d d' : Duration) : Option Duration := if d + d' < durationBound then some (d + d') else none

/-! ## Libraries -/

/-- `JwsHeader`. -/
structure JwsHeader where
  claims : List (String × Json)

def JwsHeader.claim (header : JwsHeader) (name : String) : Option Json := member header.claims name

def JwsHeader.algorithm (header : JwsHeader) : Option String := (header.claim "alg").bind Json.asStr

def JwsHeader.keyId (header : JwsHeader) : Option String := (header.claim "kid").bind Json.asStr

/-- What the libraries compute, for imported keys `K` and verifiers `V`. -/
structure Libraries (K V : Type) where
  /-- The header of a compact JWS, which `decode_header` and `deserialize_compact_with_selector` read alike. -/
  header : String → Option JwsHeader
  /-- The payload of the token, if the selected verifier accepts it. -/
  verify : V → String → Option (List UInt8)
  /-- `Jwk::from_bytes` of the serialized value. -/
  importJwk : Json → Option K
  verifierFromJwk : JwtAlgorithm → K → Option V
  /-- `serde_json::from_slice`. -/
  readJson : List UInt8 → Option Json
  parseUri : String → Option Uri
  /-- The nearest `f64`. -/
  round : ℚ → ℚ

/-! ## The cache -/

structure Candidate (V : Type) where
  kid : Option String
  algorithm : JwtAlgorithm
  withKid : V
  withoutKid : V
deriving DecidableEq

structure Snapshot (V : Type) where
  candidates : List (Candidate V)
  acquired : Instant
  generation : UInt64
deriving DecidableEq

/-- `Snapshot::age`. -/
def Snapshot.age {V : Type} (snapshot : Snapshot V) (now : Instant) : Option Duration :=
  if snapshot.acquired ≤ now then some (now - snapshot.acquired) else none

/-! ## Operations -/

/-- What the body of a metadata response yields, until it ends. -/
inductive Frame where
  | data (bytes : List UInt8)
  | trailers
  | failed
deriving DecidableEq

/-- A metadata response: its status, the text of its `Content-Length`, the exact size its body announces, and its
body. -/
structure Response where
  status : Nat
  contentLength : Option String
  sizeHint : Option Nat
  body : List Frame
deriving DecidableEq

inductive Op (V : Type) where
  | isCancelled (signal : Nat)
  | now
  -- `Clock`
  | tick
  | unixSeconds
  -- the cache: its guards, awaited until the deadline, and the assignment through a write guard
  | readCache (deadline : Instant)
  | dropRead
  | writeCache (deadline : Instant)
  | store (snapshot : Snapshot V)
  | dropWrite
  -- the mutex of the refreshes, awaited until the deadline
  | lockRefresh (deadline : Instant)
  | dropRefresh
  -- where `fetch_snapshot` starts and where it ends or is dropped; nobody else sees these
  | fetchStarted
  | fetchEnded
  -- the metadata client, and the next frame of a response body
  | request (uri : Uri) (deadline : Instant)
  | frame (deadline : Instant)
deriving DecidableEq

/-- The operations with their answers. An await that its deadline ended answers `none` or `false`; a guard answers the
value behind it. -/
abbrev auth (V : Type) : Interface where
  Op := Op V
  Ans
    | .isCancelled _ => Bool
    | .now => Instant
    | .tick => Instant
    | .unixSeconds => Option ℚ
    | .readCache _ => Option (Option (Snapshot V))
    | .dropRead => Unit
    | .writeCache _ => Option (Option (Snapshot V))
    | .store _ => Unit
    | .dropWrite => Unit
    | .lockRefresh _ => Bool
    | .dropRefresh => Unit
    | .fetchStarted => Unit
    | .fetchEnded => Unit
    | .request _ _ => Option (Option Response)
    | .frame _ => Bool

abbrev Io (V : Type) := Prog (auth V) AuthenticationError

abbrev Trace (V : Type) := List (Event (auth V))

variable {V α : Type}

def isCancelled (signal : Nat) : Io V Bool := Prog.ask (I := auth V) (.isCancelled signal)

def now : Io V Instant := Prog.ask (I := auth V) .now

def tick : Io V Instant := Prog.ask (I := auth V) .tick

def unixSeconds : Io V (Option ℚ) := Prog.ask (I := auth V) .unixSeconds

/-- `timeout_at(deadline, cache.read())`. -/
def readCache (deadline : Instant) : Io V (Option (Option (Snapshot V))) := Prog.ask (I := auth V) (.readCache deadline)

/-- `timeout_at(deadline, cache.write())`. -/
def writeCache (deadline : Instant) : Io V (Option (Option (Snapshot V))) :=
  Prog.ask (I := auth V) (.writeCache deadline)

/-- `*cache = Some(snapshot)`. -/
def store (snapshot : Snapshot V) : Io V Unit := Prog.ask (I := auth V) (.store snapshot)

/-- `timeout_at(deadline, refresh.lock())`. -/
def lockRefresh (deadline : Instant) : Io V Bool := Prog.ask (I := auth V) (.lockRefresh deadline)

def fetchStarted : Io V Unit := Prog.ask (I := auth V) .fetchStarted

/-- `timeout_at(deadline, client.request(request))`: the response, if the request did not fail. -/
def request (uri : Uri) (deadline : Instant) : Io V (Option (Option Response)) :=
  Prog.ask (I := auth V) (.request uri deadline)

/-- `timeout_at(deadline, body.frame())`: whether the stream answered in time. -/
def frame (deadline : Instant) : Io V Bool := Prog.ask (I := auth V) (.frame deadline)

/-- A scope that holds a guard, which is dropped when the scope ends. -/
def guarded (drop : Op V) (p : Io V α) : Io V α := do
  let result ← p.attempt
  let _ ← Prog.ask (I := auth V) drop
  .lift result

/-! ## The context -/

/-- Whether the context is cancelled, or else its deadline has passed. -/
def unavailable (context : SynchronizationContext) : Io V Bool := do
  if ← isCancelled context.cancellation then
    pure true
  else
    let t ← now
    pure (decide (context.deadline ≤ t))

def checkContext (context : SynchronizationContext) : Io V Unit := do
  if ← unavailable context then
    .fail .cancelled
  else
    pure ()

inductive DeadlineCause where
  | overallRequest
  | metadataOperation
deriving DecidableEq

structure EffectiveDeadline where
  instant : Instant
  cause : DeadlineCause

def effectiveDeadline (context : SynchronizationContext) (operationTimeout : Duration) : Io V EffectiveDeadline := do
  checkContext context
  let t ← now
  let operation := (Glpi.Instant.checkedAdd t operationTimeout).getD context.deadline
  if context.deadline ≤ operation then
    pure ⟨context.deadline, .overallRequest⟩
  else
    pure ⟨operation, .metadataOperation⟩

/-- `timeout_error`, which the caller fails with. -/
def timeoutError (context : SynchronizationContext) (cause : DeadlineCause) : Io V α := do
  if ← isCancelled context.cancellation then
    .fail .cancelled
  else
    match cause with
    | .overallRequest => .fail .cancelled
    | .metadataOperation => .fail .verifierUnavailable

end PermissionSync.Authenticator
