import PermissionSync.Auth.Claims
import PermissionSync.Auth.Jwks
import PermissionSync.Base.Numeral

/-!
# The authenticator (`permissionsync-auth/src/authenticator.rs`)

The fields of the metadata request, the TLS connector and its pool are left out.
-/

namespace PermissionSync.Authenticator

open PermissionSync.Auth PermissionSync.Base PermissionSync.Core PermissionSync.Wire
open PermissionSync.Runtime (Duration JwtAlgorithm VerificationCachePolicy)

variable {K V : Type} (lib : Libraries K V) (config : Config) (token : String) (algorithm : JwtAlgorithm)
  (context : SynchronizationContext)

/-- `AuthenticationRequest`. -/
structure AuthenticationRequest where
  rawCompactToken : Option String
  context : SynchronizationContext

/-! ## The age of the cache -/

inductive CacheClassification where
  | fresh
  | stale
  | coldOrExpired
deriving DecidableEq

inductive TrustedVerifierState where
  | usable
  | unusable
deriving DecidableEq

def CacheClassification.trustedVerifierState : CacheClassification → TrustedVerifierState
  | .fresh | .stale => .usable
  | .coldOrExpired => .unusable

def withinStale (age : Duration) (policy : VerificationCachePolicy) : Bool :=
  match durationSum policy.freshness policy.staleIfError with
  | none => false
  | some limit => policy.freshness < age && age ≤ limit

/-- The category of an age, as `classify_cache` and `verify_current` compute it. -/
def classifyAge (policy : VerificationCachePolicy) : Option Duration → CacheClassification
  | none => .coldOrExpired
  | some age => if age ≤ policy.freshness then .fresh else if withinStale age policy then .stale else .coldOrExpired

/-- What is done under the read guard of `classify_cache`. -/
def classifyGuarded (cache : Option (Snapshot V)) : Io V (UInt64 × CacheClassification) := do
  checkContext context
  match cache with
  | none => pure (0, .coldOrExpired)
  | some snapshot => do
      let now ← tick
      pure (snapshot.generation, classifyAge config.cachePolicy (snapshot.age now))

def classifyCache : Io V (UInt64 × CacheClassification) := do
  checkContext context
  match ← readCache context.deadline with
  | none => .fail .cancelled
  | some cache => guarded .dropRead (classifyGuarded config context cache)

/-! ## Verification -/

inductive Verification where
  | valid (caller : AuthenticatedTechnicalCaller)
  | rejected
  | forbidden
  | verifierUnavailable
  | noCandidate
  | signatureInvalid
deriving DecidableEq

inductive CacheVerification where
  | fresh (verification : Verification)
  | stale (verification : Verification)
  | coldOrExpired
  | cancelled
deriving DecidableEq

def prohibitedHeader (header : JwsHeader) : Bool := (header.claim "crit").isSome || (header.claim "b64").isSome

/-- The verifier that the selector returns for a candidate. -/
def selectVerifier (header : JwsHeader) (candidate : Candidate V) : Option V :=
  if prohibitedHeader header then none
  else if candidate.algorithm ≠ algorithm ∨ header.algorithm ≠ some (algorithmName algorithm) then none
  else
    match header.keyId with
    | some kid => if candidate.kid = some kid then some candidate.withKid else none
    | none => some candidate.withoutKid

/-- The verification of a token whose signature was accepted; `none` if the context became unavailable. -/
def claimsVerification (payload : List UInt8) : Io V (Option Verification) := do
  match ← (validateClaims lib config payload context).attempt with
  | .ok (clientId, targetSelection) => pure (some (.valid ⟨clientId, token, targetSelection⟩))
  | .error .cancelled => pure none
  | .error .verifierUnavailable => pure (some .verifierUnavailable)
  | .error .forbidden => pure (some .forbidden)
  | .error .rejected => pure (some .rejected)

/-- The loop over the candidates; `none` if the context became unavailable. -/
def verifyCandidates : List (Candidate V) → Bool → Bool → Io V (Option Verification)
  | [], selectedAny, prohibited =>
      pure (some (if prohibited then .rejected else if selectedAny then .signatureInvalid else .noCandidate))
  | candidate :: candidates, selectedAny, prohibited => do
      if ← unavailable context then
        pure none
      else
        let header := lib.header token
        let selected := header.bind fun header => selectVerifier algorithm header candidate
        let output := selected.bind fun verifier => lib.verify verifier token
        if ← unavailable context then
          pure none
        else
          match output with
          | some payload => claimsVerification lib config token context payload
          | none =>
              verifyCandidates candidates (selectedAny || selected.isSome) (prohibited || header.any prohibitedHeader)

/-- The result of a verification against a snapshot of the category. -/
def CacheClassification.verification : CacheClassification → Option Verification → CacheVerification
  | _, none => .cancelled
  | .fresh, some verification => .fresh verification
  | .stale, some verification => .stale verification
  | .coldOrExpired, some _ => .coldOrExpired

/-- What is done under the read guard of `verify_current`. -/
def verifyGuarded (cache : Option (Snapshot V)) : Io V CacheVerification := do
  if ← unavailable context then
    pure .cancelled
  else
    match cache with
    | none => pure .coldOrExpired
    | some snapshot => do
        let now ← tick
        let classification := classifyAge config.cachePolicy (snapshot.age now)
        if classification = .coldOrExpired then
          pure .coldOrExpired
        else
          let verification ← verifyCandidates lib config token algorithm context snapshot.candidates false false
          pure (classification.verification verification)

def verifyCurrent : Io V CacheVerification := do
  if ← unavailable context then
    pure .cancelled
  else
    match ← readCache context.deadline with
    | none => pure .cancelled
    | some cache => guarded .dropRead (verifyGuarded lib config token algorithm context cache)

def verificationResult : Verification → Except AuthenticationError AuthenticatedTechnicalCaller
  | .valid value => .ok value
  | .forbidden => .error .forbidden
  | .verifierUnavailable => .error .verifierUnavailable
  | .rejected | .noCandidate | .signatureInvalid => .error .rejected

def refreshedVerificationResult : CacheVerification → Except AuthenticationError AuthenticatedTechnicalCaller
  | .fresh verification => verificationResult verification
  | .stale (.valid _) | .stale .forbidden => .error .verifierUnavailable
  | .stale verification => verificationResult verification
  | .coldOrExpired => .error .verifierUnavailable
  | .cancelled => .error .cancelled

def staleFallbackResult : Verification → Except AuthenticationError AuthenticatedTechnicalCaller
  | .noCandidate => .error .verifierUnavailable
  | verification => verificationResult verification

def staleCacheFallbackResult : CacheVerification → Except AuthenticationError AuthenticatedTechnicalCaller
  | .fresh verification => verificationResult verification
  | .stale verification => staleFallbackResult verification
  | .coldOrExpired => .error .verifierUnavailable
  | .cancelled => .error .cancelled

/-! ## The metadata source -/

def parseHttpsAuthority (value : String) : Option Uri := do
  if maxTextBytes < byteLength value ∨ '\x7b' ∈ value.toList ∨ '\x7d' ∈ value.toList then none
  else
    let uri ← lib.parseUri value
    if uri.scheme ≠ some "https" ∨ uri.host.getD "" = "" ∨ uri.authority = none ∨
        uri.authority.any (fun authority => authority.toList.contains '@') then
      none
    else
      some uri

def parseMetadataUri (value : String) : Option Uri :=
  if '#' ∈ value.toList then none else parseHttpsAuthority lib value

structure DiscoveryDocument where
  issuer : String
  jwksUri : String

def DiscoveryDocument.decode (j : Json) : Option DiscoveryDocument :=
  match structFields ["issuer", "jwks_uri"] false j with
  | some [some (.str issuer), some (.str jwksUri)] => some ⟨issuer, jwksUri⟩
  | _ => none

/-- The loop of `read_document`. -/
def readFrames (deadline : EffectiveDeadline) : List Frame → List UInt8 → Io V (List UInt8)
  | [], document => do
      if ← frame deadline.instant then
        checkContext context
        pure document
      else
        timeoutError context deadline.cause
  | next :: frames, document => do
      if ← frame deadline.instant then
        checkContext context
        match next with
        | .failed => .fail .verifierUnavailable
        | .trailers => readFrames deadline frames document
        | .data data =>
            if maxDocumentBytes < document.length + data.length then
              .fail .verifierUnavailable
            else
              readFrames deadline frames (document ++ data)
      else
        timeoutError context deadline.cause

def readDocument (response : Response) (declared : Option Nat) (deadline : EffectiveDeadline) : Io V (List UInt8) :=
  if (declared.or response.sizeHint).any fun size => maxDocumentBytes < size then
    .fail .verifierUnavailable
  else
    readFrames context deadline response.body []

/-- The checks of a response before its body is read. -/
def acceptResponse (response : Option Response) : Except AuthenticationError (Response × Option Nat) := do
  let response ← okOr response .verifierUnavailable
  ensure (response.status = 200) .verifierUnavailable
  let declared := response.contentLength.bind fun value => parseU64 value.toList
  ensure (declared.all fun size => size ≤ maxDocumentBytes) .verifierUnavailable
  return (response, declared)

def getDocument (uri : Uri) : Io V (List UInt8) := do
  checkContext context
  let deadline ← effectiveDeadline context config.metadataTimeout
  match ← request uri deadline.instant with
  | none => timeoutError context deadline.cause
  | some response => do
      checkContext context
      let (response, declared) ← .lift (acceptResponse response)
      readDocument context response declared deadline

/-- The key-set document of the configured source. -/
def getJwks : Io V (List UInt8) :=
  match config.source with
  | .direct uri => getDocument config context uri
  | .discovery uri => do
      let bytes ← getDocument config context uri
      checkContext context
      let document ← .lift (okOr ((lib.readJson bytes).bind DiscoveryDocument.decode) .verifierUnavailable)
      .lift (ensure (document.issuer = config.issuer) .verifierUnavailable)
      let jwksUri ← .lift (okOr (parseMetadataUri lib document.jwksUri) .verifierUnavailable)
      getDocument config context jwksUri

def fetchSnapshot : Io V (Snapshot V) := do
  fetchStarted
  guarded .fetchEnded do
    let jwks ← getJwks lib config context
    checkContext context
    let candidates ← parseJwks lib jwks config.algorithms context
    checkContext context
    let acquired ← tick
    pure ⟨candidates, acquired, 0⟩

/-! ## Refreshing -/

/-- What is done under the read guard of `newer_generation_is_currently_fresh`. -/
def newerGuarded (observedGeneration : UInt64) (cache : Option (Snapshot V)) : Io V Bool := do
  checkContext context
  let now ← tick
  pure (cache.any fun snapshot =>
    snapshot.generation ≠ observedGeneration && (snapshot.age now).any fun age => age ≤ config.cachePolicy.freshness)

def newerGenerationIsCurrentlyFresh (observedGeneration : UInt64) : Io V Bool := do
  checkContext context
  match ← readCache context.deadline with
  | none => .fail .cancelled
  | some cache => guarded .dropRead (newerGuarded config context observedGeneration cache)

/-- `u64::saturating_add` of one. -/
def nextGeneration (generation : UInt64) : UInt64 := .ofNat (saturatingAdd generation.toNat 1)

/-- The generation of what is installed. -/
def generationOf (cache : Option (Snapshot V)) : UInt64 := (cache.map Snapshot.generation).getD 0

def installSnapshot (snapshot : Snapshot V) : Io V Unit := do
  checkContext context
  match ← writeCache context.deadline with
  | none => .fail .cancelled
  | some cache => guarded .dropWrite do
      checkContext context
      store { snapshot with generation := nextGeneration (generationOf cache) }

/-- What is done with the mutex of the refreshes. -/
def refreshLocked (observedGeneration : UInt64) : Io V Unit := do
  checkContext context
  if ← newerGenerationIsCurrentlyFresh config context observedGeneration then
    pure ()
  else
    match ← (fetchSnapshot lib config context).attempt with
    | .ok snapshot => installSnapshot context snapshot
    | .error .cancelled => .fail .cancelled
    | .error _ => .fail .verifierUnavailable

def refresh (observedGeneration : UInt64) : Io V Unit := do
  checkContext context
  if ← lockRefresh context.deadline then
    guarded .dropRefresh (refreshLocked lib config context observedGeneration)
  else
    .fail .cancelled

def refreshThenVerifyFresh (observedGeneration : UInt64) : Io V AuthenticatedTechnicalCaller := do
  refresh lib config context observedGeneration
  let verification ← verifyCurrent lib config token algorithm context
  .lift (refreshedVerificationResult verification)

def refreshOrStaleFallback (observedGeneration : UInt64) : Io V AuthenticatedTechnicalCaller := do
  match ← (refresh lib config context observedGeneration).attempt with
  | .ok () => do
      let verification ← verifyCurrent lib config token algorithm context
      .lift (refreshedVerificationResult verification)
  | .error .cancelled => .fail .cancelled
  | .error _ => do
      let verification ← verifyCurrent lib config token algorithm context
      .lift (staleCacheFallbackResult verification)

def refreshAfterProvenSignatureInvalid (observedGeneration : UInt64) : Io V AuthenticatedTechnicalCaller := do
  match ← (refresh lib config context observedGeneration).attempt with
  | .ok () => do
      let verification ← verifyCurrent lib config token algorithm context
      .lift (refreshedVerificationResult verification)
  | .error .cancelled => .fail .cancelled
  | .error _ => .fail .rejected

/-! ## Calls -/

/-- The checks of a credential that need no trusted state. -/
def preflight (request : AuthenticationRequest) : Io V (String × JwtAlgorithm) := do
  checkContext request.context
  let token ← .lift (okOr request.rawCompactToken .rejected)
  .lift (ensure (byteLength token ≤ maxTokenBytes) .rejected)
  checkContext request.context
  let algorithm ← .lift (preflightHeader lib token config.algorithms)
  checkContext request.context
  pure (token, algorithm)

/-- What is done with the first verification against a cache that was fresh. -/
def afterFresh (observedGeneration : UInt64) : CacheVerification → Io V AuthenticatedTechnicalCaller
  | .cancelled => .fail .cancelled
  | .stale .rejected => .fail .rejected
  | .stale .verifierUnavailable => .fail .verifierUnavailable
  | .stale .signatureInvalid => refreshAfterProvenSignatureInvalid lib config token algorithm context observedGeneration
  | .stale _ => refreshOrStaleFallback lib config token algorithm context observedGeneration
  | .coldOrExpired => refreshThenVerifyFresh lib config token algorithm context observedGeneration
  | .fresh (.valid result) => pure result
  | .fresh .rejected => .fail .rejected
  | .fresh .forbidden => .fail .forbidden
  | .fresh .verifierUnavailable => .fail .verifierUnavailable
  | .fresh .noCandidate => refreshThenVerifyFresh lib config token algorithm context observedGeneration
  | .fresh .signatureInvalid => refreshAfterProvenSignatureInvalid lib config token algorithm context observedGeneration

/-- What is done after the cache was classified. -/
def afterClassification (observedGeneration : UInt64) : CacheClassification → Io V AuthenticatedTechnicalCaller
  | .fresh => do
      let verification ← verifyCurrent lib config token algorithm context
      afterFresh lib config token algorithm context observedGeneration verification
  | .stale => refreshOrStaleFallback lib config token algorithm context observedGeneration
  | .coldOrExpired => refreshThenVerifyFresh lib config token algorithm context observedGeneration

def authenticate (request : AuthenticationRequest) : Io V AuthenticatedTechnicalCaller := do
  let (token, algorithm) ← preflight lib config request
  let (observedGeneration, classification) ← classifyCache config request.context
  afterClassification lib config token algorithm request.context observedGeneration classification

def trustedVerifierState : Io V TrustedVerifierState := do
  match ← (classifyCache config context).attempt with
  | .ok (_, classification) => pure classification.trustedVerifierState
  | .error _ => pure .unusable

def ensureTrustedVerifierState : Io V TrustedVerifierState := do
  match ← (classifyCache config context).attempt with
  | .error _ => pure .unusable
  | .ok (observedGeneration, classification) =>
      if classification.trustedVerifierState = .usable then
        pure .usable
      else
        match ← (refresh lib config context observedGeneration).attempt with
        | .error _ => pure .unusable
        | .ok () => trustedVerifierState config context

end PermissionSync.Authenticator
