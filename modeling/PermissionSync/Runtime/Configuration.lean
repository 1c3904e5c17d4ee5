import PermissionSync.Base.Result
import PermissionSync.Core.Ports

/-!
# The configuration document (`src/runtime/configuration.rs`)

`yaml_serde` turns the text into value trees and reads the structures of the sections; which text or value it accepts is
not modelled. The document itself, the checks and the order of the failures are those of the source.
-/

namespace PermissionSync.Runtime

/-- A YAML value tree. -/
inductive Value where
  | null
  | bool (b : Bool)
  | int (i : Int)
  | float (bits : UInt64)
  | string (s : String)
  | sequence (items : List Value)
  | mapping (entries : List (Value × Value))
  | tagged (tag : String) (value : Value)

/-- The value under its tags. -/
def Value.untag : Value → Value
  | .tagged _ value => value.untag
  | value => value

/-- The failures of `RuntimeFailure` that the configuration can cause. -/
inductive RuntimeFailure where
  | configurationEmpty
  | configurationMultipleDocuments
  | invalidDocumentStructure
  | invalidListener
  | invalidRequest
  | invalidShutdown
  | invalidAuthentication
  | invalidObservability
  | invalidTargets
deriving DecidableEq, Repr

inductive ComponentOutcome where
  | configured
  | absent
  | invalid
deriving DecidableEq, Repr

/-- `Duration`, in nanoseconds. -/
abbrev Duration := Nat

def fromMillis (milliseconds : Nat) : Duration := milliseconds * 1000000

def positiveDuration (milliseconds : Nat) : Option Duration :=
  if 0 < milliseconds then some (fromMillis milliseconds) else none

def trustAnchors (pem : List String) : List (List UInt8) := pem.map fun text => text.toUTF8.toList

def maxSynchronizationCapacity : Nat := 1024

/-- `Semaphore::MAX_PERMITS`, which is `usize::MAX >> 3`. -/
def maxPermits : Nat := 2 ^ 61 - 1

/-! ## What the sections deliver -/

structure DocumentDelivery where
  listener : Value
  request : Value
  shutdown : Value
  authentication : Value
  observability : Value
  targets : Value
  provider : Option Value
  glpi : Option Value

structure ListenerDelivery where
  address : String
  port : Nat

structure RequestDelivery where
  overallDeadlineMilliseconds : Nat
  inboundAdmissionLimit : Nat
  synchronizationCapacity : Nat

structure ShutdownDelivery where
  graceMilliseconds : Nat

/-- `JwtAlgorithm`, and the spellings of `AlgorithmDelivery`. -/
inductive JwtAlgorithm where
  | rs256
  | rs384
  | rs512
  | ps256
  | ps384
  | ps512
  | es256
  | es384
  | es512
  | edDsa
deriving DecidableEq, Repr

structure SourceDelivery where
  jwksUri : Option String
  oidcDiscoveryUri : Option String

structure CacheDelivery where
  freshnessMilliseconds : Nat
  staleIfErrorMilliseconds : Nat

structure AuthenticationDelivery where
  issuer : String
  audience : String
  algorithms : List JwtAlgorithm
  source : SourceDelivery
  cache : CacheDelivery
  metadataOperationTimeoutMilliseconds : Nat
  clockSkewMilliseconds : Nat
  additionalTrustAnchorsPem : List String

inductive LogLevel where
  | error
  | warn
  | info
  | debug
  | trace
deriving DecidableEq, Repr

structure TracingDelivery where
  enabled : Bool
  endpoint : Option String
  exportTimeoutMilliseconds : Option Nat
  headers : List (String × String)
  additionalTrustAnchorsPem : List String

structure ObservabilityDelivery where
  logLevel : LogLevel
  tracing : Option TracingDelivery

structure TargetDelivery where
  logicalTarget : String
  adapter : String

structure GenericRestDelivery where
  endpoint : String
  operationTimeoutMilliseconds : Nat
  additionalTrustAnchorsPem : List String

structure ProviderDelivery where
  genericRest : Option GenericRestDelivery

structure GlpiAuthenticationSourceDelivery where
  authtype : Int
  authsId : Int

structure GlpiDelivery where
  endpoint : String
  appToken : String
  userToken : String
  operationTimeoutMilliseconds : Nat
  additionalTrustAnchorsPem : List String
  authenticationSource : Option GlpiAuthenticationSourceDelivery

/-! ## What they are projected to -/

structure SocketAddr where
  address : List UInt8
  port : Nat
deriving DecidableEq

structure RequestConfiguration where
  overallRequestDeadline : Duration
  inboundAdmissionLimit : Nat
  synchronizationCapacity : Nat
deriving DecidableEq

inductive TrustedVerificationSource where
  | directJwks (uri : String)
  | oidcDiscovery (uri : String)
deriving DecidableEq

structure VerificationCachePolicy where
  freshness : Duration
  staleIfError : Duration
deriving DecidableEq

/-- The arguments of `TechnicalCallerAuthenticatorConfig::new`. -/
structure TechnicalCallerAuthenticatorConfig where
  issuer : String
  expectedAudience : String
  source : TrustedVerificationSource
  algorithms : List JwtAlgorithm
  metadataTimeout : Duration
  cachePolicy : VerificationCachePolicy
  clockSkew : Duration
  additionalTrustAnchorsPem : List (List UInt8)
deriving DecidableEq

structure AuthenticationConfiguration where
  config : TechnicalCallerAuthenticatorConfig
  metadataOperationTimeout : Duration
deriving DecidableEq

/-- The arguments of `TracingConfiguration::new`. -/
structure TracingConfiguration where
  endpoint : String
  exportTimeout : Duration
  headers : List (String × String)
  additionalTrustAnchorsPem : List (List UInt8)
deriving DecidableEq

structure ObservabilityConfiguration where
  logLevel : LogLevel
  tracing : Option TracingConfiguration
deriving DecidableEq

structure ConfiguredTarget where
  logicalTarget : String
  adapterIdentifier : String
deriving DecidableEq

structure GenericRestPermissionProviderConfig where
  endpoint : String
  operationTimeout : Duration
  additionalTrustAnchorsPem : List (List UInt8)
deriving DecidableEq

inductive ProviderConfiguration where
  | genericRest (config : GenericRestPermissionProviderConfig)
deriving DecidableEq

inductive GlpiAuthenticationSource where
  | default
  | explicit (authtype authsId : Int)
deriving DecidableEq

structure GlpiAdapterConfig where
  endpoint : String
  appToken : String
  userToken : String
  operationTimeout : Duration
  additionalTrustAnchorsPem : List (List UInt8)
  authenticationSource : GlpiAuthenticationSource
deriving DecidableEq

structure RuntimeConfiguration where
  provider : Option ProviderConfiguration
  glpi : Option GlpiAdapterConfig
  targets : List ConfiguredTarget
deriving DecidableEq

structure ExecutableConfiguration where
  listener : SocketAddr
  overallRequestDeadline : Duration
  inboundAdmissionLimit : Nat
  synchronizationCapacity : Nat
  shutdownGrace : Duration
  authentication : TechnicalCallerAuthenticatorConfig
  metadataOperationTimeout : Duration
  observability : ObservabilityConfiguration
  runtime : RuntimeConfiguration
  providerOutcome : ComponentOutcome
  glpiOutcome : ComponentOutcome
deriving DecidableEq

/-! ## Libraries -/

/-- What `yaml_serde` reads: the documents of a text, a key as the name of a field, and the structures of the
sections. -/
structure Yaml where
  documents : String → List (Option Value)
  key : Value → Option String
  listener : Value → Option ListenerDelivery
  request : Value → Option RequestDelivery
  shutdown : Value → Option ShutdownDelivery
  authentication : Value → Option AuthenticationDelivery
  observability : Value → Option ObservabilityDelivery
  targets : Value → Option (List TargetDelivery)
  provider : Value → Option ProviderDelivery
  glpi : Value → Option GlpiDelivery

/-- Which arguments the constructors of other components accept. They parse addresses and certificates. -/
structure Constructors where
  ipAddr : String → Option (List UInt8)
  authenticator : TechnicalCallerAuthenticatorConfig → Bool
  tracing : TracingConfiguration → Bool
  genericRest : GenericRestPermissionProviderConfig → Bool
  glpi : GlpiAdapterConfig → Bool

namespace Configuration

open PermissionSync.Base

/-! ## The document -/

/-- The values that the mapping has under the name. -/
def valuesAt (yaml : Yaml) (name : String) (entries : List (Value × Value)) : List Value :=
  (entries.filter fun entry => yaml.key entry.1 = some name).map Prod.snd

/-- A required field. -/
def required (yaml : Yaml) (entries : List (Value × Value)) (name : String) : Option Value :=
  match valuesAt yaml name entries with
  | [value] => some value
  | _ => none

/-- A field with `#[serde(default)]` of type `Option<Value>`: null is `None`, but a null with a tag is a value. -/
def defaulted (yaml : Yaml) (entries : List (Value × Value)) (name : String) : Option (Option Value) :=
  match valuesAt yaml name entries with
  | [] | [.null] => some none
  | [value] => some (some value)
  | _ => none

def requiredFields : List String := ["listener", "request", "shutdown", "authentication", "observability", "targets"]

def componentFields : List String := ["provider", "glpi"]

/-- The derived reading of `DocumentDelivery`, which denies unknown fields. A structure is read through its tags. -/
def readDocument (yaml : Yaml) (value : Value) : Option DocumentDelivery :=
  match value.untag with
  | .mapping entries =>
      if ∀ entry ∈ entries, ∃ name ∈ requiredFields ++ componentFields, yaml.key entry.1 = some name then do
        let listener ← required yaml entries "listener"
        let request ← required yaml entries "request"
        let shutdown ← required yaml entries "shutdown"
        let authentication ← required yaml entries "authentication"
        let observability ← required yaml entries "observability"
        let targets ← required yaml entries "targets"
        let provider ← defaulted yaml entries "provider"
        let glpi ← defaulted yaml entries "glpi"
        pure ⟨listener, request, shutdown, authentication, observability, targets, provider, glpi⟩
      else
        none
  | _ => none

/-- `Value::is_null`, which looks through tags. -/
def isNull (value : Value) : Bool :=
  match value.untag with
  | .null => true
  | _ => false

def singleDocument (yaml : Yaml) (text : String) : Except RuntimeFailure DocumentDelivery :=
  match yaml.documents text with
  | [] => .error .configurationEmpty
  | none :: _ => .error .invalidDocumentStructure
  | some value :: rest =>
      if isNull value then
        .error .configurationEmpty
      else if rest.isEmpty then
        okOr (readDocument yaml value) .invalidDocumentStructure
      else
        .error .configurationMultipleDocuments

/-! ## The sections -/

def listener (yaml : Yaml) (new : Constructors) (value : Value) : Except RuntimeFailure SocketAddr := do
  let delivery ← okOr (yaml.listener value) .invalidListener
  let address ← okOr (new.ipAddr delivery.address) .invalidListener
  if delivery.port = 0 then
    .error .invalidListener
  else
    pure ⟨address, delivery.port⟩

/-- `NonZeroUsize::new`. -/
def nonZero (n : Nat) : Option Nat := if n = 0 then none else some n

/-- `admission::derived_semaphore_sizes`; both sizes are the limit. -/
def derivedSemaphoreSizes (inboundAdmissionLimit : Nat) : Option (Nat × Nat) :=
  if inboundAdmissionLimit ≤ maxPermits then some (inboundAdmissionLimit, inboundAdmissionLimit) else none

def request (yaml : Yaml) (value : Value) : Except RuntimeFailure RequestConfiguration := do
  let delivery ← okOr (yaml.request value) .invalidRequest
  let overallRequestDeadline ← okOr (positiveDuration delivery.overallDeadlineMilliseconds) .invalidRequest
  let inboundAdmissionLimit ← okOr (nonZero delivery.inboundAdmissionLimit) .invalidRequest
  let _ ← okOr (derivedSemaphoreSizes inboundAdmissionLimit) .invalidRequest
  let synchronizationCapacity ← okOr (nonZero delivery.synchronizationCapacity) .invalidRequest
  if maxSynchronizationCapacity < synchronizationCapacity then
    .error .invalidRequest
  else
    pure ⟨overallRequestDeadline, inboundAdmissionLimit, synchronizationCapacity⟩

def shutdown (yaml : Yaml) (value : Value) (overallRequestDeadline : Duration) : Except RuntimeFailure Duration := do
  let delivery ← okOr (yaml.shutdown value) .invalidShutdown
  let grace ← okOr (positiveDuration delivery.graceMilliseconds) .invalidShutdown
  if grace < overallRequestDeadline then
    .error .invalidShutdown
  else
    pure grace

def SourceDelivery.project (delivery : SourceDelivery) : Option TrustedVerificationSource :=
  match delivery.jwksUri, delivery.oidcDiscoveryUri with
  | some uri, none => some (.directJwks uri)
  | none, some uri => some (.oidcDiscovery uri)
  | some _, some _ | none, none => none

def authentication (yaml : Yaml) (new : Constructors) (value : Value) (overallRequestDeadline : Duration) :
    Except RuntimeFailure AuthenticationConfiguration := do
  let delivery ← okOr (yaml.authentication value) .invalidAuthentication
  let metadataOperationTimeout ←
    okOr (positiveDuration delivery.metadataOperationTimeoutMilliseconds) .invalidAuthentication
  if overallRequestDeadline < metadataOperationTimeout then
    .error .invalidAuthentication
  else
    let freshness ← okOr (positiveDuration delivery.cache.freshnessMilliseconds) .invalidAuthentication
    let source ← okOr (SourceDelivery.project delivery.source) .invalidAuthentication
    let config : TechnicalCallerAuthenticatorConfig :=
      ⟨delivery.issuer, delivery.audience, source, delivery.algorithms, metadataOperationTimeout,
        ⟨freshness, fromMillis delivery.cache.staleIfErrorMilliseconds⟩, fromMillis delivery.clockSkewMilliseconds,
        trustAnchors delivery.additionalTrustAnchorsPem⟩
    if new.authenticator config then
      pure ⟨config, metadataOperationTimeout⟩
    else
      .error .invalidAuthentication

def tracing (new : Constructors) (delivery : TracingDelivery) : Except RuntimeFailure TracingConfiguration := do
  let endpoint ← okOr delivery.endpoint .invalidObservability
  let milliseconds ← okOr delivery.exportTimeoutMilliseconds .invalidObservability
  let exportTimeout ← okOr (positiveDuration milliseconds) .invalidObservability
  let config : TracingConfiguration :=
    ⟨endpoint, exportTimeout, delivery.headers, trustAnchors delivery.additionalTrustAnchorsPem⟩
  if new.tracing config then
    pure config
  else
    .error .invalidObservability

def observability (yaml : Yaml) (new : Constructors) (value : Value) :
    Except RuntimeFailure ObservabilityConfiguration := do
  let delivery ← okOr (yaml.observability value) .invalidObservability
  match delivery.tracing with
  | none => pure ⟨delivery.logLevel, none⟩
  | some tracingDelivery =>
      if tracingDelivery.enabled then
        let config ← tracing new tracingDelivery
        pure ⟨delivery.logLevel, some config⟩
      else
        pure ⟨delivery.logLevel, none⟩

def targets (yaml : Yaml) (value : Value) : Except RuntimeFailure (List ConfiguredTarget) := do
  let delivery ← okOr (yaml.targets value) .invalidTargets
  pure (delivery.map fun target => ⟨target.logicalTarget, target.adapter⟩)

/-! ## The components -/

/-- A section whose failure only makes its own component unavailable. -/
def component {D T : Type} (value : Option Value) (read : Value → Option D) (project : D → Option T) :
    Option T × ComponentOutcome :=
  match value with
  | none => (none, .absent)
  | some value =>
      match read value with
      | none => (none, .invalid)
      | some delivery =>
          match project delivery with
          | some configuration => (some configuration, .configured)
          | none => (none, .invalid)

/-- An operation timeout within the overall deadline. -/
def operationTimeout (milliseconds : Nat) (overallRequestDeadline : Duration) : Option Duration := do
  let timeout ← positiveDuration milliseconds
  if overallRequestDeadline < timeout then none else some timeout

def ProviderDelivery.project (overallRequestDeadline : Duration) (provider : ProviderDelivery) :
    Option ProviderConfiguration := do
  let delivery ← provider.genericRest
  let timeout ← operationTimeout delivery.operationTimeoutMilliseconds overallRequestDeadline
  pure (.genericRest ⟨delivery.endpoint, timeout, trustAnchors delivery.additionalTrustAnchorsPem⟩)

def authenticationSource : Option GlpiAuthenticationSourceDelivery → GlpiAuthenticationSource
  | none => .default
  | some source => .explicit source.authtype source.authsId

def GlpiDelivery.project (overallRequestDeadline : Duration) (delivery : GlpiDelivery) : Option GlpiAdapterConfig := do
  let timeout ← operationTimeout delivery.operationTimeoutMilliseconds overallRequestDeadline
  pure ⟨delivery.endpoint, delivery.appToken, delivery.userToken, timeout,
    trustAnchors delivery.additionalTrustAnchorsPem, authenticationSource delivery.authenticationSource⟩

end Configuration

open PermissionSync.Runtime.Configuration in
def decode (yaml : Yaml) (new : Constructors) (text : String) : Except RuntimeFailure ExecutableConfiguration := do
  let document ← singleDocument yaml text
  let listener ← listener yaml new document.listener
  let request ← request yaml document.request
  let shutdown ← shutdown yaml document.shutdown request.overallRequestDeadline
  let authentication ← authentication yaml new document.authentication request.overallRequestDeadline
  let observability ← observability yaml new document.observability
  let targets ← targets yaml document.targets
  let (provider, providerOutcome) :=
    component document.provider yaml.provider (ProviderDelivery.project request.overallRequestDeadline)
  let (glpi, glpiOutcome) := component document.glpi yaml.glpi (GlpiDelivery.project request.overallRequestDeadline)
  pure ⟨listener, request.overallRequestDeadline, request.inboundAdmissionLimit,
    request.synchronizationCapacity, shutdown, authentication.config, authentication.metadataOperationTimeout,
    observability, ⟨provider, glpi, targets⟩, providerOutcome, glpiOutcome⟩

end PermissionSync.Runtime
