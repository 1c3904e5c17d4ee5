import PermissionSync.Base.Utf8
import PermissionSync.Orchestration.Synchronizer
import PermissionSync.Wire.Json

/-!
# Inbound HTTP handling (`permissionsync-inbound-http/src/lib.rs`)
-/

namespace PermissionSync.Inbound

open PermissionSync.Base PermissionSync.Core PermissionSync.Auth PermissionSync.Orchestration PermissionSync.Wire

/-! ## Headers -/

structure HeaderField where
  name : List UInt8
  value : List UInt8
deriving DecidableEq

/-- `u8::to_ascii_lowercase`. -/
def toAsciiLowercase (b : UInt8) : UInt8 := if 65 ≤ b ∧ b ≤ 90 then b + 32 else b

def eqIgnoreAsciiCase (a b : List UInt8) : Bool := a.map toAsciiLowercase == b.map toAsciiLowercase

/-- The bytes of `authorization`. -/
def authorizationName : List UInt8 := [97, 117, 116, 104, 111, 114, 105, 122, 97, 116, 105, 111, 110]

/-- The bytes of `bearer`. -/
def bearerScheme : List UInt8 := [98, 101, 97, 114, 101, 114]

def isB64TokenNonPaddingCharacter (b : UInt8) : Bool :=
  (65 ≤ b && b ≤ 90) || (97 ≤ b && b ≤ 122) || (48 ≤ b && b ≤ 57) ||
    b = 45 || b = 46 || b = 95 || b = 126 || b = 43 || b = 47

/-- Characters of the token, followed by padding only. -/
def isB64Token (credential : List UInt8) : Bool :=
  let unpadded := credential.takeWhile (· ≠ 61)
  !unpadded.isEmpty && unpadded.all isB64TokenNonPaddingCharacter && (credential.dropWhile (· ≠ 61)).all (· = 61)

/-- The value of the only `Authorization` field. -/
def authorization (headers : List HeaderField) : Option (List UInt8) :=
  match headers.filter fun field => eqIgnoreAsciiCase field.name authorizationName with
  | [field] => some field.value
  | _ => none

/-- The text of ASCII bytes. -/
def asciiText (bytes : List UInt8) : String := String.ofList (bytes.map fun b => Char.ofNat b.toNat)

def extractBearer (headers : List HeaderField) : Option String := do
  let value ← authorization headers
  if value.length ≤ bearerScheme.length || !eqIgnoreAsciiCase (value.take bearerScheme.length) bearerScheme then none
  else
    let afterScheme := value.drop bearerScheme.length
    let credential := afterScheme.dropWhile (· = 32)
    if credential = afterScheme || credential.isEmpty then none
    else if isB64Token credential then some (asciiText credential)
    else none

namespace Scan

/-- The loop over the fields, which returns when it meets a second `Authorization` field. -/
def authorizationFields : List HeaderField → Option (List UInt8) → Option (Option (List UInt8))
  | [], authorization => some authorization
  | field :: fields, authorization =>
      if eqIgnoreAsciiCase field.name authorizationName then
        if authorization.isSome then none else authorizationFields fields (some field.value)
      else
        authorizationFields fields authorization

/-- The loop that advances the start of the credential over the spaces. -/
def credentialStart (value : List UInt8) (start : Nat) : Nat :=
  if value[start]? = some 32 then credentialStart value (start + 1) else start
termination_by value.length - start
decreasing_by
  have hlt : start < value.length := (List.getElem?_eq_some_iff.mp ‹_›).1
  omega

def isB64Token (credential : List UInt8) : Bool :=
  let paddingStart := credential.findIdx (· = 61)
  !(credential.take paddingStart).isEmpty && (credential.take paddingStart).all isB64TokenNonPaddingCharacter &&
    (credential.drop paddingStart).all (· = 61)

/-- The credential in the value of the field. -/
def credential (value : List UInt8) : Option String :=
  if value.length ≤ bearerScheme.length || !eqIgnoreAsciiCase (value.take bearerScheme.length) bearerScheme then none
  else
    let start := credentialStart value bearerScheme.length
    if start = bearerScheme.length || start = value.length then none
    else if !isB64Token (value.drop start) then none
    else fromUtf8 (value.drop start)

/-- `extract_bearer` with its loops and slices, which `Inbound.extractBearer` sums up. -/
def extractBearer (headers : List HeaderField) : Option String := do
  let authorization ← authorizationFields headers none
  let value ← authorization
  credential value

end Scan

/-! ## The body -/

/-- `InboundBody`. -/
inductive InboundBody where
  | collected (bytes : List UInt8)
  | boundExceeded
deriving DecidableEq

structure LoginBody where
  eventType : String
  username : String
  groups : List String
deriving DecidableEq, Repr

/-- The derived reader of `LoginBody`. -/
def LoginBody.decode (j : Json) : Option LoginBody :=
  match structFields ["event_type", "username", "groups"] true j with
  | some [some (.str eventType), some (.str username), some (.arr groups)] =>
      (groups.mapM Json.asStr).map (LoginBody.mk eventType username)
  | _ => none

/-- `serde_json::from_slice` reads the document of a body, if the bytes are one. -/
abbrev JsonReader := List UInt8 → Option Json

/-- The body after strict validation. -/
def acceptedBody (read : JsonReader) : InboundBody → Option LoginBody
  | .collected bytes => ((read bytes).bind LoginBody.decode).filter fun body => body.eventType = "LOGIN"
  | .boundExceeded => none

/-! ## Outcomes -/

inductive HttpOutcome where
  | changed
  | targetlessNoop
  | unchanged
  | invalidRequest
  | unknownTarget
  | authenticationRejected
  | authorizationForbidden
  | verifierUnavailable
  | cancelledOrExpired
  | targetUnavailable
  | capacityUnavailable
  | providerFailed
  | adapterFailed
deriving DecidableEq, Repr

def HttpOutcome.statusCode : HttpOutcome → Nat
  | .changed => 200
  | .targetlessNoop | .unchanged => 204
  | .invalidRequest | .unknownTarget => 400
  | .authenticationRejected => 401
  | .authorizationForbidden => 403
  | .verifierUnavailable | .cancelledOrExpired | .targetUnavailable | .capacityUnavailable | .providerFailed
  | .adapterFailed => 500

def authenticationFailureOutcome : AuthenticationError → HttpOutcome
  | .rejected => .authenticationRejected
  | .forbidden => .authorizationForbidden
  | .verifierUnavailable => .verifierUnavailable
  | .cancelled => .cancelledOrExpired

/-- The outcome of a selected-target synchronization. -/
def synchronizationOutcome : Except SelectedTargetSynchronizationError ReconciliationOutcome → HttpOutcome
  | .ok .changed => .changed
  | .ok .unchanged => .unchanged
  | .error .unknownTarget => .unknownTarget
  | .error .cancelled => .cancelledOrExpired
  | .error .targetUnavailable => .targetUnavailable
  | .error .capacityUnavailable => .capacityUnavailable
  | .error .providerFailed => .providerFailed
  | .error .adapterFailed => .adapterFailed

/-! ## The handler -/

variable {ε : Type}

def contextUnavailable (context : SynchronizationContext) : Io ε Bool := unavailable context

/-- Go on unless the context is unavailable. -/
def whileAvailable (context : SynchronizationContext) (next : Io ε HttpOutcome) : Io ε HttpOutcome := do
  if ← contextUnavailable context then
    pure .cancelledOrExpired
  else
    next

/-- `InboundHttpHandler::handle_authenticated`. The body is parsed before the context is checked. -/
def handleAuthenticated (read : JsonReader) (synchronizer : Synchronizer) (bearer : String)
    (selection : TargetSelection) (body : InboundBody) (context : SynchronizationContext) : Io ε HttpOutcome :=
  whileAvailable context <|
    match acceptedBody read body with
    | none => pure .invalidRequest
    | some body =>
        match selection with
        | .noTarget => whileAvailable context (pure .targetlessNoop)
        | .selected target => do
            let result ← (synchronize synchronizer ⟨⟨body.username, body.groups⟩, target, bearer, context⟩).attempt
            pure (synchronizationOutcome result)

/-- `InboundHttpHandler::continue_after_authentication`. -/
def continueAfterAuthentication (read : JsonReader) (synchronizer : Synchronizer)
    (authentication : Except AuthenticationError AuthenticatedTechnicalCaller) (body : InboundBody)
    (context : SynchronizationContext) : Io ε HttpOutcome :=
  whileAvailable context <|
    match authentication with
    | .error error => pure (authenticationFailureOutcome error)
    | .ok authenticated =>
        handleAuthenticated read synchronizer authenticated.bearerToken authenticated.targetSelection body context

/-- `InboundHttpHandler::handle`. -/
def handle (read : JsonReader) (synchronizer : Synchronizer) (headers : List HeaderField) (body : InboundBody)
    (context : SynchronizationContext) : Io ε HttpOutcome :=
  whileAvailable context <| whileAvailable context <| do
    let authentication ← authenticate (extractBearer headers) context
    continueAfterAuthentication read synchronizer authentication body context

end PermissionSync.Inbound
