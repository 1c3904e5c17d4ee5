import PermissionSync.Auth.Interface
import PermissionSync.Base.Utf8

/-!
# Claims and scopes (`permissionsync-auth/src/claims.rs`)
-/

namespace PermissionSync.Auth

open PermissionSync.Base PermissionSync.Core PermissionSync.Wire

/-! ## Scopes -/

/-- The bytes of an RFC 6749 scope token. -/
def isScopeTokenByte (b : UInt8) : Bool := b = 0x21 || (0x23 ≤ b && b ≤ 0x5b) || (0x5d ≤ b && b ≤ 0x7e)

def validScopeToken (token : String) : Bool := token ≠ "" && (asBytes token).all isScopeTokenByte

/-- `str::split(' ')`. -/
def splitSpace (scope : String) : List String := (scope.toList.splitOn ' ').map String.ofList

def parseScopeShape : Option Json → Except AuthenticationError (Option (List String))
  | none => .ok none
  | some value => do
      let scope ← okOr value.asStr .rejected
      if scope = "" then
        return none
      else if !(splitSpace scope).all validScopeToken then
        throw .rejected
      else
        return some (splitSpace scope)

/-- What a token that selects a target starts with. -/
def targetScope : String := "permissionsync:"

def startsWithTargetScope (token : String) : Bool := targetScope.toList.isPrefixOf token.toList

def selectTarget : Option (List String) → Except AuthenticationError TargetSelection
  | none => .ok .noTarget
  | some tokens =>
      match tokens.filter startsWithTargetScope with
      | [] => .ok .noTarget
      | [scope] => do
          let target ← okOr (LogicalTarget.tryFrom (String.ofList (scope.toList.drop targetScope.length))) .forbidden
          return .selected target
      | _ => .error .forbidden

/-- What `validate_claims` makes of the scope of an authenticated caller. -/
def scopeSelection (value : Option Json) : Except AuthenticationError TargetSelection := do
  selectTarget (← parseScopeShape value)

end PermissionSync.Auth

namespace PermissionSync.Authenticator

open PermissionSync.Auth PermissionSync.Base PermissionSync.Core PermissionSync.Wire
open PermissionSync.Runtime (Duration)

/-! ## Authentication claims -/

structure ParsedAuthenticationClaims where
  clientId : String
  exp : ℚ
  iat : ℚ
  nbf : Option ℚ

def audienceMatches (value : Option Json) (expected : String) : Bool :=
  match value with
  | some (.str value) => value == expected
  | some (.arr values) =>
      !values.isEmpty && values.all (fun value => value.asStr.isSome) &&
        values.any fun value => value.asStr == some expected
  | _ => false

/-- `Value::as_f64`. -/
def asF64 (round : ℚ → ℚ) : Json → Option ℚ
  | .num (.int z) => some (round z)
  | .num (.float q) => some q
  | _ => none

def numericDate (round : ℚ → ℚ) (value : Option Json) : Option ℚ :=
  (value.bind (asF64 round)).filter fun date => |date| ≤ 9007199254740991

/-- A date that may be absent. -/
def optionalDate (round : ℚ → ℚ) : Option Json → Except AuthenticationError (Option ℚ)
  | none => .ok none
  | some value => (okOr (numericDate round (some value)) .rejected).map some

/-- `Duration::as_secs_f64`. -/
def asSecsF64 (round : ℚ → ℚ) (d : Duration) : ℚ :=
  round (round ↑(d / 1000000000 : Nat) + round (round ↑(d % 1000000000 : Nat) / 1000000000))

variable {K V : Type}

def parseAuthenticationClaimShapes (lib : Libraries K V) (claims : List (String × Json)) (config : Config) :
    Except AuthenticationError ParsedAuthenticationClaims := do
  ensure ((member claims "iss").bind Json.asStr = some config.issuer ∧
    audienceMatches (member claims "aud") config.audience = true) .rejected
  let exp ← okOr (numericDate lib.round (member claims "exp")) .rejected
  let iat ← okOr (numericDate lib.round (member claims "iat")) .rejected
  let clientId ← okOr ((member claims "client_id").bind Json.asStr) .rejected
  let nbf ← optionalDate lib.round (member claims "nbf")
  return ⟨clientId, exp, iat, nbf⟩

/-- The latest time of issue that the clock skew allows. -/
def allowedAt (lib : Libraries K V) (config : Config) (now : ℚ) : ℚ :=
  lib.round (now + asSecsF64 lib.round config.clockSkew)

/-- The comparisons of the parsed claims with the wall time. -/
def TimelyAt (lib : Libraries K V) (config : Config) (parsed : ParsedAuthenticationClaims) (now : ℚ) : Prop :=
  ¬ parsed.exp ≤ now ∧ ¬ allowedAt lib config now < parsed.iat ∧
    ∀ nbf, parsed.nbf = some nbf → ¬ allowedAt lib config now < nbf

instance (lib : Libraries K V) (config : Config) (parsed : ParsedAuthenticationClaims) (now : ℚ) :
    Decidable (TimelyAt lib config parsed now) :=
  inferInstanceAs (Decidable (_ ∧ _ ∧ _))

def validateClaims (lib : Libraries K V) (config : Config) (payload : List UInt8) (context : SynchronizationContext) :
    Io V (String × TargetSelection) := do
  checkContext context
  let claims ← .lift (okOr ((lib.readJson payload).bind Json.asObject) .rejected)
  let parsed ← .lift (parseAuthenticationClaimShapes lib claims config)
  checkContext context
  let wall ← unixSeconds
  let now ← .lift (okOr wall .verifierUnavailable)
  .lift (ensure (TimelyAt lib config parsed now) .rejected)
  checkContext context
  let selection ← .lift (scopeSelection (member claims "scope"))
  checkContext context
  pure (parsed.clientId, selection)

end PermissionSync.Authenticator
