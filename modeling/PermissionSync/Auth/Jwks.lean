import PermissionSync.Auth.Interface
import PermissionSync.Base.Utf8

/-!
# Token headers and key sets (`permissionsync-auth/src/jwks.rs`)
-/

namespace PermissionSync.Authenticator

open PermissionSync.Auth PermissionSync.Base PermissionSync.Core PermissionSync.Wire
open PermissionSync.Runtime (JwtAlgorithm)

variable {K V : Type}

/-- `str::len`. -/
def byteLength (text : String) : Nat := (asBytes text).length

/-! ## The header -/

/-- The key id of a header is absent or a text that is not too long. -/
def checkKid (header : JwsHeader) : Except AuthenticationError Unit :=
  match header.claim "kid" with
  | none => .ok ()
  | some kid => do
      let kid ← okOr kid.asStr .rejected
      ensure (byteLength kid ≤ maxTextBytes) .rejected

def preflightHeader (lib : Libraries K V) (token : String) (allowed : List JwtAlgorithm) :
    Except AuthenticationError JwtAlgorithm := do
  let header ← okOr (lib.header token) .rejected
  ensure (header.claim "crit" = none ∧ header.claim "b64" = none) .rejected
  checkKid header
  let algorithm ← okOr header.algorithm .rejected
  okOr (allowed.find? fun configured => algorithmName configured == algorithm) .rejected

/-! ## Key sets -/

/-- The text of a member. -/
def textMember (object : List (String × Json)) (name : String) : Option String := (member object name).bind Json.asStr

inductive KeyApplicability where
  | applicable
  | inapplicable
deriving DecidableEq

def isAsciiAlphanumeric (b : UInt8) : Bool := (48 ≤ b && b ≤ 57) || (65 ≤ b && b ≤ 90) || (97 ≤ b && b ≤ 122)

def boundedComponent (object : List (String × Json)) (name : String) (maximum : Nat) : Bool :=
  match textMember object name with
  | none => false
  | some value => value ≠ "" && byteLength value ≤ maximum &&
      (asBytes value).all fun b => isAsciiAlphanumeric b || b = 45 || b = 95

def secretMembers : List String := ["d", "k", "p", "q", "dp", "dq", "qi", "oth", "priv"]

def textMembers : List String := ["kid", "alg", "use", "kty", "crv"]

/-- The member is absent or a text that is not too long. -/
def boundedText (object : List (String × Json)) (field : String) : Bool :=
  match member object field with
  | none => true
  | some value => value.asStr.any fun text => byteLength text ≤ maxTextBytes

/-- `key_ops` is absent or a list of texts with `verify`. -/
def allowsVerify (object : List (String × Json)) : Bool :=
  match member object "key_ops" with
  | none => true
  | some operations =>
      match operations.asArray with
      | none => false
      | some operations => !operations.isEmpty && operations.all (fun value => value.asStr.isSome) &&
          operations.any fun value => value.asStr == some "verify"

/-- The public components that the type of a key requires. -/
def publicComponents (object : List (String × Json)) (kty : String) : Bool :=
  if kty = "RSA" then
    boundedComponent object "n" maxPublicComponentBytes && boundedComponent object "e" maxRsaExponentBytes
  else if kty = "EC" then
    boundedComponent object "x" maxPublicComponentBytes && boundedComponent object "y" maxPublicComponentBytes &&
      (textMember object "crv").isSome
  else
    boundedComponent object "x" maxPublicComponentBytes && (textMember object "crv").isSome

def classifyJwk (object : List (String × Json)) : Except Unit KeyApplicability :=
  if secretMembers.any fun name => (member object name).isSome then
    .error ()
  else
    match textMember object "kty" with
    | none => .ok .inapplicable
    | some kty =>
        if kty = "oct" then .error ()
        else if kty ≠ "RSA" ∧ kty ≠ "EC" ∧ kty ≠ "OKP" then .ok .inapplicable
        else if !textMembers.all (boundedText object) then .ok .inapplicable
        else if (member object "use").any fun value => value.asStr ≠ some "sig" then .ok .inapplicable
        else if !allowsVerify object then .ok .inapplicable
        else if !publicComponents object kty then .ok .inapplicable
        else .ok .applicable

def compatible (object : List (String × Json)) (algorithm : JwtAlgorithm) : Bool :=
  match algorithm with
  | .rs256 | .rs384 | .rs512 | .ps256 | .ps384 | .ps512 => textMember object "kty" == some "RSA"
  | .es256 => textMember object "kty" == some "EC" && textMember object "crv" == some "P-256"
  | .es384 => textMember object "kty" == some "EC" && textMember object "crv" == some "P-384"
  | .es512 => textMember object "kty" == some "EC" && textMember object "crv" == some "P-521"
  | .edDsa => textMember object "kty" == some "OKP" &&
      (textMember object "crv" == some "Ed25519" || textMember object "crv" == some "Ed448")

/-- The key may be used with the algorithm, as its members say. -/
def usableWith (object : List (String × Json)) (algorithm : JwtAlgorithm) : Bool :=
  (textMember object "alg").all (fun value => value == algorithmName algorithm) && compatible object algorithm

/-- One turn of the loop over the algorithms, for an imported key. -/
def algorithmTurn (lib : Libraries K V) (context : SynchronizationContext) (object : List (String × Json)) (jwk : K)
    (candidates : List (Candidate V)) (algorithm : JwtAlgorithm) : Io V (List (Candidate V)) := do
  checkContext context
  if !usableWith object algorithm then
    checkContext context
    pure candidates
  else
    match lib.verifierFromJwk algorithm jwk with
    | none => pure candidates
    | some withKid => do
        checkContext context
        checkContext context
        match lib.importJwk (.obj (object.filter fun m => m.1 ≠ "kid")) with
        | none => pure candidates
        | some withoutKidJwk => do
            checkContext context
            match lib.verifierFromJwk algorithm withoutKidJwk with
            | none => pure candidates
            | some withoutKid => do
                checkContext context
                pure (candidates ++ [⟨textMember object "kid", algorithm, withKid, withoutKid⟩])

/-- One turn of the loop over the entries. -/
def entryTurn (lib : Libraries K V) (context : SynchronizationContext) (allowed : List JwtAlgorithm)
    (candidates : List (Candidate V)) (value : Json) : Io V (List (Candidate V)) := do
  checkContext context
  match value.asObject with
  | none => pure candidates
  | some object =>
      match classifyJwk object with
      | .ok .inapplicable => pure candidates
      | .error () => .fail .verifierUnavailable
      | .ok .applicable => do
          checkContext context
          if !allowed.any (usableWith object) then
            pure candidates
          else
            match lib.importJwk (.obj object) with
            | none => pure candidates
            | some jwk => do
                checkContext context
                let candidates ← allowed.foldlM (algorithmTurn lib context object jwk) candidates
                checkContext context
                pure candidates

def parseJwks (lib : Libraries K V) (document : List UInt8) (allowed : List JwtAlgorithm)
    (context : SynchronizationContext) : Io V (List (Candidate V)) := do
  checkContext context
  let value ← .lift (okOr (lib.readJson document) .verifierUnavailable)
  checkContext context
  let keys ← .lift (okOr ((value.asObject.bind fun object => member object "keys").bind Json.asArray)
    .verifierUnavailable)
  .lift (ensure (keys.length ≤ maxJwksKeys) .verifierUnavailable)
  keys.foldlM (entryTurn lib context allowed) []

end PermissionSync.Authenticator
