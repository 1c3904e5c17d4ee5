import PermissionSync.Glpi.Interface

/-!
# The session of one reconciliation (`permissionsync-adapter-glpi/src/session.rs`)
-/

namespace PermissionSync.Glpi

open PermissionSync.Base PermissionSync.Wire

structure GlpiSession where
  token : String

/-! ## Headers -/

/-- `HeaderValue::from_str`: visible ASCII and the horizontal tab. -/
def headerValueOk (value : String) : Bool :=
  value.toList.all fun c => (32 ≤ c.toNat && c.toNat < 127) || c.toNat = 9

def header (name value : String) : Except GlpiFailure (String × String) :=
  if headerValueOk value then .ok (name, value) else .error .transport

def appTokenHeader (config : ValidatedConfig) : Except GlpiFailure (String × String) :=
  header "app-token" config.appToken

def sessionTokenHeader (session : GlpiSession) : Except GlpiFailure (String × String) :=
  header "session-token" session.token

def sessionHeaders (session : GlpiSession) (config : ValidatedConfig) : Except GlpiFailure Headers := do
  let sessionToken ← sessionTokenHeader session
  let appToken ← appTokenHeader config
  return [sessionToken, appToken]

def initHeaders (config : ValidatedConfig) : Except GlpiFailure Headers := do
  let authorization ← header "authorization" ("user_token " ++ config.userToken)
  let appToken ← appTokenHeader config
  return [authorization, appToken]

/-! ## Reading the responses -/

def decodeInitSession (j : Json) : Option String :=
  match structFields ["session_token"] true j with
  | some [some (.str token)] => some token
  | _ => none

def readInitSession (response : RawResponse) : Except GlpiFailure GlpiSession := do
  ensure (response.status = 200) .sessionInitFailed
  let token ← okOr (response.body.json.bind decodeInitSession) .sessionInitFailed
  ensure (token ≠ "") .sessionInitFailed
  return ⟨token⟩

/-- A response whose body is the bare literal `true`. -/
def readTrue (failure : GlpiFailure) (response : RawResponse) : Except GlpiFailure Unit := do
  ensure (response.status = 200) failure
  ensure (trimAscii response.body.bytes = trueLiteral) failure

/-- The member `session` of the only object of a `getFullSession` response. -/
def decodeFullSession (j : Json) : Option Json :=
  match structFields ["session"] true j with
  | some [some session] => some session
  | _ => none

/-- `session.glpishowallentities` has to be the number one. -/
def readVisibility (response : RawResponse) : Except GlpiFailure Unit := do
  ensure (response.status = 200) .incompleteVisibility
  let session ← okOr (response.body.json.bind decodeFullSession) .incompleteVisibility
  let showAll := session.asObject.bind (member · "glpishowallentities")
  ensure (showAll.bind Json.asU64 = some 1) .incompleteVisibility

/-! ## Requests -/

def initSession (config : ValidatedConfig) : Instant → Io GlpiSession :=
  exchange .initSession (initHeaders config) readInitSession

def forceAllEntities (config : ValidatedConfig) (session : GlpiSession) : Instant → Io Unit :=
  exchange .changeActiveEntities (sessionHeaders session config) (readTrue .incompleteVisibility)

def verifyCompleteVisibility (config : ValidatedConfig) (session : GlpiSession) : Instant → Io Unit :=
  exchange .getFullSession (sessionHeaders session config) readVisibility

def killSession (config : ValidatedConfig) (session : GlpiSession) : Instant → Io Unit :=
  exchange .killSession (sessionHeaders session config) (readTrue .cleanupFailed)

end PermissionSync.Glpi
