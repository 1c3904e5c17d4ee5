import PermissionSync.Glpi.Session
import PermissionSync.Wire.Access

/-!
# Mutations (`permissionsync-adapter-glpi/src/mutation.rs`)

The response to a creation is read as one document. The response to a deletion is read by visitors of the source's own,
which are followed byte by byte.
-/

namespace PermissionSync.Glpi

open PermissionSync.Base PermissionSync.Wire

/-- `CreatedResponse`: the id, the message and an optional `upload_result`. -/
def decodeCreated (j : Json) : Option Nat :=
  match structFields ["id", "message", "upload_result"] true j with
  | some [some id, some (.str _), _] => id.asU64
  | _ => none

def parseCreatedId (body : Text) : Except GlpiFailure Nat := do
  let id ← okOr (body.json.bind decodeCreated) .mutationFailed
  ensure (id ≠ 0) .mutationFailed
  return id

/-! ## The confirmation of a deletion -/

/-- One member of a deletion entry: the flag of the expected id or the message. -/
def visitDeletionMember (expectedId : String) :
    Option Bool × Option String → Reader UInt8 (Option Bool × Option String) :=
  visitField expectedId "message" deserializeBool deserializeString

/-- `DeletionEntry::deserialize`, which returns what follows the entry. -/
def deserializeDeletionEntry (expectedId : String) (i : List UInt8) : Option (List UInt8) :=
  match skipSpaces i with
  | [] => none
  | b :: r =>
      if b = 123 then do
        let ((success, message), r) ← visitMap (visitDeletionMember expectedId) (r.length + 1) true (none, none) r
        if success = some true ∧ message.isSome then expectByte 125 r else none
      else none

/-- `DeletionResponse::deserialize`: an array of one entry. A second element is an error, whether or not it can be
read. -/
def deserializeDeletionResponse (expectedId : String) (i : List UInt8) : Option (List UInt8) :=
  match skipSpaces i with
  | [] => none
  | b :: r =>
      if b = 91 then do
        let (more, r) ← hasNextElement true r
        if more then do
          let r ← deserializeDeletionEntry expectedId r
          let (more, r) ← hasNextElement false r
          if more then none else expectByte 93 r
        else none
      else none

def parseDeletedAssignment (body : List UInt8) (assignmentId : Nat) : Except GlpiFailure Unit :=
  okOr (do
    let r ← deserializeDeletionResponse (String.ofList (decimal assignmentId)) body
    endOfInput r) .mutationFailed

/-! ## Responses -/

/-- Every failed reading of a creation response is a failed creation. -/
def readCreatedUser (response : RawResponse) : Except GlpiFailure Nat := do
  ensure (response.status = 201) .userCreationFailed
  (parseCreatedId response.body).mapError fun _ => .userCreationFailed

def readCreatedAssignment (response : RawResponse) : Except GlpiFailure Nat := do
  ensure (response.status = 201) .mutationFailed
  parseCreatedId response.body

def readDeletedAssignment (assignmentId : Nat) (response : RawResponse) : Except GlpiFailure Unit := do
  ensure (response.status = 200) .mutationFailed
  parseDeletedAssignment response.body.bytes assignmentId

/-! ## Requests -/

def createUser (config : ValidatedConfig) (session : GlpiSession) (username : String)
    (source : AuthenticationSource) : Instant → Io Nat :=
  exchange (.postUser username source) (sessionHeaders session config) readCreatedUser

def createAssignment (config : ValidatedConfig) (session : GlpiSession) (usersId profilesId entitiesId : Nat)
    (isRecursive : Bool) : Instant → Io Nat :=
  exchange (.postProfileUser usersId profilesId entitiesId isRecursive) (sessionHeaders session config)
    readCreatedAssignment

def deleteAssignment (config : ValidatedConfig) (session : GlpiSession) (assignmentId : Nat) : Instant → Io Unit :=
  exchange (.deleteProfileUser assignmentId) (sessionHeaders session config) (readDeletedAssignment assignmentId)

end PermissionSync.Glpi
