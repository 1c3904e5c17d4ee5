import PermissionSync.Base.Numeral
import PermissionSync.Base.Program
import PermissionSync.Base.Result
import PermissionSync.Wire.Json

/-!
# What the GLPI adapter sees of the world

The adapter polls the cancellation signal, reads the monotonic clock and sends requests through
`transport::request`. A request is its method and path with the parameters and the body fields; its answer is the
failure of the transport or a status with a body. The base address and the TLS connector are the same for every
request and are left out.
-/

namespace PermissionSync.Glpi

open PermissionSync.Base PermissionSync.Wire

/-- `error::GlpiFailure`. -/
inductive GlpiFailure where
  | cancelled
  | deadlineExceeded
  | runtimeUnavailable
  | unsupportedEnvelopeVersion
  | invalidPayload
  | transport
  | responseBody
  | responseTooLarge
  | sessionInitFailed
  | incompleteVisibility
  | searchMetadataUnavailable
  | searchPagination
  | ambiguousReference
  | missingReference
  | malformedReference
  | userCreationFailed
  | mutationFailed
  | verificationFailed
  | cleanupFailed
deriving DecidableEq, Repr

/-! ## Requests -/

inductive Itemtype where
  | entity
  | profile
  | user
  | profileUser
deriving DecidableEq, Repr

/-- `config::GlpiAuthenticationSource`. -/
inductive AuthenticationSource where
  | default
  | explicit (authtype authsId : Int)
deriving DecidableEq, Repr

/-- The query of one `search/:itemtype` request: one `contains` criterion, ascending order. -/
structure SearchQuery where
  itemtype : Itemtype
  rangeStart : Nat
  rangeEnd : Nat
  criterionField : Nat
  criterionValue : String
  sort : Nat
  isDeleted : Option Bool
  forcedisplay : List Nat
deriving DecidableEq, Repr

inductive Request where
  | initSession
  | changeActiveEntities
  | getFullSession
  | killSession
  | listSearchOptions (itemtype : Itemtype)
  | search (query : SearchQuery)
  | getProfileUser (id : Nat)
  | postUser (name : String) (source : AuthenticationSource)
  | postProfileUser (usersId profilesId entitiesId : Nat) (isRecursive : Bool)
  | deleteProfileUser (id : Nat)
deriving DecidableEq, Repr

abbrev Headers := List (String × String)

/-- `std::time::Instant`, in nanoseconds. -/
abbrev Instant := Nat

/-- The arguments of one call of `transport::request`. -/
structure Outbound where
  request : Request
  headers : Headers
  deadline : Instant
deriving DecidableEq

/-- `transport::RawResponse`. -/
structure RawResponse where
  status : Nat
  body : Text

/-! ## Operations -/

inductive Op where
  | isCancelled
  | now
  | request (call : Outbound)
deriving DecidableEq

/-- The operations of the adapter with their answers. -/
def glpi : Interface where
  Op := Op
  Ans
    | .isCancelled => Bool
    | .now => Instant
    | .request _ => Except GlpiFailure RawResponse

instance : DecidableEq glpi.Op := inferInstanceAs (DecidableEq Op)

abbrev Io := Prog glpi GlpiFailure

abbrev Trace := List (Event glpi)

def isCancelled : Io Bool := Prog.ask (I := glpi) .isCancelled

def now : Io Instant := Prog.ask (I := glpi) .now

/-- `transport::request`. -/
def send (call : Outbound) : Io RawResponse := do
  let answer ← Prog.ask (I := glpi) (.request call)
  .lift answer

/-! ## Configuration and context -/

/-- `config::ValidatedConfig`. -/
structure ValidatedConfig where
  appToken : String
  userToken : String
  operationTimeout : Nat
  authenticationSource : AuthenticationSource

/-- `SynchronizationContext`: the overall deadline; the cancellation signal is polled. -/
structure SynchronizationContext where
  deadline : Instant

/-- One more than the largest `Instant`, whose seconds are a signed 64-bit integer. -/
def instantBound : Nat := 2 ^ 63 * 10 ^ 9

/-- `Instant::checked_add`. -/
def Instant.checkedAdd (t : Instant) (d : Nat) : Option Instant := if t + d < instantBound then some (t + d) else none

/-- The deadline of an operation that starts at `t`. -/
def operationDeadline (context : SynchronizationContext) (operationTimeout : Nat) (t : Instant) : Instant :=
  min context.deadline ((Instant.checkedAdd t operationTimeout).getD context.deadline)

def effectiveDeadline (context : SynchronizationContext) (operationTimeout : Nat) : Io Instant := do
  if ← isCancelled then
    .fail .cancelled
  else
    let t ← now
    if context.deadline ≤ t then
      .fail .deadlineExceeded
    else
      pure (operationDeadline context operationTimeout t)

def checkContext (deadline : Instant) : Io Unit := do
  if ← isCancelled then
    .fail .cancelled
  else
    let t ← now
    if deadline ≤ t then
      .fail .deadlineExceeded
    else
      pure ()

/-- One request: its headers, the call, and the reading of the response. -/
def exchange {α : Type} (request : Request) (headers : Except GlpiFailure Headers)
    (read : RawResponse → Except GlpiFailure α) (deadline : Instant) : Io α := do
  let headers ← .lift headers
  let response ← send { request := request, headers := headers, deadline := deadline }
  .lift (read response)

end PermissionSync.Glpi
