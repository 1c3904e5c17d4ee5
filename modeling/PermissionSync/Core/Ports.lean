import PermissionSync.Glpi.Adapter

/-!
# The core types and ports (`permissionsync-core`)

The context of a request is its deadline and its cancellation signal. A signal is known only by its identity, and is
polled where the source polls it. An opaque payload is its raw JSON text.
-/

namespace PermissionSync.Core

export PermissionSync.Glpi (Instant ReconciliationOutcome)

/-! ## Logical targets -/

def isEdgeCharacter (c : Char) : Bool := c.isLower || c.isDigit

def isInnerCharacter (c : Char) : Bool := isEdgeCharacter c || c = '.' || c = '_' || c = '-'

/-- The checks of `LogicalTarget::try_from`. Every accepted character is one byte long. -/
def isLogicalTarget (value : String) : Bool :=
  let cs := value.toList
  !cs.isEmpty && cs.length ≤ 64 && cs.head?.any isEdgeCharacter && cs.getLast?.any isEdgeCharacter &&
    (cs.length ≤ 2 || (cs.tail.dropLast).all isInnerCharacter)

/-- `LogicalTarget`: an identifier of the inbound target grammar. -/
structure LogicalTarget where
  value : String
  valid : isLogicalTarget value = true
deriving DecidableEq

def LogicalTarget.tryFrom (value : String) : Option LogicalTarget :=
  if h : isLogicalTarget value = true then some ⟨value, h⟩ else none

/-! ## Requests of the ports -/

/-- `SynchronizationContext`. -/
structure SynchronizationContext where
  deadline : Instant
  cancellation : Nat
deriving DecidableEq

structure IdentityContext where
  username : String
  groups : List String
deriving DecidableEq

structure DesiredStateEnvelope where
  version : Nat
  payload : String
deriving DecidableEq

structure PermissionProviderRequest where
  identity : IdentityContext
  target : LogicalTarget
  technicalCallerBearerToken : String
  context : SynchronizationContext
deriving DecidableEq

structure TargetAdapterRequest where
  identity : IdentityContext
  desiredState : DesiredStateEnvelope
  context : SynchronizationContext
deriving DecidableEq

/-- `PermissionProviderError`, whose source nobody reads. -/
inductive PermissionProviderError where
  | failed
deriving DecidableEq

/-- `TargetAdapterError`, whose source nobody reads. -/
inductive TargetAdapterError where
  | failed
deriving DecidableEq

end PermissionSync.Core
