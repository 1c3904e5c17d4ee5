import PermissionSync.Core.Interface

/-!
# Selected-target synchronization (`permissionsync-orchestration/src/synchronizer.rs`)
-/

namespace PermissionSync.Orchestration

open PermissionSync.Base PermissionSync.Core PermissionSync.Auth

inductive SelectedTargetSynchronizationError where
  | cancelled
  | unknownTarget
  | targetUnavailable
  | capacityUnavailable
  | providerFailed
  | adapterFailed
deriving DecidableEq, Repr

structure SelectedTargetSynchronizationRequest where
  identity : IdentityContext
  target : LogicalTarget
  technicalCallerBearerToken : String
  context : SynchronizationContext
deriving DecidableEq

/-- `SynchronizationCapacity`: how a permit is acquired, and what dropping it does. -/
structure Capacity where
  acquire : SynchronizationContext → Io SynchronizationCapacityError Unit
  dropPermit : Io SelectedTargetSynchronizationError Unit

/-- A capacity of which nothing is known. -/
def Capacity.port : Capacity where
  acquire context := do
    let answer ← Core.acquire context
    .lift answer
  dropPermit := Core.dropPermit

/-- `SelectedTargetSynchronizer`. The router and the Provider are reached by operations; a Provider is present or
not. -/
structure Synchronizer where
  provider : Bool
  capacity : Capacity

def isCancelledOrExpired (context : SynchronizationContext) : Io SelectedTargetSynchronizationError Bool :=
  unavailable context

def failIfCancelled (context : SynchronizationContext) : Io SelectedTargetSynchronizationError Unit := do
  if ← isCancelledOrExpired context then
    .fail .cancelled
  else
    pure ()

/-- `TargetRouter::resolve`, with the failures of the synchronization. -/
def resolveAdapter (target : LogicalTarget) : Io SelectedTargetSynchronizationError AdapterIdentifier := do
  match ← resolveTarget target with
  | .ok adapter => pure adapter
  | .error .unknownLogicalTarget => .fail .unknownTarget
  | .error (.unavailableAdapter _) => .fail .targetUnavailable

/-- What is done while the permit is held. -/
def withPermit (adapter : AdapterIdentifier) (request : SelectedTargetSynchronizationRequest) :
    Io SelectedTargetSynchronizationError ReconciliationOutcome := do
  failIfCancelled request.context
  let resolution ← resolve ⟨request.identity, request.target, request.technicalCallerBearerToken, request.context⟩
  let desiredState ← .lift (resolution.mapError fun _ => .providerFailed)
  failIfCancelled request.context
  let reconciliation ← reconcile adapter ⟨request.identity, desiredState, request.context⟩
  let outcome ← .lift (reconciliation.mapError fun _ => .adapterFailed)
  failIfCancelled request.context
  pure outcome

/-- `SelectedTargetSynchronizer::synchronize`. The permit is dropped when the function returns. -/
def synchronize (synchronizer : Synchronizer) (request : SelectedTargetSynchronizationRequest) :
    Io SelectedTargetSynchronizationError ReconciliationOutcome := do
  failIfCancelled request.context
  let adapter ← resolveAdapter request.target
  failIfCancelled request.context
  if synchronizer.provider then
    let acquired ← (synchronizer.capacity.acquire request.context).attempt
    .lift (acquired.mapError fun _ => .capacityUnavailable)
    let outcome ← (withPermit adapter request).attempt
    synchronizer.capacity.dropPermit
    .lift outcome
  else
    .fail .providerFailed

end PermissionSync.Orchestration
