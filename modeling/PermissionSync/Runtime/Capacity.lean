import PermissionSync.Orchestration.Synchronizer

/-!
# Synchronization capacity (`src/runtime/capacity.rs`)
-/

namespace PermissionSync.Runtime

open PermissionSync.Base PermissionSync.Core PermissionSync.Orchestration

/-- The permit of `SemaphoreCapacity::acquire`: a free one, or one awaited until the deadline. -/
def awaitPermit (deadline : Instant) : Io SynchronizationCapacityError Unit := do
  if ← tryAcquireOwned .capacity then
    pure ()
  else if ← pollAcquire .capacity then
    pure ()
  else if ← acquiredUntil deadline then
    pure ()
  else
    dropAcquire .capacity
    .fail .unavailable

/-- `SemaphoreCapacity`. Dropping a `HeldPermit` decrements its gauge and then drops the permit. -/
def semaphoreCapacity : Capacity where
  acquire context := do
    if ← unavailable context then
      .fail .unavailable
    else
      awaitPermit context.deadline
      if ← unavailable context then
        release .capacity
        .fail .unavailable
      else
        enter .heldPermit
  dropPermit := do
    leave .heldPermit
    release .capacity

end PermissionSync.Runtime
