import PermissionSync.Core.Interface

/-!
# Inbound admission (`src/runtime/admission.rs`)
-/

namespace PermissionSync.Runtime

open PermissionSync.Base PermissionSync.Core

variable {ε : Type}

/-- `Admission`. An admitted request holds its permit and an `AdmittedRequest`. -/
inductive Admission where
  | admitted
  | notAdmitted
  | refusedWithoutWaiting
deriving DecidableEq, Repr

/-- Shutdown has begun, or else the deadline has passed. -/
def closedFor (deadline : Instant) : Io ε Bool := do
  if ← isShuttingDown then
    pure true
  else
    let t ← now
    pure (decide (deadline ≤ t))

/-- `InboundAdmission::finalize`: whether the permit that was acquired admits its request. -/
def finalize (deadline : Instant) : Io ε Admission := do
  if ← closedFor deadline then
    release .permits
    pure .notAdmitted
  else
    enter .admittedRequest
    pure .admitted

/-- The biased `select!` of `admit`: whether a permit was obtained. Its first poll reads the flag, then polls the
semaphore; the `acquire_owned` future that loses is dropped. -/
def selectPermit (deadline : Instant) : Io ε Bool := do
  if ← isShuttingDown then
    pure false
  else if ← pollAcquire .permits then
    pure true
  else
    match ← selectWoken deadline with
    | .granted => pure true
    | .shutdownStarted | .expired =>
        dropAcquire .permits
        pure false

/-- `InboundAdmission::admit`. -/
def admitRequest (deadline : Instant) : Io ε Admission := do
  if ← closedFor deadline then
    pure .notAdmitted
  else if ← tryAcquireOwned .permits then
    finalize deadline
  else if ← tryAcquireOwned .waiters then
    enter .waitingGuard
    let obtained ← selectPermit deadline
    leave .waitingGuard
    release .waiters
    if obtained then
      finalize deadline
    else
      pure .notAdmitted
  else
    pure .refusedWithoutWaiting

end PermissionSync.Runtime
