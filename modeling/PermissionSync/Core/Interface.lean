import PermissionSync.Auth.Types
import PermissionSync.Base.Program

/-!
# What a synchronization request sees of the world

A request polls its cancellation signal and the monotonic clock, calls the ports, and shares semaphores, gauges and the
lifecycle flags with the other requests. Where the source awaits, the operation is answered when the wait ends.
-/

namespace PermissionSync.Core

open PermissionSync.Base PermissionSync.Auth

/-- `AdapterIdentifier`, which stands for the adapter registered under it. -/
abbrev AdapterIdentifier := String

inductive TargetResolutionError where
  | unknownLogicalTarget
  | unavailableAdapter (identifier : AdapterIdentifier)
deriving DecidableEq

/-- `SynchronizationCapacityError`. -/
inductive SynchronizationCapacityError where
  | unavailable
deriving DecidableEq

/-- The semaphores of the process: `InboundAdmission::permits`, `InboundAdmission::waiters` and
`SemaphoreCapacity::permits`. -/
inductive Sem where
  | permits
  | waiters
  | capacity
deriving DecidableEq, Repr

/-- The values whose lifetime a gauge counts. -/
inductive Guard where
  | waitingGuard
  | admittedRequest
  | heldPermit
deriving DecidableEq, Repr

/-- What ends the pending `select!` of `admit`. -/
inductive Woken where
  | shutdownStarted
  | granted
  | expired
deriving DecidableEq, Repr

inductive Op where
  | isCancelled (signal : Nat)
  | now
  | isShuttingDown
  -- `tokio::sync::Semaphore`
  | tryAcquireOwned (sem : Sem)
  | pollAcquire (sem : Sem)
  | selectWoken (deadline : Instant)
  | acquiredUntil (deadline : Instant)
  | dropAcquire (sem : Sem)
  | release (sem : Sem)
  -- values counted by a gauge
  | enter (guard : Guard)
  | leave (guard : Guard)
  -- the next frame of the body, awaited until the deadline
  | bodyFrame (deadline : Instant)
  -- ports
  | authenticate (credential : Option String) (context : SynchronizationContext)
  | resolveTarget (target : LogicalTarget)
  | acquire (context : SynchronizationContext)
  | dropPermit
  | resolve (request : PermissionProviderRequest)
  | reconcile (adapter : AdapterIdentifier) (request : TargetAdapterRequest)
deriving DecidableEq

/-- The operations of a request with their answers. The awaits with a deadline answer whether it did not expire. -/
def service : Interface where
  Op := Op
  Ans
    | .isCancelled _ => Bool
    | .now => Instant
    | .isShuttingDown => Bool
    | .tryAcquireOwned _ => Bool
    | .pollAcquire _ => Bool
    | .selectWoken _ => Woken
    | .acquiredUntil _ => Bool
    | .dropAcquire _ => Unit
    | .release _ => Unit
    | .enter _ => Unit
    | .leave _ => Unit
    | .bodyFrame _ => Bool
    | .authenticate _ _ => Except AuthenticationError AuthenticatedTechnicalCaller
    | .resolveTarget _ => Except TargetResolutionError AdapterIdentifier
    | .acquire _ => Except SynchronizationCapacityError Unit
    | .dropPermit => Unit
    | .resolve _ => Except PermissionProviderError DesiredStateEnvelope
    | .reconcile _ _ => Except TargetAdapterError ReconciliationOutcome

instance : DecidableEq service.Op := inferInstanceAs (DecidableEq Op)

abbrev Io := Prog service

abbrev Trace := List (Event service)

variable {ε : Type}

abbrev isCancelled (signal : Nat) : Io ε Bool := Prog.ask (I := service) (.isCancelled signal)

abbrev now : Io ε Instant := Prog.ask (I := service) .now

abbrev isShuttingDown : Io ε Bool := Prog.ask (I := service) .isShuttingDown

/-- `Semaphore::try_acquire_owned`: whether a permit was free. -/
abbrev tryAcquireOwned (sem : Sem) : Io ε Bool := Prog.ask (I := service) (.tryAcquireOwned sem)

/-- The first poll of `acquire_owned`: whether a permit was free, or else the future joins the queue. -/
abbrev pollAcquire (sem : Sem) : Io ε Bool := Prog.ask (I := service) (.pollAcquire sem)

/-- The pending `select!` of `admit` ends. -/
abbrev selectWoken (deadline : Instant) : Io ε Woken := Prog.ask (I := service) (.selectWoken deadline)

/-- The pending `timeout_at` around the `acquire_owned` of the capacity ends: whether with a permit. -/
abbrev acquiredUntil (deadline : Instant) : Io ε Bool := Prog.ask (I := service) (.acquiredUntil deadline)

/-- A pending `acquire_owned` future is dropped. -/
abbrev dropAcquire (sem : Sem) : Io ε Unit := Prog.ask (I := service) (.dropAcquire sem)

/-- An `OwnedSemaphorePermit` is dropped. -/
abbrev release (sem : Sem) : Io ε Unit := Prog.ask (I := service) (.release sem)

/-- A counted value is created, and its gauge incremented. -/
abbrev enter (guard : Guard) : Io ε Unit := Prog.ask (I := service) (.enter guard)

/-- A counted value is dropped, and its gauge decremented. -/
abbrev leave (guard : Guard) : Io ε Unit := Prog.ask (I := service) (.leave guard)

/-- `timeout_at(deadline, body.frame())`: whether the stream answered in time. -/
abbrev bodyFrame (deadline : Instant) : Io ε Bool := Prog.ask (I := service) (.bodyFrame deadline)

abbrev authenticate (credential : Option String) (context : SynchronizationContext) :
    Io ε (Except AuthenticationError AuthenticatedTechnicalCaller) :=
  Prog.ask (I := service) (.authenticate credential context)

abbrev resolveTarget (target : LogicalTarget) : Io ε (Except TargetResolutionError AdapterIdentifier) :=
  Prog.ask (I := service) (.resolveTarget target)

abbrev acquire (context : SynchronizationContext) : Io ε (Except SynchronizationCapacityError Unit) :=
  Prog.ask (I := service) (.acquire context)

abbrev dropPermit : Io ε Unit := Prog.ask (I := service) .dropPermit

abbrev resolve (request : PermissionProviderRequest) : Io ε (Except PermissionProviderError DesiredStateEnvelope) :=
  Prog.ask (I := service) (.resolve request)

abbrev reconcile (adapter : AdapterIdentifier) (request : TargetAdapterRequest) :
    Io ε (Except TargetAdapterError ReconciliationOutcome) :=
  Prog.ask (I := service) (.reconcile adapter request)

/-- Whether the context is cancelled, or else its deadline has passed. -/
def unavailable (context : SynchronizationContext) : Io ε Bool := do
  if ← isCancelled context.cancellation then
    pure true
  else
    let t ← now
    pure (decide (context.deadline ≤ t))

end PermissionSync.Core
