import PermissionSync.Auth.Authenticator
import PermissionSync.Base.Path

/-!
# The lifecycle of the process (`src/runtime/lifecycle.rs`)

Every step is atomic: a store or a load of a flag, a call of a method of `tokio::sync::Notify`, or the decision of a
poll. The futures of `Lifecycle::shutdown_started` are polled by their tasks, and one of them by each readiness probe.
-/

namespace PermissionSync.Runtime.Lifecycle

open PermissionSync.Base PermissionSync.Authenticator

/-! ## Waiting for the start of shutdown -/

/-- Where a future of `shutdown_started` is, and whether its `Notified` is completed. -/
inductive Waiter where
  | unpolled
  -- in a poll: after `notified()`, after `enable()`, and after the flag was read clear
  | created (completed : Bool)
  | enabled (completed : Bool)
  | waiting (completed : Bool)
  -- the poll has returned
  | pending (completed : Bool)
  | ready
deriving DecidableEq, Repr

/-- A poll begins. -/
def Waiter.poll : Waiter → Option Waiter
  | .unpolled => some (.created false)
  | .pending completed => some (.waiting completed)
  | _ => none

/-- The next step of the poll. -/
def Waiter.advance (shuttingDown : Bool) : Waiter → Option Waiter
  | .created completed => some (.enabled completed)
  | .enabled completed => some (if shuttingDown then .ready else .waiting completed)
  | .waiting completed => some (if completed then .ready else .pending completed)
  | _ => none

/-- `Notify::notify_waiters`. It completes what is enabled, and what is only created if `also` says so. -/
def Waiter.notify (also : Bool) : Waiter → Waiter
  | .created completed => .created (completed || also)
  | .enabled _ => .enabled true
  | .waiting _ => .waiting true
  | .pending _ => .pending true
  | waiter => waiter

/-! ## Probes -/

/-- Where a probe of `/readyz` is: between two polls, polling the first or the second branch of its `select!`, or
done. -/
inductive Probe where
  | idle
  | racing
  | evaluating
  | answered (status : Nat)
deriving DecidableEq, Repr

/-- The answer to the state of the verifier. -/
def readinessStatus : TrustedVerifierState → Nat
  | .usable => 200
  | .unusable => 503

/-- The biased `select!` looks at its first branch. -/
def Probe.race : Probe → Waiter → Option Probe
  | .racing, .ready => some (.answered (readinessStatus .unusable))
  | .racing, .pending _ => some .evaluating
  | _, _ => none

/-- The second branch is polled, and may be pending. -/
def Probe.evaluated : Probe → Option TrustedVerifierState → Option Probe
  | .evaluating, none => some .idle
  | .evaluating, some state => some (.answered (readinessStatus state))
  | _, _ => none

/-! ## The process -/

/-- A call of `begin_shutdown`: before its store, between the store and the notification, and after it. -/
inductive Call where
  | before
  | stored
  | returned
deriving DecidableEq, Repr

/-- `serve`, which calls `cancel_requests` in `shut_down_connections` only. -/
inductive Serve where
  | serving
  | shuttingDown
  | cancelStored
  | cancelled
deriving DecidableEq, Repr

/-- The flags, the calls of `begin_shutdown`, the futures of the tasks and of the probes, and the probes. -/
structure State (β κ π : Type) where
  shuttingDown : Bool
  requestsCancelled : Bool
  beginShutdown : β → Call
  serve : Serve
  waiters : κ ⊕ π → Waiter
  probes : π → Probe

variable {β κ π : Type}

/-- `Lifecycle::new`. -/
def State.new : State β κ π := ⟨false, false, fun _ => .before, .serving, fun _ => .unpolled, fun _ => .idle⟩

inductive Action (β κ π : Type) where
  | storeShuttingDown (call : β)
  | notifyShutdown (call : β) (also : κ ⊕ π → Bool)
  -- `serve` goes on to `shut_down_connections`: its future is ready, or its own call has returned
  | stopped (future : κ)
  | terminated (call : β)
  | storeRequestsCancelled
  | notifyCancelled (also : κ ⊕ π → Bool)
  | poll (future : κ ⊕ π)
  | advance (future : κ ⊕ π)
  | race (probe : π)
  | evaluated (probe : π) (state : Option TrustedVerifierState)

def State.notify (s : State β κ π) (also : κ ⊕ π → Bool) : κ ⊕ π → Waiter := fun w => (s.waiters w).notify (also w)

variable [DecidableEq β] [DecidableEq κ] [DecidableEq π]

/-- The future has come to the waiter. -/
def State.put (s : State β κ π) (w : κ ⊕ π) (waiter : Waiter) : State β κ π :=
  { s with waiters := Function.update s.waiters w waiter }

def State.next (s : State β κ π) : Action β κ π → Option (State β κ π)
  | .storeShuttingDown call =>
      if s.beginShutdown call = .before then
        some { s with shuttingDown := true, beginShutdown := Function.update s.beginShutdown call .stored }
      else none
  | .notifyShutdown call also =>
      if s.beginShutdown call = .stored then
        some { s with beginShutdown := Function.update s.beginShutdown call .returned, waiters := s.notify also }
      else none
  | .stopped future =>
      if s.serve = .serving ∧ s.waiters (.inl future) = .ready then some { s with serve := .shuttingDown } else none
  | .terminated call =>
      if s.serve = .serving ∧ s.beginShutdown call = .returned then some { s with serve := .shuttingDown } else none
  | .storeRequestsCancelled =>
      if s.serve = .shuttingDown then some { s with requestsCancelled := true, serve := .cancelStored } else none
  | .notifyCancelled also =>
      if s.serve = .cancelStored then some { s with serve := .cancelled, waiters := s.notify also } else none
  | .poll (.inl k) => (s.waiters (.inl k)).poll.map (s.put (.inl k))
  | .poll (.inr p) =>
      if s.probes p = .idle then
        (s.waiters (.inr p)).poll.map fun waiter =>
          { s.put (.inr p) waiter with probes := Function.update s.probes p .racing }
      else none
  | .advance w => ((s.waiters w).advance s.shuttingDown).map (s.put w)
  | .race p => ((s.probes p).race (s.waiters (.inr p))).map fun probe =>
      { s with probes := Function.update s.probes p probe }
  | .evaluated p state => ((s.probes p).evaluated state).map fun probe =>
      { s with probes := Function.update s.probes p probe }

/-- A step of the process. -/
def Step (s : State β κ π) (action : Action β κ π) (s' : State β κ π) : Prop := s.next action = some s'

end PermissionSync.Runtime.Lifecycle
