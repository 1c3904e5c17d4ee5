import PermissionSync.Runtime.Configuration
import PermissionSync.Runtime.Process

/-!
# The server (`src/runtime/mod.rs`)

`serve` accepts connections until shutdown begins or the listener is unusable, and then shuts the connections down in
bounded phases. The task that waits for a termination signal and the tasks of the connections run beside it. A timer
does not fire before its duration has passed.
-/

namespace PermissionSync.Runtime

open PermissionSync.Base PermissionSync.Core

/-- How a failed `accept` has to be handled. -/
inductive AcceptFailure where
  | transient
  | resourcePressure
  | listenerUnusable
deriving DecidableEq, Repr

def maxConsecutiveAcceptFailures : Nat := 16

def acceptResourcePressureBackoff : Duration := fromMillis 100

def cancelledRequestWindow : Duration := fromMillis 1000

/-- Whether one more failure of the listener ends the loop. -/
def acceptFailureIsFatal (consecutiveFailures : Nat) : Bool :=
  maxConsecutiveAcceptFailures ≤ consecutiveFailures + 1

/-- Where `serve` is. -/
inductive Phase where
  | accepting (consecutiveFailures : Nat)
  | acceptBackoff (consecutiveFailures : Nat) (deadline : Instant)
  -- `terminate_after_fatal_accept_failure`, before the store of `begin_shutdown` and after it
  | terminating
  | announcing
  -- `shut_down_connections`: called, draining, and after the end of the grace period
  | shuttingDown
  | draining (deadline : Instant)
  | graceExpired
  | cancelling
  | drainingCancelled (deadline : Instant)
  | aborting
  | ended
deriving DecidableEq, Repr

/-- `signal_shutdown`: before the store of `begin_shutdown`, after it, and after the notification. -/
inductive SignalTask where
  | waiting
  | announcing
  | ended
deriving DecidableEq, Repr

structure Server (ι κ : Type) where
  process : Process ι
  phase : Phase
  signal : SignalTask
  -- the connections whose tasks have not ended
  connections : List κ

/-- A step of the server. -/
inductive Move (ι κ : Type) where
  | tick (instant : Instant)
  | request (client : ι) (event : Event service)
  | terminationSignal
  | signalNotifies
  | accepted (connection : κ)
  | acceptFailed (failure : AcceptFailure)
  | backoffElapsed
  | shutdownStarted
  | beginShutdown
  | notifyShutdown
  | startGrace
  | connectionEnded (connection : κ)
  | drained
  | graceElapsed
  | cancelRequests
  | notifyCancelled
  | windowElapsed

variable {ι κ : Type}

/-- What a step of the server does to the process. -/
def Move.label : Move ι κ → Option (Label ι)
  | .tick instant => some (.tick instant)
  | .request k e => some (.own k e)
  | .terminationSignal | .beginShutdown => some .storeShuttingDown
  | .signalNotifies | .notifyShutdown | .notifyCancelled => some .notifyWaiters
  | .cancelRequests => some .storeRequestsCancelled
  | _ => none

def labels (moves : List (Move ι κ)) : List (Label ι) := moves.filterMap Move.label

theorem labels_append (moves moves' : List (Move ι κ)) : labels (moves ++ moves') = labels moves ++ labels moves' :=
  List.filterMap_append ..

/-- Where `serve` is after a step. -/
def Server.nextPhase (grace : Duration) (s : Server ι κ) : Move ι κ → Option Phase
  | .accepted _ => match s.phase with
      | .accepting _ => some (.accepting 0)
      | _ => none
  | .acceptFailed failure => match failure, s.phase with
      | .transient, .accepting n => some (.accepting n)
      | .resourcePressure, .accepting n => some (.acceptBackoff n (s.process.clock + acceptResourcePressureBackoff))
      | .listenerUnusable, .accepting n => some (if acceptFailureIsFatal n then .terminating else .accepting (n + 1))
      | _, _ => none
  | .backoffElapsed => match s.phase with
      | .acceptBackoff n deadline => if deadline ≤ s.process.clock then some (.accepting n) else none
      | _ => none
  -- `shutdown_started` returns if the flag is set, or when it is notified
  | .shutdownStarted => match s.phase with
      | .accepting _ | .acceptBackoff _ _ =>
          if s.process.shuttingDown || s.process.notified then some .shuttingDown else none
      | _ => none
  | .beginShutdown => if s.phase = .terminating then some .announcing else none
  | .notifyShutdown => if s.phase = .announcing then some .shuttingDown else none
  | .startGrace => if s.phase = .shuttingDown then some (.draining (s.process.clock + grace)) else none
  | .drained => match s.phase with
      | .draining _ | .drainingCancelled _ | .aborting => if s.connections.isEmpty then some .ended else none
      | _ => none
  | .graceElapsed => match s.phase with
      | .draining deadline => if deadline ≤ s.process.clock then some .graceExpired else none
      | _ => none
  | .cancelRequests => if s.phase = .graceExpired then some .cancelling else none
  | .notifyCancelled =>
      if s.phase = .cancelling then some (.drainingCancelled (s.process.clock + cancelledRequestWindow)) else none
  | .windowElapsed => match s.phase with
      | .drainingCancelled deadline => if deadline ≤ s.process.clock then some .aborting else none
      | _ => none
  | .tick _ | .request _ _ | .terminationSignal | .signalNotifies | .connectionEnded _ => some s.phase

def Server.nextSignal (s : Server ι κ) : Move ι κ → Option SignalTask
  | .terminationSignal => if s.signal = .waiting then some .announcing else none
  | .signalNotifies => if s.signal = .announcing then some .ended else none
  | _ => some s.signal

/-- A request is served by the task of its connection. -/
def Server.nextConnections [DecidableEq κ] (connection : ι → κ) (s : Server ι κ) : Move ι κ → Option (List κ)
  | .accepted c => if c ∈ s.connections then none else some (c :: s.connections)
  | .connectionEnded c => if c ∈ s.connections then some (s.connections.erase c) else none
  | .request k _ => if connection k ∈ s.connections then some s.connections else none
  | _ => some s.connections

variable [DecidableEq ι] [DecidableEq κ]

/-- The process performs the label, if there is one. -/
def Performs (p : Process ι) : Option (Label ι) → Process ι → Prop
  | none, p' => p' = p
  | some label, p' => step p label p'

structure Server.Step (grace : Duration) (connection : ι → κ) (s : Server ι κ) (m : Move ι κ) (s' : Server ι κ) : Prop
    where
  phase : s.nextPhase grace m = some s'.phase
  signal : s.nextSignal m = some s'.signal
  connections : s.nextConnections connection m = some s'.connections
  process : Performs s.process m.label s'.process

/-- A server that is about to accept. -/
def Server.start (clock : Instant) (configuration : ExecutableConfiguration) : Server ι κ where
  process := .start clock configuration.inboundAdmissionLimit configuration.synchronizationCapacity
  phase := .accepting 0
  signal := .waiting
  connections := []

/-- What the routes borrow. -/
def runtimeState (configuration : ExecutableConfiguration) (read : Inbound.JsonReader) (provider : Bool) :
    RuntimeState :=
  ⟨read, provider, configuration.overallRequestDeadline⟩

/-! ## A server that can be run -/

def Process.perform (p : Process ι) : Option (Label ι) → Option (Process ι)
  | none => some p
  | some label => p.next label

def Server.next (grace : Duration) (connection : ι → κ) (s : Server ι κ) (m : Move ι κ) : Option (Server ι κ) :=
  match s.process.perform m.label, s.nextPhase grace m, s.nextSignal m, s.nextConnections connection m with
  | some process, some phase, some signal, some connections => some ⟨process, phase, signal, connections⟩
  | _, _, _, _ => none

theorem performs_of_perform {p p' : Process ι} {label : Option (Label ι)} (h : p.perform label = some p') :
    Performs p label p' := by
  cases label with
  | none =>
      cases h
      rfl
  | some label => exact step_of_next h

theorem Server.step_of_next {grace : Duration} {connection : ι → κ} {s s' : Server ι κ} {m : Move ι κ}
    (h : s.next grace connection m = some s') : s.Step grace connection m s' := by
  unfold Server.next at h
  split at h
  · rename_i hprocess hphase hsignal hconnections
    cases h
    exact ⟨hphase, hsignal, hconnections, performs_of_perform hprocess⟩
  · cases h

theorem Server.path_of_next {grace : Duration} {connection : ι → κ} {s s' : Server ι κ} {moves : List (Move ι κ)}
    (h : moves.foldlM (Server.next grace connection) s = some s') : Path (Server.Step grace connection) s moves s' :=
  path_of_foldlM (fun _ _ _ => Server.step_of_next) h

end PermissionSync.Runtime
