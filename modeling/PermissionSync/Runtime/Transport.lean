import PermissionSync.Base.Vec
import PermissionSync.Inbound.Handler
import PermissionSync.Runtime.Admission
import PermissionSync.Runtime.Capacity

/-!
# The synchronization route (`src/runtime/transport.rs`)

The body of a request is what its stream yields. Metrics other than the gauges, spans and the stage labels are left out.
-/

namespace PermissionSync.Runtime

open PermissionSync.Base PermissionSync.Core PermissionSync.Inbound PermissionSync.Orchestration

variable {ε : Type}

/-! ## The body -/

/-- What the body stream yields, until it ends. -/
inductive Frame where
  | data (bytes : List UInt8)
  | trailers
  | failed
deriving DecidableEq, Repr

def inboundBodyLimitBytes : Nat := 1048576

inductive CollectedBody where
  | collected (bytes : List UInt8)
  | boundExceeded
  | transportFailure
  | unavailable
deriving DecidableEq, Repr

/-- The next turn of the loop, if the context is available and the stream answers in time. -/
def nextFrame {β : Type} (context : SynchronizationContext) (stopped : β) (next : Io ε β) : Io ε β := do
  if ← unavailable context then
    pure stopped
  else if ← bodyFrame context.deadline then
    next
  else
    pure stopped

def collectBody (context : SynchronizationContext) : List Frame → List UInt8 → Io ε CollectedBody
  | [], collected => nextFrame context .unavailable (pure (.collected collected))
  | .failed :: _, _ => nextFrame context .unavailable (pure .transportFailure)
  | .trailers :: frames, collected => nextFrame context .unavailable (collectBody context frames collected)
  | .data bytes :: frames, collected => nextFrame context .unavailable <|
      if inboundBodyLimitBytes < collected.length + bytes.length then
        pure .boundExceeded
      else
        collectBody context frames (collected ++ bytes)

/-! ## The buffer of the body

The loop with the allocations of its buffer. The route is stated over the loop above, which only keeps the bytes. -/

namespace Buffered

/-- The capacity that is reserved when a frame does not fit. -/
def target (collected : Vec UInt8) (received : Nat) : Nat :=
  min (max (saturatingMul collected.capacity 2) received) inboundBodyLimitBytes

/-- The buffer with a data frame added, unless the limit is exceeded. -/
def receive (grow : Nat → Nat → Nat) (collected : Vec UInt8) (data : List UInt8) : Option (Vec UInt8) :=
  let received := saturatingAdd collected.len data.length
  if inboundBodyLimitBytes < received then none
  else
    let reserved :=
      if collected.capacity < received then collected.reserveExact (target collected received - collected.len)
      else collected
    some (reserved.extendFromSlice grow data)

/-- A turn of the loop that adds a data frame. -/
structure Turn where
  before : Vec UInt8
  data : List UInt8
  after : Vec UInt8

/-- The loop returns the turns in which it added a frame to its buffer, too. -/
def collectBody (grow : Nat → Nat → Nat) (context : SynchronizationContext) :
    List Frame → Vec UInt8 → List Turn → Io ε (CollectedBody × List Turn)
  | [], collected, turns => nextFrame context (.unavailable, turns) (pure (.collected collected.items, turns))
  | .failed :: _, _, turns => nextFrame context (.unavailable, turns) (pure (.transportFailure, turns))
  | .trailers :: frames, collected, turns =>
      nextFrame context (.unavailable, turns) (collectBody grow context frames collected turns)
  | .data bytes :: frames, collected, turns => nextFrame context (.unavailable, turns) <|
      match receive grow collected bytes with
      | none => pure (.boundExceeded, turns)
      | some after => collectBody grow context frames after (turns ++ [⟨collected, bytes, after⟩])

end Buffered

/-! ## The route -/

/-- A received request: its header fields and its body stream. -/
structure Request where
  headers : List HeaderField
  body : List Frame

/-- The response of the route: a status, or the marker that makes the connection fail without one. -/
inductive Response where
  | status (code : Nat)
  | connectionRefusal
deriving DecidableEq, Repr

/-- What the route borrows from the process: the JSON reader, whether a Provider is present, and the overall
deadline. -/
structure RuntimeState where
  read : JsonReader
  provider : Bool
  overallRequestDeadline : Nat

/-- A panic of the task. -/
inductive Panic where
  | instantOverflow
deriving DecidableEq, Repr

/-- The signal of `RequestCancellation`, which is the lifecycle's. -/
def lifecycleSignal : Nat := 0

def RuntimeState.synchronizer (state : RuntimeState) : Synchronizer := ⟨state.provider, semaphoreCapacity⟩

/-- What is done for an admitted request. -/
def handleAdmitted (state : RuntimeState) (request : Request) (context : SynchronizationContext) :
    Io ε HttpOutcome := do
  match ← collectBody context request.body [] with
  | .collected bytes => handle state.read state.synchronizer request.headers (.collected bytes) context
  | .boundExceeded => handle state.read state.synchronizer request.headers .boundExceeded context
  | .transportFailure => pure .invalidRequest
  | .unavailable => pure .cancelledOrExpired

def finish (outcome : HttpOutcome) : Response := .status outcome.statusCode

/-- `handle_synchronization`. The `AdmittedRequest` is dropped when it returns: its gauge first, then its permit. -/
def handleSynchronization (state : RuntimeState) (request : Request) (deadline : Instant) : Io ε Response := do
  match ← admitRequest deadline with
  | .notAdmitted => pure (finish .cancelledOrExpired)
  | .refusedWithoutWaiting => pure .connectionRefusal
  | .admitted =>
      let outcome ← handleAdmitted state request ⟨deadline, lifecycleSignal⟩
      leave .admittedRequest
      release .permits
      pure (finish outcome)

/-- `POST /api/sync-user`. The deadline is taken when the request reaches the route. -/
def synchronizeRoute (state : RuntimeState) (request : Request) : Io Panic Response := do
  let acceptedAt ← now
  match Glpi.Instant.checkedAdd acceptedAt state.overallRequestDeadline with
  | none => .fail .instantOverflow
  | some deadline => handleSynchronization state request deadline

end PermissionSync.Runtime
