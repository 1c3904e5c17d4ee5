import PermissionSync.Base.Interleave
import PermissionSync.Base.Semaphore
import PermissionSync.Runtime.Transport

/-!
# The process that the requests share

Any number of requests act on the semaphores, the gauges and the lifecycle flags (`src/runtime/lifecycle.rs`). A request
follows its program, and its future may be dropped: what it holds is then given back in the order of Rust's drops, which
is the inverse of the order in which it was obtained.
-/

namespace PermissionSync.Runtime

open PermissionSync.Base PermissionSync.Core

/-! ## What a request holds -/

/-- A value that gives something back when it is dropped. -/
inductive Item where
  | own (sem : Sem)
  | pending (sem : Sem)
  | live (guard : Guard)
deriving DecidableEq, Repr

/-- What an operation changes for the other requests. -/
inductive Effect where
  | none
  | sem (sem : Sem) (call : Semaphore.Call)
  | enter (guard : Guard)
  | leave (guard : Guard)
deriving DecidableEq, Repr

def wokenEffect : Woken → Effect
  | .granted => .sem .permits .complete
  | .shutdownStarted | .expired => .none

def effect : Event service → Effect
  | ⟨.tryAcquireOwned sem, obtained⟩ => .sem sem (.tryAcquire obtained)
  | ⟨.pollAcquire sem, obtained⟩ => .sem sem (.poll obtained)
  | ⟨.selectWoken _, woken⟩ => wokenEffect woken
  | ⟨.acquiredUntil _, acquired⟩ => bif acquired then .sem .capacity .complete else .none
  | ⟨.dropAcquire sem, _⟩ => .sem sem .abandon
  | ⟨.release sem, _⟩ => .sem sem .release
  | ⟨.enter guard, _⟩ => .enter guard
  | ⟨.leave guard, _⟩ => .leave guard
  | _ => .none

/-- What the request holds afterwards, the latest first. -/
def Effect.items : Effect → List Item → List Item
  | .none, held => held
  | .sem x (.tryAcquire true), held | .sem x (.poll true), held => .own x :: held
  | .sem _ (.tryAcquire false), held => held
  | .sem x (.poll false), held => .pending x :: held
  | .sem x .complete, held => .own x :: held.erase (.pending x)
  | .sem x .abandon, held => held.erase (.pending x)
  | .sem x .release, held => held.erase (.own x)
  | .enter guard, held => .live guard :: held
  | .leave guard, held => held.erase (.live guard)

/-- What a request holds after its operations. -/
def hold (t : Trace) : List Item := t.foldl (fun held e => (effect e).items held) []

/-- Dropping a value. -/
def Item.drop : Item → Event service
  | .own sem => ⟨.release sem, ()⟩
  | .pending sem => ⟨.dropAcquire sem, ()⟩
  | .live guard => ⟨.leave guard, ()⟩

/-! ## The shared state -/

structure Process (ι : Type) where
  clock : Instant
  shuttingDown : Bool
  -- `Notify::notify_waiters` has been called
  notified : Bool
  requestsCancelled : Bool
  sem : Sem → Semaphore ι
  -- the requests that have a live value, and the gauge that counts the values
  live : Guard → List ι
  gauge : Guard → Int

/-- `waiter_slots`. -/
def waiterSlots (inboundAdmissionLimit : Nat) : Nat := inboundAdmissionLimit

/-- How many permits each semaphore is created with. -/
def semSize (limit capacity : Nat) : Sem → Nat
  | .permits => limit
  | .waiters => waiterSlots limit
  | .capacity => capacity

/-- A process that has started to serve. -/
def Process.start {ι : Type} (clock : Instant) (limit capacity : Nat) : Process ι where
  clock := clock
  shuttingDown := false
  notified := false
  requestsCancelled := false
  sem x := .new (semSize limit capacity x)
  live _ := []
  gauge _ := 0

variable {ι ε α : Type} [DecidableEq ι]

/-- The answers that the state allows. A wait ends by its deadline only when that has passed. -/
def Observes (s : Process ι) : Event service → Prop
  | ⟨.isCancelled signal, cancelled⟩ => signal = lifecycleSignal → cancelled = s.requestsCancelled
  | ⟨.now, instant⟩ => instant = s.clock
  | ⟨.isShuttingDown, answer⟩ => answer = s.shuttingDown
  | ⟨.selectWoken deadline, woken⟩ =>
      (woken = Woken.shutdownStarted → s.notified = true) ∧ (woken = Woken.expired → deadline ≤ s.clock)
  | ⟨.acquiredUntil deadline, acquired⟩ => acquired = false → deadline ≤ s.clock
  | ⟨.bodyFrame deadline, answered⟩ => answered = false → deadline ≤ s.clock
  | _ => True

/-- What an operation of a request does to the state. -/
inductive Affects (k : ι) : Process ι → Effect → Process ι → Prop where
  | none {s : Process ι} : Affects k s .none s
  | sem {s : Process ι} {x : Sem} {call : Semaphore.Call} {sem' : Semaphore ι} :
      Semaphore.Step k (s.sem x) call sem' → Affects k s (.sem x call) { s with sem := Function.update s.sem x sem' }
  | enter {s : Process ι} {g : Guard} : Affects k s (.enter g) { s with
      live := Function.update s.live g (k :: s.live g)
      gauge := Function.update s.gauge g (s.gauge g + 1) }
  | leave {s : Process ι} {g : Guard} : Affects k s (.leave g) { s with
      live := Function.update s.live g ((s.live g).erase k)
      gauge := Function.update s.gauge g (s.gauge g - 1) }

/-- A step of the process. `begin_shutdown` and `cancel_requests` are a store followed by a notification. -/
inductive Label (ι : Type) where
  | tick (instant : Instant)
  | storeShuttingDown
  | storeRequestsCancelled
  | notifyWaiters
  | own (client : ι) (event : Event service)

inductive step : Process ι → Label ι → Process ι → Prop where
  | tick {s : Process ι} {instant : Instant} : s.clock ≤ instant → step s (.tick instant) { s with clock := instant }
  | storeShuttingDown {s : Process ι} : step s .storeShuttingDown { s with shuttingDown := true }
  | storeRequestsCancelled {s : Process ι} : step s .storeRequestsCancelled { s with requestsCancelled := true }
  | notifyWaiters {s : Process ι} : step s .notifyWaiters { s with notified := true }
  | own {s s' : Process ι} {k : ι} {e : Event service} : Observes s e → Affects k s (effect e) s' → step s (.own k e) s'

/-! ## Executions -/

def Label.act : Label ι → Act ι service
  | .own k e => .own k e
  | _ => .other

/-- The operations of one request. -/
def events (k : ι) (labels : List (Label ι)) : Trace := eventsOf k (labels.map Label.act)

/-- The trace is a part of a run of the program from its start. -/
def Reaches (p : Io ε α) (t : Trace) : Prop := (∃ r, Run p t r) ∨ ∃ o, Asks p t o

/-- A request performs the operations of its program, until its future is dropped. -/
def Follows (p : Io ε α) (t : Trace) : Prop :=
  ∃ t₁ dropped, Reaches p t₁ ∧ dropped <+: (hold t₁).map Item.drop ∧ t = t₁ ++ dropped

/-- The requests have followed their programs on the way from one state to another. -/
structure Execution (p : ι → Io ε α) (s : Process ι) (labels : List (Label ι)) (s' : Process ι) : Prop where
  path : Path step s labels s'
  follows : ∀ k, Follows (p k) (events k labels)

/-! ## A process that can be run -/

/-- Whether an answer of a given type is allowed. -/
def decideAnswer {β : Type} (allowed : β → Prop) [DecidablePred allowed] (answer : β) : Decidable (allowed answer) :=
  inferInstance

instance (s : Process ι) (e : Event service) : Decidable (Observes s e) :=
  match e with
  | ⟨.isCancelled signal, cancelled⟩ =>
      decideAnswer (fun c : Bool => signal = lifecycleSignal → c = s.requestsCancelled) cancelled
  | ⟨.now, instant⟩ => decideAnswer (fun n : Instant => n = s.clock) instant
  | ⟨.isShuttingDown, answer⟩ => decideAnswer (fun a : Bool => a = s.shuttingDown) answer
  | ⟨.selectWoken deadline, woken⟩ =>
      decideAnswer (fun w : Woken => (w = .shutdownStarted → s.notified = true) ∧ (w = .expired → deadline ≤ s.clock))
        woken
  | ⟨.acquiredUntil deadline, acquired⟩ => decideAnswer (fun a : Bool => a = false → deadline ≤ s.clock) acquired
  | ⟨.bodyFrame deadline, answered⟩ => decideAnswer (fun a : Bool => a = false → deadline ≤ s.clock) answered
  | ⟨.tryAcquireOwned _, _⟩ | ⟨.pollAcquire _, _⟩ | ⟨.dropAcquire _, _⟩ | ⟨.release _, _⟩ | ⟨.enter _, _⟩
  | ⟨.leave _, _⟩ | ⟨.authenticate _ _, _⟩ | ⟨.resolveTarget _, _⟩ | ⟨.acquire _, _⟩ | ⟨.dropPermit, _⟩
  | ⟨.resolve _, _⟩ | ⟨.reconcile _ _, _⟩ => inferInstanceAs (Decidable True)

def Process.affect (k : ι) (s : Process ι) : Effect → Option (Process ι)
  | .none => some s
  | .sem x call => ((s.sem x).perform k call).map fun sem' => { s with sem := Function.update s.sem x sem' }
  | .enter g => some { s with
      live := Function.update s.live g (k :: s.live g)
      gauge := Function.update s.gauge g (s.gauge g + 1) }
  | .leave g => some { s with
      live := Function.update s.live g ((s.live g).erase k)
      gauge := Function.update s.gauge g (s.gauge g - 1) }

/-- One step, with semaphores that serve the first future of their queue. -/
def Process.next (s : Process ι) : Label ι → Option (Process ι)
  | .tick instant => if s.clock ≤ instant then some { s with clock := instant } else none
  | .storeShuttingDown => some { s with shuttingDown := true }
  | .storeRequestsCancelled => some { s with requestsCancelled := true }
  | .notifyWaiters => some { s with notified := true }
  | .own k e => if Observes s e then s.affect k (effect e) else none

theorem affects_of_affect {k : ι} {s s' : Process ι} {effect : Effect} (h : s.affect k effect = some s') :
    Affects k s effect s' := by
  cases effect with
  | none | enter g | leave g =>
      cases h
      constructor
  | sem x call =>
      obtain ⟨sem', hsem, rfl⟩ := Option.map_eq_some_iff.mp h
      exact .sem (Semaphore.step_of_perform hsem)

theorem step_of_next {s s' : Process ι} {label : Label ι} (h : s.next label = some s') : step s label s' := by
  cases label with
  | tick instant =>
      obtain ⟨hle, ⟨⟩⟩ := Option.ite_none_right_eq_some.mp h
      exact .tick hle
  | storeShuttingDown | storeRequestsCancelled | notifyWaiters =>
      cases h
      constructor
  | own k e =>
      obtain ⟨hobs, haffect⟩ := Option.ite_none_right_eq_some.mp h
      exact .own hobs (affects_of_affect haffect)

theorem path_of_next {s s' : Process ι} {labels : List (Label ι)} (h : labels.foldlM Process.next s = some s') :
    Path step s labels s' :=
  path_of_foldlM (fun _ _ _ => step_of_next) h

end PermissionSync.Runtime
