import PermissionSync.Auth.Authenticator
import PermissionSync.Base.Interleave

/-!
# The calls of one authenticator

Any number of calls act on the cache behind its `tokio::sync::RwLock` and on the refresh mutex. A call follows its
program, and its future may be dropped where it awaits: the guards that it holds are then dropped, the latest first.
-/

namespace PermissionSync.Authenticator

open PermissionSync.Auth PermissionSync.Base PermissionSync.Core

variable {ι K V α : Type}

/-! ## Calls -/

inductive Call where
  | authenticate (request : AuthenticationRequest)
  | trustedVerifierState (context : SynchronizationContext)
  | ensureTrustedVerifierState (context : SynchronizationContext)

inductive Answer where
  | caller (caller : AuthenticatedTechnicalCaller)
  | state (state : TrustedVerifierState)

def Call.context : Call → SynchronizationContext
  | .authenticate request => request.context
  | .trustedVerifierState context | .ensureTrustedVerifierState context => context

def Call.program (lib : Libraries K V) (config : Config) : Call → Io V Answer
  | .authenticate request => do
      let caller ← Authenticator.authenticate lib config request
      pure (.caller caller)
  | .trustedVerifierState context => do
      let state ← Authenticator.trustedVerifierState config context
      pure (.state state)
  | .ensureTrustedVerifierState context => do
      let state ← Authenticator.ensureTrustedVerifierState lib config context
      pure (.state state)

/-! ## What a call holds -/

/-- How far the refresh of a call has come. -/
inductive Stage (V : Type) where
  | before
  | locked
  | fetching
  | fetched
  | writing (cache : Option (Snapshot V))
  | stored
  | written
  | after
deriving DecidableEq

/-- What a call keeps of its operations: the stage of its refresh, its read guard, and the last tick since it took the
mutex. -/
structure Local (V : Type) where
  stage : Stage V
  reading : Bool
  ticked : Option Instant

def Local.after (loc : Local V) : Event (auth V) → Local V
  | ⟨.tick, instant⟩ => { loc with ticked := some instant }
  | ⟨.readCache _, some _⟩ => { loc with reading := true }
  | ⟨.dropRead, _⟩ => { loc with reading := false }
  | ⟨.lockRefresh _, true⟩ => { loc with stage := .locked, ticked := none }
  | ⟨.fetchStarted, _⟩ => { loc with stage := .fetching }
  | ⟨.fetchEnded, _⟩ => { loc with stage := .fetched }
  | ⟨.writeCache _, some cache⟩ => { loc with stage := .writing cache }
  | ⟨.store _, _⟩ => { loc with stage := .stored }
  | ⟨.dropWrite, _⟩ => { loc with stage := .written }
  | ⟨.dropRefresh, _⟩ => { loc with stage := .after }
  | _ => loc

def Local.start : Local V := ⟨.before, false, none⟩

def localOf (t : Trace V) : Local V := t.foldl Local.after .start

/-- The guards that are dropped with a future, the latest first. -/
def Stage.drops : Stage V → Trace V
  | .before | .after => []
  | .locked | .fetched | .written => [⟨.dropRefresh, ()⟩]
  | .fetching => [⟨.fetchEnded, ()⟩, ⟨.dropRefresh, ()⟩]
  | .writing _ | .stored => [⟨.dropWrite, ()⟩, ⟨.dropRefresh, ()⟩]

def Local.drops (loc : Local V) : Trace V :=
  if loc.reading then ⟨.dropRead, ()⟩ :: loc.stage.drops else loc.stage.drops

/-- The operations in which a call awaits. -/
def Awaits : Op V → Prop
  | .readCache _ | .writeCache _ | .lockRefresh _ | .request _ _ | .frame _ => True
  | _ => False

/-- A call performs the operations of its program, until it ends or its future is dropped. -/
inductive Follows (p : Io V α) : Trace V → Prop where
  | ended {t : Trace V} {r : Except AuthenticationError α} : Run p t r → Follows p t
  | pending {t : Trace V} {o : Op V} : Asks p t o → Follows p t
  | dropped {t dropped : Trace V} {o : Op V} :
      Asks p t o → Awaits o → dropped <+: (localOf t).drops → Follows p (t ++ dropped)

/-! ## The shared state -/

structure Shared (ι V : Type) where
  clock : Instant
  cache : Option (Snapshot V)
  -- who holds a read guard or the write guard of the cache, and the refresh mutex
  readers : List ι
  writer : Option ι
  refresher : Option ι

/-- `TechnicalCallerAuthenticator::new`. -/
def Shared.new (clock : Instant) : Shared ι V := ⟨clock, none, [], none, none⟩

/-- The answers that the state allows. A wait ends by its deadline only when that has passed. -/
def Observes (s : Shared ι V) : Event (auth V) → Prop
  | ⟨.now, instant⟩ => instant = s.clock
  | ⟨.tick, instant⟩ => instant = s.clock
  | ⟨.readCache deadline, none⟩ => deadline ≤ s.clock
  | ⟨.readCache _, some cache⟩ => s.writer = none ∧ cache = s.cache
  | ⟨.writeCache deadline, none⟩ => deadline ≤ s.clock
  | ⟨.writeCache _, some cache⟩ => s.readers = [] ∧ s.writer = none ∧ cache = s.cache
  | ⟨.lockRefresh deadline, false⟩ => deadline ≤ s.clock
  | ⟨.lockRefresh _, true⟩ => s.refresher = none
  | ⟨.request _ deadline, none⟩ => deadline ≤ s.clock
  | ⟨.frame deadline, false⟩ => deadline ≤ s.clock
  | _ => True

variable [DecidableEq ι]

/-- What an operation of a call does to the state. -/
def Shared.perform (s : Shared ι V) (k : ι) : Event (auth V) → Shared ι V
  | ⟨.readCache _, some _⟩ => { s with readers := k :: s.readers }
  | ⟨.dropRead, _⟩ => { s with readers := s.readers.erase k }
  | ⟨.writeCache _, some _⟩ => { s with writer := some k }
  | ⟨.store snapshot, _⟩ => { s with cache := some snapshot }
  | ⟨.dropWrite, _⟩ => { s with writer := none }
  | ⟨.lockRefresh _, true⟩ => { s with refresher := some k }
  | ⟨.dropRefresh, _⟩ => { s with refresher := none }
  | _ => s

/-- A call performs an operation, or time passes. -/
inductive step : Shared ι V → Act ι (auth V) → Shared ι V → Prop where
  | own {s : Shared ι V} {k : ι} {e : Event (auth V)} : Observes s e → step s (.own k e) (s.perform k e)
  | other {s : Shared ι V} {instant : Instant} : s.clock ≤ instant → step s .other { s with clock := instant }

/-- The calls have followed their programs on the way from one state to another. -/
structure Execution (lib : Libraries K V) (config : Config) (calls : ι → Call) (s : Shared ι V)
    (acts : List (Act ι (auth V))) (s' : Shared ι V) : Prop where
  path : Path step s acts s'
  follows : ∀ k, Follows ((calls k).program lib config) (eventsOf k acts)

/-- The call is an authentication that has ended with the result. -/
structure Returned (lib : Libraries K V) (config : Config) (call : Call) (request : AuthenticationRequest) (t : Trace V)
    (r : Except AuthenticationError AuthenticatedTechnicalCaller) : Prop where
  call : call = .authenticate request
  run : Run (Authenticator.authenticate lib config request) t r

/-! ## Calls that can be run -/

instance decidableObserves [DecidableEq V] (s : Shared ι V) : (e : Event (auth V)) → Decidable (Observes s e)
  | ⟨.now, instant⟩ => inferInstanceAs (Decidable (instant = s.clock))
  | ⟨.tick, instant⟩ => inferInstanceAs (Decidable (instant = s.clock))
  | ⟨.readCache deadline, none⟩ => inferInstanceAs (Decidable (deadline ≤ s.clock))
  | ⟨.readCache _, some cache⟩ => inferInstanceAs (Decidable (s.writer = none ∧ cache = s.cache))
  | ⟨.writeCache deadline, none⟩ => inferInstanceAs (Decidable (deadline ≤ s.clock))
  | ⟨.writeCache _, some cache⟩ => inferInstanceAs (Decidable (s.readers = [] ∧ s.writer = none ∧ cache = s.cache))
  | ⟨.lockRefresh deadline, false⟩ => inferInstanceAs (Decidable (deadline ≤ s.clock))
  | ⟨.lockRefresh _, true⟩ => inferInstanceAs (Decidable (s.refresher = none))
  | ⟨.request _ deadline, none⟩ => inferInstanceAs (Decidable (deadline ≤ s.clock))
  | ⟨.frame deadline, false⟩ => inferInstanceAs (Decidable (deadline ≤ s.clock))
  | ⟨.isCancelled _, _⟩ | ⟨.unixSeconds, _⟩ | ⟨.dropRead, _⟩ | ⟨.dropWrite, _⟩ | ⟨.store _, _⟩ | ⟨.dropRefresh, _⟩
  | ⟨.fetchStarted, _⟩ | ⟨.fetchEnded, _⟩ | ⟨.request _ _, some _⟩ | ⟨.frame _, true⟩ => .isTrue trivial

/-- One step, where time passes by one nanosecond. -/
def Shared.next [DecidableEq V] (s : Shared ι V) : Act ι (auth V) → Option (Shared ι V)
  | .own k e => if Observes s e then some (s.perform k e) else none
  | .other => some { s with clock := s.clock + 1 }

theorem step_of_next [DecidableEq V] {s s' : Shared ι V} {act : Act ι (auth V)} (h : s.next act = some s') :
    step s act s' := by
  cases act with
  | other =>
      cases h
      exact .other (Nat.le_succ _)
  | own k e =>
      obtain ⟨hobserves, ⟨⟩⟩ := Option.ite_none_right_eq_some.mp h
      exact .own hobserves

end PermissionSync.Authenticator
