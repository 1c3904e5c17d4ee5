import PermissionSync.Runtime.Lemmas.Conservation

/-!
# Bounded inbound admission

Whatever the requests do and whenever their futures are dropped, the admitted and the waiting requests stay within the
configured limit, no permit or waiter slot is lost, and the gauges are exact.
-/

namespace PermissionSync.Runtime

open PermissionSync.Base PermissionSync.Core

variable {ι : Type} [DecidableEq ι] {s : Process ι} {labels : List (Label ι)} {clock : Instant} {limit capacity : Nat}
  {state : RuntimeState} {request : ι → Request}

/-- The futures that are parked in the wait list of the permits. -/
def parked (s : Process ι) : List ι := (s.sem .permits).queue ++ (s.sem .permits).assigned

/-- The body of the request is being collected: a frame is awaited, or will be after checks of the context. -/
def Collecting {ε α : Type} (p : Io ε α) (t : Trace) : Prop :=
  ∃ checks deadline, (∀ e ∈ checks, Polls e) ∧ Asks p (t ++ checks) (.bodyFrame deadline)

namespace Invariant

variable {size : Sem → Nat} {t : ι → Trace}

theorem nodup_parked (hi : Invariant size t s) : (parked s).Nodup := by
  rw [List.nodup_iff_count_le_one]
  intro k
  rw [parked, List.count_append]
  have hpending : (s.sem .permits).pendingOf k ≤ 1 :=
    hi.accounts.pending k .permits ▸ List.nodup_iff_count_le_one.mp (hi.fits k).nodup _
  exact hpending

/-- A parked request keeps its waiting guard. -/
theorem parked_subset (hi : Invariant size t s) : parked s ⊆ s.live .waitingGuard :=
  fun _ hk => hi.mem_live.mpr ((hi.fits _).support_mem (hi.mem_waiting.mp hk) rfl)

end Invariant

/-- In every reachable state, at most `limit` requests are admitted and at most `limit` wait. The permits are conserved,
and a request that is gone keeps none. -/
theorem admission_bounded
    (hex : Execution (fun k => synchronizeRoute state (request k)) (.start clock limit capacity) labels s) :
    ((s.live .admittedRequest).Nodup ∧ (s.live .admittedRequest).length ≤ limit) ∧
      ((parked s).Nodup ∧ parked s ⊆ s.live .waitingGuard ∧ (s.live .waitingGuard).Nodup ∧
        (s.live .waitingGuard).length ≤ limit) ∧
      (s.live .admittedRequest).length + (s.live .waitingGuard).length ≤ 2 * limit ∧
      (∀ x, x = .permits ∨ x = .waiters →
        (s.sem x).free + ((s.sem x).assigned.length + (s.sem x).owned.length) = limit) ∧
      (∀ k, Gone (synchronizeRoute state (request k)) (events k labels) →
        ∀ x, k ∉ (s.sem x).owned ∧ k ∉ (s.sem x).assigned ∧ k ∉ (s.sem x).queue) ∧
      (∀ k, Collecting (synchronizeRoute state (request k)) (events k labels) → k ∈ s.live .admittedRequest) ∧
      s.gauge .admittedRequest = (s.live .admittedRequest).length ∧
      s.gauge .waitingGuard = (s.live .waitingGuard).length := by
  have htidy (k) := tidy_synchronizeRoute state (request k)
  have hi := hex.invariant htidy
  have hadmitted : (s.live .admittedRequest).length ≤ limit := hi.live_length_le .admittedRequest
  have hwaiting : (s.live .waitingGuard).length ≤ limit := hi.live_length_le .waitingGuard
  refine ⟨⟨hi.nodup_live _, hadmitted⟩, ⟨hi.nodup_parked, hi.parked_subset, hi.nodup_live _, hwaiting⟩, by omega,
    fun x hx => ?_, fun k hgone x => ?_, fun k hcollecting => ?_, hi.conserved.gauge _, hi.conserved.gauge _⟩
  · have hpermits := hi.conserved.permits x
    have hsize : semSize limit capacity x = limit := by rcases hx with rfl | rfl <;> rfl
    rw [Semaphore.permits, hsize] at hpermits
    omega
  · obtain ⟨howned, hwaits, _⟩ := hi.not_mem_of_hold_nil ((htidy k).hold_of_gone hgone) x .admittedRequest
    rw [List.mem_append, not_or] at hwaits
    exact ⟨howned, hwaits.2, hwaits.1⟩
  · obtain ⟨checks, deadline, hpolls, hasks⟩ := hcollecting
    obtain ⟨_, hsituated⟩ := (htidy k).situated_of_asks hasks
    have hlive : .live .admittedRequest ∈ hold (events k labels ++ checks) := hsituated.placed
    rw [hold_append_polls hpolls] at hlive
    exact hi.mem_live.mpr hlive

/-! A process with one permit: a request is admitted, and another one is parked. -/

def sampleState : RuntimeState := ⟨fun _ => none, true, 10⟩

def sampleRequest (_ : Bool) : Request := ⟨[], []⟩

/-- The operations with which a request enters `admit`. -/
def arrival : Trace := [⟨.now, (0 : Nat)⟩, ⟨.isShuttingDown, false⟩, ⟨.now, (0 : Nat)⟩]

def admittedTrace : Trace :=
  arrival ++ [⟨.tryAcquireOwned .permits, true⟩, ⟨.isShuttingDown, false⟩, ⟨.now, (0 : Nat)⟩,
    ⟨.enter .admittedRequest, ()⟩, ⟨.isCancelled 0, false⟩, ⟨.now, (0 : Nat)⟩]

def parkedTrace : Trace :=
  arrival ++ [⟨.tryAcquireOwned .permits, false⟩, ⟨.tryAcquireOwned .waiters, true⟩, ⟨.enter .waitingGuard, ()⟩,
    ⟨.isShuttingDown, false⟩, ⟨.pollAcquire .permits, false⟩]

def sampleLabels : List (Label Bool) := admittedTrace.map (.own true) ++ parkedTrace.map (.own false)

/-- The state that the sample leads to. -/
def sampleProcess : Option (Process Bool) := sampleLabels.foldlM Process.next (.start 0 1 1)

theorem sample_follows (k : Bool) :
    Follows (synchronizeRoute sampleState (sampleRequest k)) (events k sampleLabels) := by
  cases k with
  | true => exact ⟨admittedTrace, [], Or.inr ⟨.bodyFrame 10, asks_of_pending rfl⟩, List.nil_prefix, rfl⟩
  | false => exact ⟨parkedTrace, [], Or.inr ⟨.selectWoken 10, asks_of_pending rfl⟩, List.nil_prefix, rfl⟩

theorem sample_reached : ∃ s, sampleProcess = some s ∧ s.live .admittedRequest = [true] ∧ parked s = [false] :=
  ⟨_, rfl, rfl, rfl⟩

theorem sample_bounded : ∃ s, sampleProcess = some s ∧ s.live .admittedRequest = [true] ∧ parked s = [false] ∧
    (s.live .admittedRequest).length + (s.live .waitingGuard).length ≤ 2 * 1 := by
  obtain ⟨s, hs, hadmitted, hparked⟩ := sample_reached
  exact ⟨s, hs, hadmitted, hparked, (admission_bounded ⟨path_of_next hs, sample_follows⟩).2.2.1⟩

end PermissionSync.Runtime
