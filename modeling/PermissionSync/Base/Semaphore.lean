import Mathlib

/-!
# Counting semaphores

A semaphore hands out permits. A client that finds none free may wait in the queue with a future; a permit that comes
back is assigned to a waiting future or becomes free. Permits and futures are given back when they are dropped.
Nothing here keeps a client from giving back what it does not own: conservation is proved for those that do not.
-/

namespace PermissionSync.Base

structure Semaphore (ι : Type) where
  free : Nat
  -- futures that wait, futures to which a permit is assigned, and owners of permits
  queue : List ι
  assigned : List ι
  owned : List ι

namespace Semaphore

variable {ι : Type} {s s' : Semaphore ι}

def new (size : Nat) : Semaphore ι := ⟨size, [], [], []⟩

/-- The permits there are. -/
def permits (s : Semaphore ι) : Nat := s.free + s.assigned.length + s.owned.length

/-- What a client does, with the answer. -/
inductive Call where
  | tryAcquire (obtained : Bool)
  | poll (obtained : Bool)
  | complete
  | abandon
  | release
deriving DecidableEq, Repr

variable [DecidableEq ι] {k : ι} {call : Call}

/-- A permit comes back: to the free ones, or to some future that waits. -/
inductive Returned : Semaphore ι → Semaphore ι → Prop where
  | freed {s : Semaphore ι} : Returned s { s with free := s.free + 1 }
  | assigned {s : Semaphore ι} {j : ι} : j ∈ s.queue →
      Returned s { s with queue := s.queue.erase j, assigned := j :: s.assigned }

/-- A call of the client. A future that is dropped gives back the permit assigned to it. -/
inductive Step (k : ι) : Semaphore ι → Call → Semaphore ι → Prop where
  | took {s : Semaphore ι} : 0 < s.free →
      Step k s (.tryAcquire true) { s with free := s.free - 1, owned := k :: s.owned }
  | refused {s : Semaphore ι} : s.free = 0 → Step k s (.tryAcquire false) s
  | polled {s : Semaphore ι} : 0 < s.free →
      Step k s (.poll true) { s with free := s.free - 1, owned := k :: s.owned }
  | queued {s : Semaphore ι} : s.free = 0 → Step k s (.poll false) { s with queue := k :: s.queue }
  | completed {s : Semaphore ι} : k ∈ s.assigned →
      Step k s .complete { s with assigned := s.assigned.erase k, owned := k :: s.owned }
  | withdrawn {s : Semaphore ι} : k ∉ s.assigned → Step k s .abandon { s with queue := s.queue.erase k }
  | returned {s s' : Semaphore ι} : k ∈ s.assigned → Returned { s with assigned := s.assigned.erase k } s' →
      Step k s .abandon s'
  | released {s s' : Semaphore ι} : Returned { s with owned := s.owned.erase k } s' → Step k s .release s'

/-! ## Conservation -/

theorem Returned.permits_eq (h : Returned s s') : s'.permits = s.permits + 1 := by
  cases h with
  | freed =>
      simp only [permits]
      omega
  | assigned _ =>
      simp only [permits, List.length_cons]
      omega

/-- Calls conserve the permits, if only an owner releases. -/
theorem Step.permits_eq (h : Step k s call s') (hrelease : call = .release → k ∈ s.owned) :
    s'.permits = s.permits := by
  cases h with
  | took hfree | polled hfree =>
      simp only [permits, List.length_cons]
      omega
  | refused _ => rfl
  | queued _ => rfl
  | completed hk =>
      have := List.length_pos_of_mem hk
      simp only [permits, List.length_cons, List.length_erase_of_mem hk]
      omega
  | withdrawn _ => rfl
  | returned hk hret =>
      have := List.length_pos_of_mem hk
      rw [hret.permits_eq]
      simp only [permits, List.length_erase_of_mem hk]
      omega
  | released hret =>
      have hk := hrelease rfl
      have := List.length_pos_of_mem hk
      rw [hret.permits_eq]
      simp only [permits, List.length_erase_of_mem hk]
      omega

/-! ## What a client has -/

/-- The futures of the client that have not completed. -/
def pendingOf (s : Semaphore ι) (k : ι) : Nat := s.queue.count k + s.assigned.count k

/-- The permits of the client after its call. -/
def Call.owned : Call → Nat → Nat
  | .tryAcquire true, n | .poll true, n | .complete, n => n + 1
  | .release, n => n - 1
  | .tryAcquire false, n | .poll false, n | .abandon, n => n

/-- The futures of the client after its call. -/
def Call.pending : Call → Nat → Nat
  | .poll false, n => n + 1
  | .complete, n | .abandon, n => n - 1
  | .tryAcquire _, n | .poll true, n | .release, n => n

theorem Returned.owned_eq (h : Returned s s') : s'.owned = s.owned := by
  cases h <;> rfl

theorem Returned.pendingOf_eq (h : Returned s s') (j : ι) : s'.pendingOf j = s.pendingOf j := by
  cases h with
  | freed => rfl
  | @assigned i hi =>
      simp only [pendingOf]
      by_cases hij : i = j
      · subst hij
        have := List.count_pos_iff.mpr hi
        rw [List.count_erase_self, List.count_cons_self]
        omega
      · rw [List.count_erase_of_ne (Ne.symm hij), List.count_cons_of_ne hij]

/-- A call changes what its client owns, and nothing of the others. -/
theorem Step.count_owned (h : Step k s call s') (j : ι) :
    s'.owned.count j = if j = k then call.owned (s.owned.count j) else s.owned.count j := by
  split
  case isTrue hj =>
      subst hj
      cases h with
      | took _ | polled _ | completed _ => exact List.count_cons_self
      | refused _ | queued _ | withdrawn _ => rfl
      | returned _ hret =>
          rw [hret.owned_eq]
          rfl
      | released hret =>
          rw [hret.owned_eq]
          exact List.count_erase_self
  case isFalse hj =>
      cases h with
      | took _ | polled _ | completed _ => exact List.count_cons_of_ne (Ne.symm hj)
      | refused _ | queued _ | withdrawn _ => rfl
      | returned _ hret => rw [hret.owned_eq]
      | released hret =>
          rw [hret.owned_eq]
          exact List.count_erase_of_ne hj

/-- A call changes the futures of its client, and of nobody else. -/
theorem Step.pendingOf_eq (h : Step k s call s') (j : ι) :
    s'.pendingOf j = if j = k then call.pending (s.pendingOf j) else s.pendingOf j := by
  split
  case isTrue hj =>
      subst hj
      cases h with
      | took _ | polled _ | refused _ => rfl
      | queued _ =>
          simp only [pendingOf, Call.pending, List.count_cons_self]
          omega
      | completed hk =>
          have := List.count_pos_iff.mpr hk
          simp only [pendingOf, Call.pending, List.count_erase_self]
          omega
      | withdrawn hk =>
          have := List.count_eq_zero.mpr hk
          simp only [pendingOf, Call.pending, List.count_erase_self]
          omega
      | returned hk hret =>
          have := List.count_pos_iff.mpr hk
          rw [hret.pendingOf_eq]
          simp only [pendingOf, Call.pending, List.count_erase_self]
          omega
      | released hret => exact hret.pendingOf_eq _
  case isFalse hj =>
      cases h with
      | took _ | polled _ | refused _ => rfl
      | queued _ => simp only [pendingOf, List.count_cons_of_ne (Ne.symm hj)]
      | completed _ => simp only [pendingOf, List.count_erase_of_ne hj]
      | withdrawn _ => simp only [pendingOf, List.count_erase_of_ne hj]
      | returned _ hret =>
          rw [hret.pendingOf_eq]
          simp only [pendingOf, List.count_erase_of_ne hj]
      | released hret => exact hret.pendingOf_eq _

/-! ## A semaphore that can be run -/

/-- A permit comes back to the first future of the queue. -/
def giveBack (s : Semaphore ι) : Semaphore ι :=
  match s.queue with
  | [] => { s with free := s.free + 1 }
  | j :: queue => { s with queue := queue, assigned := j :: s.assigned }

/-- The call of the client, if the semaphore answers it so. -/
def perform (k : ι) (s : Semaphore ι) : Call → Option (Semaphore ι)
  | .tryAcquire true | .poll true =>
      if 0 < s.free then some { s with free := s.free - 1, owned := k :: s.owned } else none
  | .tryAcquire false => if s.free = 0 then some s else none
  | .poll false => if s.free = 0 then some { s with queue := k :: s.queue } else none
  | .complete =>
      if k ∈ s.assigned then some { s with assigned := s.assigned.erase k, owned := k :: s.owned } else none
  | .abandon => some <|
      if k ∈ s.assigned then giveBack { s with assigned := s.assigned.erase k } else { s with queue := s.queue.erase k }
  | .release => some (giveBack { s with owned := s.owned.erase k })

theorem returned_giveBack (s : Semaphore ι) : Returned s s.giveBack := by
  obtain ⟨free, queue, assigned, owned⟩ := s
  cases queue with
  | nil => exact .freed
  | cons j queue =>
      have hmem : j ∈ j :: queue := List.mem_cons_self
      have hret := Returned.assigned (s := ⟨free, j :: queue, assigned, owned⟩) hmem
      rwa [List.erase_cons_head] at hret

theorem step_of_perform (h : s.perform k call = some s') : Step k s call s' := by
  match call with
  | .tryAcquire true =>
      obtain ⟨hfree, ⟨⟩⟩ := Option.ite_none_right_eq_some.mp h
      exact .took hfree
  | .poll true =>
      obtain ⟨hfree, ⟨⟩⟩ := Option.ite_none_right_eq_some.mp h
      exact .polled hfree
  | .tryAcquire false =>
      obtain ⟨hfree, ⟨⟩⟩ := Option.ite_none_right_eq_some.mp h
      exact .refused hfree
  | .poll false =>
      obtain ⟨hfree, ⟨⟩⟩ := Option.ite_none_right_eq_some.mp h
      exact .queued hfree
  | .complete =>
      obtain ⟨hk, ⟨⟩⟩ := Option.ite_none_right_eq_some.mp h
      exact .completed hk
  | .abandon =>
      cases h
      split
      case isTrue hk => exact .returned hk (returned_giveBack _)
      case isFalse hk => exact .withdrawn hk
  | .release =>
      cases h
      exact .released (returned_giveBack _)

end Semaphore

end PermissionSync.Base
