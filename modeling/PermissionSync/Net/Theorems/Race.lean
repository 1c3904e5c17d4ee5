import PermissionSync.Net.Race

/-!
# The first usable address wins
-/

namespace PermissionSync.Net

variable {ε : Type} {failure : Bool → Bool → ε} {ipv4 ipv6 : Pending}

/-- The family after so many polls. -/
def Pending.family (pending : Pending) (n : Nat) : Family :=
  if n ≤ pending.polls then .start (.running (pending.polls - n) pending.outcome)
  else ⟨.completed, true, pending.outcome.address, pending.outcome.timedOut⟩

theorem Pending.family_zero (pending : Pending) : pending.family 0 = .start pending.query := by
  simp [Pending.family, Pending.query]

theorem Pending.poll_family (pending : Pending) (n : Nat) :
    (pending.family n).poll = some (pending.family (n + 1)) := by
  rcases Nat.lt_trichotomy n pending.polls with hlt | heq | hgt
  · obtain ⟨m, hm⟩ : ∃ m, pending.polls - n = m + 1 := ⟨pending.polls - n - 1, by omega⟩
    have hm' : pending.polls - (n + 1) = m := by omega
    simp [Pending.family, hlt.le, hlt, hm, hm', Family.poll, Family.start, Query.poll]
  · simp [Pending.family, ← heq, Family.poll, Family.start, Query.poll]
  · simp [Pending.family, hgt.not_ge, (hgt.trans (Nat.lt_succ_self n)).not_ge, Family.poll]

theorem Pending.address_family (pending : Pending) (n : Nat) :
    (pending.family n).address = if n ≤ pending.polls then none else pending.outcome.address := by
  unfold Pending.family
  split <;> rfl

theorem Pending.done_family (pending : Pending) (n : Nat) : (pending.family n).done = decide (pending.polls < n) := by
  unfold Pending.family
  split
  · simp [Family.start, *]
  · simp [*] at *
    assumption

theorem Pending.timedOut_family {pending : Pending} {n : Nat} (h : pending.polls < n) :
    (pending.family n).timedOut = pending.outcome.timedOut := by
  simp [Pending.family, h.not_ge]

/-- The race after so many polls. -/
def raceAfter (ipv4 ipv6 : Pending) (n : Nat) : Race := ⟨ipv4.family n, ipv6.family n⟩

theorem poll_raceAfter (ipv4 ipv6 : Pending) (n : Nat) :
    (raceAfter ipv4 ipv6 n).poll = some (raceAfter ipv4 ipv6 (n + 1)) := by
  simp [raceAfter, Race.poll, Pending.poll_family]

theorem ready_raceAfter (ipv4 ipv6 : Pending) (n : Nat) (h : n ≤ (outcome failure ipv4 ipv6).1 + 1) :
    (raceAfter ipv4 ipv6 n).ready failure =
      if (outcome failure ipv4 ipv6).1 < n then some (outcome failure ipv4 ipv6).2 else none := by
  have hclassified : ∀ pending : Pending, (pending.family n).done →
      (pending.family n).timedOut = pending.outcome.timedOut :=
    fun pending hdone => pending.timedOut_family (by simpa [Pending.done_family] using hdone)
  have h4 := hclassified ipv4
  have h6 := hclassified ipv6
  simp only [Race.ready, raceAfter, outcome, Pending.address_family, Pending.done_family] at h h4 h6 ⊢
  -- the families are looked at by whether their queries have an address
  generalize (ipv4.family n).timedOut = timedOut4 at h4 ⊢
  generalize (ipv6.family n).timedOut = timedOut6 at h6 ⊢
  obtain ⟨polls4, address4, _⟩ := ipv4
  obtain ⟨polls6, address6, _⟩ := ipv6
  cases address4 <;> cases address6 <;> grind

theorem await_raceAfter (ipv4 ipv6 : Pending) (k n : Nat) (h : k ≤ (outcome failure ipv4 ipv6).1) :
    (raceAfter ipv4 ipv6 k).await failure n =
      some (if (outcome failure ipv4 ipv6).1 < k + n then some (outcome failure ipv4 ipv6).2 else none) := by
  induction n generalizing k with
  | zero => simp [Race.await, h]
  | succ n ih =>
      rw [Race.await, poll_raceAfter]
      simp only [ready_raceAfter ipv4 ipv6 (k + 1) (Nat.succ_le_succ h)]
      by_cases hk : (outcome failure ipv4 ipv6).1 < k + 1
      · simp [hk, show (outcome failure ipv4 ipv6).1 < k + (n + 1) by omega]
      · simp only [hk, if_false]
        rw [ih (k + 1) (by omega), show k + 1 + n = k + (n + 1) by omega]

/-- Whichever polls the two queries complete in, no completed query is polled again, and the race ends in the first poll
that has an address, or in which the second query completes without one. -/
theorem await_start (failure : Bool → Bool → ε) (ipv4 ipv6 : Pending) (n : Nat) :
    (Race.start ipv4.query ipv6.query).await failure n =
      some (if (outcome failure ipv4 ipv6).1 < n then some (outcome failure ipv4 ipv6).2 else none) := by
  have h := await_raceAfter ipv4 ipv6 0 n (Nat.zero_le (outcome failure ipv4 ipv6).1)
  rw [Nat.zero_add] at h
  rwa [raceAfter, Pending.family_zero, Pending.family_zero] at h

end PermissionSync.Net
