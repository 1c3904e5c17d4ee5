import PermissionSync.Base.Trace
import PermissionSync.Core.Interface

/-!
# Checks of the context
-/

namespace PermissionSync.Core

open PermissionSync.Base

variable {ε α : Type} {context : SynchronizationContext} {t t₁ t₂ : Trace}

/-- An operation of a check: a poll of the signal or a reading of the clock. -/
def Polls (e : Event service) : Prop := (∃ signal, e.op = .isCancelled signal) ∨ e.op = .now

/-- The event observed cancellation or expiry. -/
def Stops (context : SynchronizationContext) : Event service → Prop
  | ⟨.isCancelled _, cancelled⟩ => cancelled = true
  | ⟨.now, instant⟩ => context.deadline ≤ instant
  | _ => False

/-- No check of the trace observed cancellation or expiry. -/
def Clear (context : SynchronizationContext) (t : Trace) : Prop := ∀ e ∈ t, ¬ Stops context e

@[simp] theorem clear_nil : Clear context [] := by simp [Clear]

@[simp] theorem clear_append : Clear context (t₁ ++ t₂) ↔ Clear context t₁ ∧ Clear context t₂ := by
  simp only [Clear, List.mem_append, or_imp, forall_and]

@[simp] theorem clear_cons {e : Event service} : Clear context (e :: t) ↔ ¬ Stops context e ∧ Clear context t := by
  simp [Clear]

/-- A check polls the signal, and reads the clock unless the request is cancelled. -/
theorem run_unavailable {r : Except ε Bool} :
    Run (unavailable context) t r ↔
      (t = [⟨.isCancelled context.cancellation, true⟩] ∧ r = .ok true) ∨
        ∃ n : Instant, t = [⟨.isCancelled context.cancellation, false⟩, ⟨.now, n⟩] ∧
          r = .ok (decide (context.deadline ≤ n)) := by
  refine run_ask_bind.trans ?_
  constructor
  · intro h
    obtain ⟨cancelled, t', rfl, h⟩ := h
    cases cancelled with
    | true =>
        obtain ⟨rfl, rfl⟩ := run_pure.mp h
        exact Or.inl ⟨rfl, rfl⟩
    | false =>
        obtain ⟨n, t'', rfl, hclock⟩ := run_ask_bind.mp h
        obtain ⟨rfl, rfl⟩ := run_pure.mp hclock
        exact Or.inr ⟨n, rfl, rfl⟩
  · intro h
    rcases h with ⟨rfl, rfl⟩ | ⟨n, rfl, rfl⟩
    · exact ⟨true, [], rfl, run_pure.mpr ⟨rfl, rfl⟩⟩
    · exact ⟨false, _, rfl, run_ask_bind.mpr ⟨n, [], rfl, run_pure.mpr ⟨rfl, rfl⟩⟩⟩

/-- What a check does: it only polls, and if it finds the context available it observed nothing. -/
theorem polls_of_unavailable {r : Except ε Bool} (h : Run (unavailable context) t r) :
    (∀ e ∈ t, Polls e) ∧ ∃ stopped, r = .ok stopped ∧ (stopped = false ↔ Clear context t) := by
  rcases run_unavailable.mp h with ⟨rfl, rfl⟩ | ⟨n, rfl, rfl⟩
  · refine ⟨fun e he => ?_, true, rfl, fun hfalse => (by cases hfalse), fun hclear => ?_⟩
    · cases List.mem_singleton.mp he
      exact Or.inl ⟨_, rfl⟩
    · exact absurd rfl (hclear _ List.mem_cons_self)
  · refine ⟨fun e he => ?_, _, rfl, ?_⟩
    · rcases List.mem_pair.mp he with rfl | rfl
      · exact Or.inl ⟨_, rfl⟩
      · exact Or.inr rfl
    · simp [Stops]

theorem Holds.unavailable {G : Trace → Event service → Prop} {h : Trace} {R : Except ε Bool → Trace → Prop}
    (hG : ∀ h e, Polls e → G h e)
    (hR : ∀ t stopped, (∀ e ∈ t, Polls e) → (stopped = false → Clear context t) → R (.ok stopped) (h ++ t)) :
    Holds G h (unavailable context) R := by
  intro t r hr
  obtain ⟨hpolls, stopped, rfl, hclear⟩ := polls_of_unavailable hr
  refine ⟨?_, hR t stopped hpolls hclear.mp⟩
  rintro pre e post rfl
  exact hG _ e (hpolls e (by simp))

end PermissionSync.Core
