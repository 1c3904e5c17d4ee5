import PermissionSync.Auth.Interface
import PermissionSync.Base.Path

/-!
# Runs in which the context stays available
-/

namespace PermissionSync.Authenticator

open PermissionSync.Auth PermissionSync.Base PermissionSync.Core

variable {V α : Type} {context : SynchronizationContext} {C : Event (auth V) → Prop}

/-- The event shows neither a cancellation nor that the deadline has passed. -/
def Available (context : SynchronizationContext) : Event (auth V) → Prop
  | ⟨.isCancelled _, cancelled⟩ => cancelled = false
  | ⟨.now, instant⟩ => instant < context.deadline
  | _ => True

theorem unavailable_yields (hC : ∀ e, C e → Available context e) : Yields C (unavailable context) (.ok false) := by
  refine .ask_bind fun cancelled hcancelled => ?_
  obtain rfl : cancelled = false := hC _ hcancelled
  refine .ask_bind fun n hn => ?_
  have hlt : n < context.deadline := hC _ hn
  rw [decide_eq_false (not_le.mpr hlt)]
  exact .pure

/-- A program that goes on if the context is available. -/
theorem yields_unavailable_bind {p q : Io V α} {y : Except AuthenticationError α} (hC : ∀ e, C e → Available context e)
    (hq : Yields C q y) : Yields C (unavailable context >>= fun stopped => if stopped then p else q) y := by
  refine (unavailable_yields hC).bind (g := fun _ => y) fun stopped hstopped => ?_
  cases hstopped
  exact hq

theorem checkContext_yields (hC : ∀ e, C e → Available context e) : Yields C (checkContext context) (.ok ()) :=
  yields_unavailable_bind hC .pure

theorem yields_checkContext_bind {f : Unit → Io V α} {y : Except AuthenticationError α}
    (hC : ∀ e, C e → Available context e) (hf : Yields C (f ()) y) : Yields C (checkContext context >>= f) y :=
  (checkContext_yields hC).bind fun _ _ => hf

/-- Some answer leaves the context available. -/
theorem exists_available (h : 0 < context.deadline) (o : Op V) : ∃ x, Available context (⟨o, x⟩ : Event (auth V)) := by
  cases o with
  | isCancelled signal => exact ⟨false, rfl⟩
  | now | tick => exact ⟨(0 : Nat), by first | exact h | trivial⟩
  | unixSeconds | readCache | writeCache | request => exact ⟨none, trivial⟩
  | lockRefresh | frame => exact ⟨false, trivial⟩
  | dropRead | store | dropWrite | dropRefresh | fetchStarted | fetchEnded => exact ⟨(), trivial⟩

end PermissionSync.Authenticator
