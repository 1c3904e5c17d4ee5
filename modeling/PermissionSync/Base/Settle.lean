import PermissionSync.Base.Interrupt

/-!
# Programs that stop at the first bad answer

The answers of a kind let a program go on. A run has such answers only, or it stops with the failure that its last
answer stands for.
-/

namespace PermissionSync.Base

variable {I : Interface} {ε α β : Type} {C : Event I → Prop} {S : Event I → ε → Prop}

/-- The last operation of the trace is the first whose answer is not of the kind, and the result is the failure it
stands for. -/
def Stopped (C : Event I → Prop) (S : Event I → ε → Prop) (t : List (Event I)) (r : Except ε α) : Prop :=
  ∃ pre e f, t = pre ++ [e] ∧ (∀ x ∈ pre, C x) ∧ S e f ∧ r = .error f

/-- A run has answers of the kind only and the postcondition, or is stopped. -/
def Settles (C : Event I → Prop) (S : Event I → ε → Prop) (p : Prog I ε α) (Q : List (Event I) → Except ε α → Prop) :
    Prop :=
  ∀ t r, Run p t r → ((∀ e ∈ t, C e) ∧ Q t r) ∨ Stopped C S t r

theorem Stopped.append {t u : List (Event I)} {r : Except ε α} (h : Stopped C S u r) (ht : ∀ e ∈ t, C e) :
    Stopped C S (t ++ u) r := by
  obtain ⟨pre, e, f, rfl, hpre, hS, hr⟩ := h
  refine ⟨t ++ pre, e, f, by simp, fun x hx => ?_, hS, hr⟩
  exact (List.mem_append.mp hx).elim (ht x) (hpre x)

namespace Settles

variable {Q Q' : List (Event I) → Except ε α → Prop}

theorem mono {p : Prog I ε α} (hp : Settles C S p Q) (hQ : ∀ t r, Q t r → Q' t r) : Settles C S p Q' := by
  intro t r hr
  exact (hp t r hr).imp_left fun h => ⟨h.1, hQ t r h.2⟩

theorem pure {a : α} (h : Q [] (.ok a)) : Settles C S (Pure.pure a : Prog I ε α) Q := by
  intro t r hr
  obtain ⟨rfl, rfl⟩ := run_pure.mp hr
  exact Or.inl ⟨by simp, h⟩

theorem fail {f : ε} (h : Q [] (.error f)) : Settles C S (.fail f : Prog I ε α) Q := by
  intro t r hr
  obtain ⟨rfl, rfl⟩ := run_fail.mp hr
  exact Or.inl ⟨by simp, h⟩

theorem lift {x : Except ε α} (h : Q [] x) : Settles C S (.lift x : Prog I ε α) Q := by
  intro t r hr
  obtain ⟨rfl, rfl⟩ := run_lift.mp hr
  exact Or.inl ⟨by simp, h⟩

theorem bind {p : Prog I ε α} {f : α → Prog I ε β} {Q : List (Event I) → Except ε α → Prop}
    {R : List (Event I) → Except ε β → Prop} (hp : Settles C S p Q) (hfail : ∀ t e, Q t (.error e) → R t (.error e))
    (hf : ∀ t a, Q t (.ok a) → Settles C S (f a) fun u r => R (t ++ u) r) : Settles C S (p >>= f) R := by
  intro t r hr
  rcases run_bind.mp hr with ⟨e, hrun, rfl⟩ | ⟨a, t₁, t₂, rfl, hfirst, hrest⟩
  · rcases hp t _ hrun with ⟨hC, hQ⟩ | ⟨pre, e', f', rfl, hpre, hS, he⟩
    · exact Or.inl ⟨hC, hfail t e hQ⟩
    · cases he
      exact Or.inr ⟨pre, e', _, rfl, hpre, hS, rfl⟩
  · rcases hp t₁ _ hfirst with ⟨hC, hQ⟩ | ⟨_, _, _, _, _, _, he⟩
    · rcases hf t₁ a hQ t₂ r hrest with ⟨hC₂, hR⟩ | hstopped
      · exact Or.inl ⟨fun e he => (List.mem_append.mp he).elim (hC e) (hC₂ e), hR⟩
      · exact Or.inr (hstopped.append hC)
    · cases he

/-- A sequence of which only the results matter. -/
theorem bind_eq {p : Prog I ε α} {f : α → Prog I ε β} {x : Except ε α} {g : α → Except ε β}
    (hp : Settles C S p fun _ r => r = x) (hf : ∀ a, x = .ok a → Settles C S (f a) fun _ r => r = g a) :
    Settles C S (p >>= f) fun _ r => r = x >>= g := by
  refine bind hp (fun _ e h => ?_) fun _ a h => ?_
  · rw [← h]
    rfl
  · rw [← h]
    exact hf a h.symm

/-- An operation whose answer lets the program go on, or makes it fail at once. -/
theorem ask_bind {o : I.Op} {f : I.Ans o → Prog I ε α}
    (hgood : ∀ x, C ⟨o, x⟩ → Settles C S (f x) fun u r => Q (⟨o, x⟩ :: u) r)
    (hbad : ∀ x, ¬ C ⟨o, x⟩ → ∃ e, S ⟨o, x⟩ e ∧ f x = .fail e) : Settles C S (Prog.ask o >>= f) Q := by
  intro t r hr
  obtain ⟨x, t', rfl, hrest⟩ := run_ask_bind.mp hr
  by_cases hC : C ⟨o, x⟩
  · rcases hgood x hC t' r hrest with ⟨hC', hQ⟩ | hstopped
    · exact Or.inl ⟨List.forall_mem_cons.mpr ⟨hC, hC'⟩, hQ⟩
    · exact Or.inr (hstopped.append (t := [⟨o, x⟩]) (by simpa using hC))
  · obtain ⟨e, hS, hfail⟩ := hbad x hC
    rw [hfail] at hrest
    obtain ⟨rfl, rfl⟩ := run_fail.mp hrest
    exact Or.inr ⟨[], ⟨o, x⟩, e, rfl, by simp, hS, rfl⟩

/-- An interruption stops the program too. -/
theorem interruptible {Reason : I.Op → Type} {reason : ∀ o, Reason o → ε} {p : Prog I ε α} (hp : Settles C S p Q)
    {t : List (Event (I.interruptible Reason))} {r : Except ε α} (hr : Run (p.interruptible reason) t r) :
    (∃ u : List (Event I), t = u.map Event.complete ∧ (∀ e ∈ u, C e) ∧ Q u r) ∨
      (∃ u : List (Event I), t = u.map Event.complete ∧ Stopped C S u r) ∨
        ∃ (u : List (Event I)) (o : I.Op) (x : Reason o), t = u.map Event.complete ++ [Event.interrupted o x] ∧
          r = .error (reason o x) := by
  rcases run_interruptible.mp hr with ⟨u, rfl, hu⟩ | ⟨u, o, x, rfl, _, rfl⟩
  · rcases hp u r hu with ⟨hC, hQ⟩ | hstopped
    · exact Or.inl ⟨u, rfl, hC, hQ⟩
    · exact Or.inr (Or.inl ⟨u, rfl, hstopped⟩)
  · exact Or.inr (Or.inr ⟨u, o, x, rfl, rfl⟩)

end Settles

end PermissionSync.Base
