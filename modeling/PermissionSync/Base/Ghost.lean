import PermissionSync.Base.Interleave

/-!
# What is kept along the operations of a program

A value is carried along the operations of a program, and each operation is allowed by the value before it. The program
may also have come only part of its way.
-/

namespace PermissionSync.Base

variable {I : Interface} {ε ε' α β Λ : Type} {after : Λ → Event I → Λ} {G : Λ → Event I → Prop} {loc : Λ}
  {t t' : List (Event I)}

/-- Each operation of the trace is allowed by what is kept of those before it. -/
def Along (after : Λ → Event I → Λ) (G : Λ → Event I → Prop) : Λ → List (Event I) → Prop
  | _, [] => True
  | loc, e :: t => G loc e ∧ Along after G (after loc e) t

@[simp] theorem along_nil : Along after G loc [] := trivial

@[simp] theorem along_cons {e : Event I} : Along after G loc (e :: t) ↔ G loc e ∧ Along after G (after loc e) t :=
  Iff.rfl

theorem along_append : Along after G loc (t ++ t') ↔ Along after G loc t ∧ Along after G (t.foldl after loc) t' := by
  induction t generalizing loc with
  | nil => simp
  | cons e t ih => simp [ih, and_assoc]

theorem along_of_forall (h : ∀ loc, ∀ e ∈ t, G loc e) : Along after G loc t := by
  induction t generalizing loc with
  | nil => exact trivial
  | cons e t ih =>
      exact ⟨h loc e List.mem_cons_self, ih fun loc' e' he' => h loc' e' (List.mem_cons_of_mem _ he')⟩

theorem Along.allowed {pre post : List (Event I)} {e : Event I} (h : Along after G loc (pre ++ e :: post)) :
    G (pre.foldl after loc) e :=
  (along_append.mp h).2.1

/-- What every allowed operation keeps holds after the trace. -/
theorem Along.invariant {P : Λ → Prop} (h : Along after G loc t) (h₀ : P loc)
    (hstep : ∀ loc, ∀ e ∈ t, P loc → G loc e → P (after loc e)) : P (t.foldl after loc) := by
  induction t generalizing loc with
  | nil => exact h₀
  | cons e t ih =>
      refine ih h.2 (hstep loc e List.mem_cons_self h₀ h.1) fun loc' e' he' => ?_
      exact hstep loc' e' (List.mem_cons_of_mem _ he')

/-- Operations that can only be performed before a mark, and that set it, are performed at most once. -/
theorem Along.count_le_one {A : Event I → Bool} {P : Λ → Prop} (h : Along after G loc t)
    (hkeep : ∀ loc e, P loc → G loc e → P (after loc e))
    (hset : ∀ loc e, A e = true → G loc e → ¬ P loc ∧ P (after loc e)) :
    t.countP A ≤ 1 ∧ (P loc → t.countP A = 0) := by
  induction t generalizing loc with
  | nil => simp
  | cons e t ih =>
      obtain ⟨hle, hzero⟩ := ih h.2
      cases hA : A e with
      | false =>
          rw [List.countP_cons_of_neg (by simp [hA])]
          exact ⟨hle, fun hloc => hzero (hkeep loc e hloc h.1)⟩
      | true =>
          obtain ⟨hbefore, hafter⟩ := hset loc e hA h.1
          rw [List.countP_cons_of_pos hA, hzero hafter]
          exact ⟨le_rfl, fun hloc => absurd hloc hbefore⟩

/-- What holds after the trace and not before it was brought about by one of its operations. -/
theorem Along.exists_established {P : Λ → Prop} (h : Along after G loc t) (hloc : ¬ P loc)
    (hend : P (t.foldl after loc)) :
    ∃ pre e post, t = pre ++ e :: post ∧ G (pre.foldl after loc) e ∧ ¬ P (pre.foldl after loc) ∧
      P (after (pre.foldl after loc) e) := by
  induction t generalizing loc with
  | nil => exact absurd hend hloc
  | cons e t ih =>
      by_cases hP : P (after loc e)
      · exact ⟨[], e, t, rfl, h.1, hloc, hP⟩
      · obtain ⟨pre, e', post, rfl, hG, hnot, hnow⟩ := ih h.2 hP hend
        exact ⟨e :: pre, e', post, rfl, hG, hnot, hnow⟩

/-- Every run of the program is allowed from the value, and ends with the postcondition. -/
def Tracks (after : Λ → Event I → Λ) (G : Λ → Event I → Prop) (loc : Λ) (p : Prog I ε α)
    (R : Except ε α → Λ → Prop) : Prop :=
  ∀ t r, Run p t r → Along after G loc t ∧ R r (t.foldl after loc)

namespace Tracks

variable {R R' : Except ε α → Λ → Prop}

theorem mono {p : Prog I ε α} (hp : Tracks after G loc p R) (hR : ∀ r loc', R r loc' → R' r loc') :
    Tracks after G loc p R' :=
  fun t r hr => ⟨(hp t r hr).1, hR _ _ (hp t r hr).2⟩

theorem pure {a : α} (h : R (.ok a) loc) : Tracks after G loc (Pure.pure a : Prog I ε α) R := by
  intro t r hr
  obtain ⟨rfl, rfl⟩ := run_pure.mp hr
  exact ⟨trivial, h⟩

theorem fail {e : ε} (h : R (.error e) loc) : Tracks after G loc (.fail e : Prog I ε α) R := by
  intro t r hr
  obtain ⟨rfl, rfl⟩ := run_fail.mp hr
  exact ⟨trivial, h⟩

theorem lift {x : Except ε α} (h : R x loc) : Tracks after G loc (.lift x : Prog I ε α) R := by
  intro t r hr
  obtain ⟨rfl, rfl⟩ := run_lift.mp hr
  exact ⟨trivial, h⟩

theorem bind {p : Prog I ε α} {f : α → Prog I ε β} {S : Except ε β → Λ → Prop}
    (hp : Tracks after G loc p fun r loc' => match r with
      | .ok a => Tracks after G loc' (f a) S
      | .error e => S (.error e) loc') : Tracks after G loc (p >>= f) S := by
  intro t r hr
  rcases run_bind.mp hr with ⟨e, hfail, rfl⟩ | ⟨a, t₁, t₂, rfl, hfirst, hrest⟩
  · exact hp t _ hfail
  · obtain ⟨h₁, hk⟩ := hp t₁ _ hfirst
    obtain ⟨h₂, hs⟩ := hk t₂ r hrest
    exact ⟨along_append.mpr ⟨h₁, h₂⟩, by rwa [List.foldl_append]⟩

theorem ask_bind {o : I.Op} {f : I.Ans o → Prog I ε α} (hG : ∀ x, G loc ⟨o, x⟩)
    (hf : ∀ x, Tracks after G (after loc ⟨o, x⟩) (f x) R) : Tracks after G loc (Prog.ask o >>= f) R := by
  intro t r hr
  obtain ⟨x, t', rfl, hrest⟩ := run_ask_bind.mp hr
  exact ⟨⟨hG x, (hf x t' r hrest).1⟩, (hf x t' r hrest).2⟩

theorem ask {o : I.Op} {R : Except ε (I.Ans o) → Λ → Prop} (hG : ∀ x, G loc ⟨o, x⟩)
    (hR : ∀ x, R (.ok x) (after loc ⟨o, x⟩)) : Tracks after G loc (Prog.ask o : Prog I ε (I.Ans o)) R := by
  intro t r hr
  obtain ⟨x, rfl, rfl⟩ := run_ask.mp hr
  exact ⟨⟨hG x, trivial⟩, hR x⟩

theorem attempt_bind {p : Prog I ε α} {f : Except ε α → Prog I ε' β} {S : Except ε' β → Λ → Prop}
    (hp : Tracks after G loc p fun x loc' => Tracks after G loc' (f x) S) : Tracks after G loc (p.attempt >>= f) S := by
  refine bind fun t r hr => ?_
  obtain ⟨x, hx, rfl⟩ := run_attempt.mp hr
  exact hp t x hx

theorem ite {c : Prop} [Decidable c] {p q : Prog I ε α} (hp : Tracks after G loc p R) (hq : Tracks after G loc q R) :
    Tracks after G loc (if c then p else q) R := by
  split
  · exact hp
  · exact hq

/-- A program all of whose operations are allowed and keep a property. -/
theorem of_only {E : I.Op → Prop} {P : Λ → Prop} {p : Prog I ε α} (hp : Only E p) (h₀ : P loc)
    (hstep : ∀ loc e, P loc → E e.op → G loc e ∧ P (after loc e)) : Tracks after G loc p fun _ loc' => P loc' := by
  intro t r hr
  have hall := hp.of_run hr
  clear hr
  induction t generalizing loc with
  | nil => exact ⟨trivial, h₀⟩
  | cons e t ih =>
      obtain ⟨he, ht⟩ := List.forall_mem_cons.mp hall
      obtain ⟨hG, hP⟩ := hstep loc e h₀ he
      obtain ⟨hrest, hend⟩ := ih hP ht
      exact ⟨⟨hG, hrest⟩, hend⟩

theorem of_only_bind {E : I.Op → Prop} {P : Λ → Prop} {p : Prog I ε α} {f : α → Prog I ε β} {S : Except ε β → Λ → Prop}
    (hp : Only E p) (h₀ : P loc) (hstep : ∀ loc e, P loc → E e.op → G loc e ∧ P (after loc e))
    (hf : ∀ a loc', P loc' → Tracks after G loc' (f a) S) (hfail : ∀ e loc', P loc' → S (.error e) loc') :
    Tracks after G loc (p >>= f) S := by
  refine bind ((of_only hp h₀ hstep).mono fun r loc' hloc' => ?_)
  cases r with
  | ok a => exact hf a loc' hloc'
  | error e => exact hfail e loc' hloc'

/-- What holds if the program returns. -/
def Returns (Q : α → Λ → Prop) : Except ε α → Λ → Prop
  | .ok a, loc => Q a loc
  | .error _, _ => True

/-- A sequence of which only what holds when its parts return matters. -/
theorem returns_bind {p : Prog I ε α} {f : α → Prog I ε β} {Q : α → Λ → Prop} {S : β → Λ → Prop}
    (hp : Tracks after G loc p (Returns Q)) (hf : ∀ a loc', Q a loc' → Tracks after G loc' (f a) (Returns S)) :
    Tracks after G loc (p >>= f) (Returns S) := by
  refine bind (hp.mono fun r loc' hQ => ?_)
  cases r with
  | ok a => exact hf a loc' hQ
  | error e => trivial

/-- A program that has come part of its way has done allowed operations, and so is the next one. -/
theorem of_asks (hans : ∀ o, Nonempty (I.Ans o)) {p : Prog I ε α} (hp : Tracks after G loc p R) {o : I.Op}
    (h : Asks p t o) (x : I.Ans o) : Along after G loc t ∧ G (t.foldl after loc) ⟨o, x⟩ := by
  obtain ⟨t', r, hr⟩ := h.exists_run hans x
  obtain ⟨ht, hx, _⟩ := along_append.mp (hp _ _ hr).1
  exact ⟨ht, hx⟩

end Tracks

end PermissionSync.Base
