import PermissionSync.Base.Program

/-!
# Properties of the traces of a program

`Sat P Q` speaks about whole traces: `P` of those that return, `Q` of those that fail. `Holds G h p R` speaks
about every operation in its context: after the history `h`, each operation of `p` satisfies the guard `G` at the
history it has, and the result satisfies `R` at the history it leaves.
-/

namespace PermissionSync.Base

variable {I : Interface} {ε ε' α β : Type}

theorem append_cons_eq_append {γ : Type} {pre post t₁ t₂ : List γ} {e : γ} (h : pre ++ e :: post = t₁ ++ t₂) :
    (∃ post', t₁ = pre ++ e :: post' ∧ post = post' ++ t₂) ∨
      ∃ pre', pre = t₁ ++ pre' ∧ t₂ = pre' ++ e :: post := by
  rcases List.append_eq_append_iff.mp h with ⟨as, rfl, has⟩ | ⟨bs, rfl, hbs⟩
  · cases as with
    | nil => exact Or.inr ⟨[], by simp, by simpa using has.symm⟩
    | cons a as =>
        obtain ⟨rfl, rfl⟩ := List.cons_eq_cons.mp has
        exact Or.inl ⟨as, rfl, rfl⟩
  · exact Or.inr ⟨bs, rfl, hbs⟩

/-- An element of a list that is not among the first ones is the last one. -/
theorem eq_of_notMem_append {γ : Type} {a pre post : List γ} {x e : γ} (he : e ∉ a)
    (h : a ++ [x] = pre ++ e :: post) : pre = a ∧ e = x ∧ post = [] := by
  rcases append_cons_eq_append h.symm with ⟨post', rfl, _⟩ | ⟨pre', rfl, hx⟩
  · exact absurd (by simp) he
  · cases pre' with
    | nil =>
        cases hx
        simp
    | cons b pre' => simp at hx

/-! ## Whole traces -/

/-- Properties of the returning and of the failing traces that sequencing keeps. -/
structure Composable (P Q : List (Event I) → Prop) : Prop where
  nil : P []
  append : ∀ {t₁ t₂}, P t₁ → P t₂ → P (t₁ ++ t₂)
  fail : Q []
  appendFail : ∀ {t₁ t₂}, P t₁ → Q t₂ → Q (t₁ ++ t₂)

/-- A property of every operation. -/
theorem composable_forall (E : Event I → Prop) : Composable (fun t => ∀ e ∈ t, E e) fun t => ∀ e ∈ t, E e where
  nil := by simp
  append h₁ h₂ := List.forall_mem_append.mpr ⟨h₁, h₂⟩
  fail := by simp
  appendFail h₁ h₂ := List.forall_mem_append.mpr ⟨h₁, h₂⟩

/-- Every returning trace satisfies `P` and every failing one `Q`. -/
def Prog.Sat (P Q : List (Event I) → Prop) (p : Prog I ε α) : Prop :=
  ∀ t r, Run p t r → (∀ a, r = .ok a → P t) ∧ ∀ e, r = .error e → Q t

namespace Prog.Sat

variable {P Q : List (Event I) → Prop}

theorem of_returns {p : Prog I ε α} {t : List (Event I)} {a : α} (hp : p.Sat P Q) (h : Run p t (.ok a)) : P t :=
  (hp t _ h).1 a rfl

theorem of_fails {p : Prog I ε α} {t : List (Event I)} {e : ε} (hp : p.Sat P Q) (h : Run p t (.error e)) : Q t :=
  (hp t _ h).2 e rfl

theorem of_run {p : Prog I ε α} {t : List (Event I)} {r : Except ε α} (hp : p.Sat P P) (h : Run p t r) : P t := by
  cases r with
  | ok a => exact hp.of_returns h
  | error e => exact hp.of_fails h

theorem pure (hc : Composable P Q) {a : α} : (Pure.pure a : Prog I ε α).Sat P Q := by
  intro t r h
  obtain ⟨rfl, rfl⟩ := run_pure.mp h
  exact ⟨fun _ _ => hc.nil, fun _ he => by cases he⟩

theorem fail (hc : Composable P Q) {e : ε} : (Prog.fail e : Prog I ε α).Sat P Q := by
  intro t r h
  obtain ⟨rfl, rfl⟩ := run_fail.mp h
  exact ⟨fun _ ha => (by cases ha), fun _ _ => hc.fail⟩

theorem lift (hc : Composable P Q) {x : Except ε α} : (Prog.lift x : Prog I ε α).Sat P Q := by
  cases x with
  | ok a => exact pure hc
  | error e => exact fail hc

theorem bind (hc : Composable P Q) {p : Prog I ε α} {f : α → Prog I ε β} (hp : p.Sat P Q)
    (hf : ∀ a, (f a).Sat P Q) : (p >>= f).Sat P Q := by
  intro t r h
  rcases run_bind.mp h with ⟨e, hp', rfl⟩ | ⟨a, t₁, t₂, rfl, hp', hf'⟩
  · exact ⟨fun _ ha => (by cases ha), fun _ _ => hp.of_fails hp'⟩
  · have h₁ := hp.of_returns hp'
    exact ⟨fun b hb => hc.append h₁ ((hf a _ _ hf').1 b hb), fun e he => hc.appendFail h₁ ((hf a _ _ hf').2 e he)⟩

theorem foldlM (hc : Composable P Q) {f : β → α → Prog I ε β} (hf : ∀ b a, (f b a).Sat P Q) (l : List α) (b : β) :
    (l.foldlM f b).Sat P Q := by
  induction l generalizing b with
  | nil => exact pure hc
  | cons a l ih =>
      rw [List.foldlM_cons]
      exact bind hc (hf b a) ih

theorem ask {o : I.Op} (h : ∀ x, P [⟨o, x⟩]) : (Prog.ask o : Prog I ε (I.Ans o)).Sat P Q := by
  intro t r hr
  obtain ⟨x, rfl, rfl⟩ := run_ask.mp hr
  exact ⟨fun _ _ => h x, fun _ he => by cases he⟩

theorem attempt {p : Prog I ε α} (hp : p.Sat P P) : (p.attempt : Prog I ε' (Except ε α)).Sat P Q := by
  intro t r hr
  obtain ⟨x, hx, rfl⟩ := run_attempt.mp hr
  exact ⟨fun _ _ => hp.of_run hx, fun _ he => by cases he⟩

theorem ite {c : Prop} [Decidable c] {p q : Prog I ε α} (hp : p.Sat P Q) (hq : q.Sat P Q) :
    (if c then p else q).Sat P Q := by
  split
  · exact hp
  · exact hq

end Prog.Sat

/-! ## Programs that do not fail -/

/-- No run of the program fails. -/
def Total (p : Prog I ε α) : Prop := ∀ t e, ¬ Run p t (.error e)

namespace Total

theorem pure {a : α} : Total (Pure.pure a : Prog I ε α) := fun _ _ hr => nomatch (run_pure.mp hr).2

theorem ask {o : I.Op} : Total (Prog.ask o : Prog I ε (I.Ans o)) := by
  intro t e hr
  obtain ⟨_, _, hx⟩ := run_ask.mp hr
  cases hx

theorem attempt {p : Prog I ε α} : Total (p.attempt : Prog I ε' (Except ε α)) := by
  intro t e hr
  obtain ⟨_, _, hx⟩ := run_attempt.mp hr
  cases hx

theorem bind {p : Prog I ε α} {f : α → Prog I ε β} (hp : Total p) (hf : ∀ a, Total (f a)) : Total (p >>= f) := by
  intro t e hr
  rcases run_bind.mp hr with ⟨e', hfail, _⟩ | ⟨a, t₁, t₂, _, _, hrest⟩
  · exact hp t e' hfail
  · exact hf a t₂ e hrest

theorem ite {c : Prop} [Decidable c] {p q : Prog I ε α} (hp : Total p) (hq : Total q) : Total (if c then p else q) := by
  split
  · exact hp
  · exact hq

/-- A sequence whose first part does not fail runs both parts. -/
theorem run_bind {p : Prog I ε α} {f : α → Prog I ε β} {t : List (Event I)} {r : Except ε β} (hp : Total p)
    (h : Run (p >>= f) t r) : ∃ a t₁ t₂, t = t₁ ++ t₂ ∧ Run p t₁ (.ok a) ∧ Run (f a) t₂ r :=
  (Base.run_bind.mp h).resolve_left fun ⟨e, hfail, _⟩ => hp t e hfail

end Total

/-! ## Kinds of operations -/

/-- Every operation of every run of the program is of the kind. -/
def Only (E : I.Op → Prop) (p : Prog I ε α) : Prop := p.Sat (fun t => ∀ e ∈ t, E e.op) fun t => ∀ e ∈ t, E e.op

namespace Only

variable {E F : I.Op → Prop}

theorem of_run {p : Prog I ε α} {t : List (Event I)} {r : Except ε α} (hp : Only E p) (hr : Run p t r) :
    ∀ e ∈ t, E e.op :=
  Prog.Sat.of_run hp hr

theorem mono {p : Prog I ε α} (hp : Only E p) (hE : ∀ o, E o → F o) : Only F p :=
  fun _ _ hr => ⟨fun _ _ e he => hE _ (hp.of_run hr e he), fun _ _ e he => hE _ (hp.of_run hr e he)⟩

theorem pure {a : α} : Only E (Pure.pure a : Prog I ε α) := Prog.Sat.pure (composable_forall fun e : Event I => E e.op)

theorem fail {e : ε} : Only E (.fail e : Prog I ε α) := Prog.Sat.fail (composable_forall fun e : Event I => E e.op)

theorem lift {x : Except ε α} : Only E (.lift x : Prog I ε α) :=
  Prog.Sat.lift (composable_forall fun e : Event I => E e.op)

theorem bind {p : Prog I ε α} {f : α → Prog I ε β} (hp : Only E p) (hf : ∀ a, Only E (f a)) : Only E (p >>= f) :=
  Prog.Sat.bind (composable_forall fun e : Event I => E e.op) hp hf

/-- What comes after a program depends on the values that it returns. -/
theorem bind_of_run {p : Prog I ε α} {f : α → Prog I ε β} (hp : Only E p)
    (hf : ∀ t a, Run p t (.ok a) → Only E (f a)) : Only E (p >>= f) := by
  have hall : ∀ t r, Run (p >>= f) t r → ∀ e ∈ t, E e.op := by
    intro t r hr
    rcases run_bind.mp hr with ⟨e, hfail, _⟩ | ⟨a, t₁, t₂, rfl, hfirst, hrest⟩
    · exact hp.of_run hfail
    · exact List.forall_mem_append.mpr ⟨hp.of_run hfirst, (hf t₁ a hfirst).of_run hrest⟩
  exact fun t r hr => ⟨fun _ _ => hall t r hr, fun _ _ => hall t r hr⟩

theorem ask {o : I.Op} (h : E o) : Only E (Prog.ask o : Prog I ε (I.Ans o)) := by
  refine Prog.Sat.ask fun x e he => ?_
  cases List.mem_singleton.mp he
  exact h

theorem attempt {p : Prog I ε α} (hp : Only E p) : Only E (p.attempt : Prog I ε' (Except ε α)) := Prog.Sat.attempt hp

theorem ite {c : Prop} [Decidable c] {p q : Prog I ε α} (hp : Only E p) (hq : Only E q) :
    Only E (if c then p else q) :=
  Prog.Sat.ite hp hq

theorem foldlM {f : β → α → Prog I ε β} (hf : ∀ b a, Only E (f b a)) (l : List α) (b : β) : Only E (l.foldlM f b) :=
  Prog.Sat.foldlM (composable_forall fun e : Event I => E e.op) hf l b

end Only

/-! ## Results under given answers -/

/-- A program runs to its end on answers of a kind that every operation has. -/
theorem exists_run_of_answers {C : Event I → Prop} (h : ∀ o, ∃ x, C ⟨o, x⟩) (p : Prog I ε α) :
    ∃ t r, Run p t r ∧ ∀ e ∈ t, C e := by
  induction p with
  | ret a => exact ⟨[], _, .ret, nofun⟩
  | fail e => exact ⟨[], _, .fail, nofun⟩
  | call o k ih =>
      obtain ⟨x, hx⟩ := h o
      obtain ⟨t, r, hr, ht⟩ := ih x
      exact ⟨⟨o, x⟩ :: t, r, .call hr, List.forall_mem_cons.mpr ⟨hx, ht⟩⟩

/-- Every run of the program on answers of the kind has the result. -/
def Yields (C : Event I → Prop) (p : Prog I ε α) (x : Except ε α) : Prop := ∀ t r, (∀ e ∈ t, C e) → Run p t r → r = x

namespace Yields

variable {C : Event I → Prop}

theorem pure {a : α} : Yields C (Pure.pure a : Prog I ε α) (.ok a) := fun _ _ _ hr => (run_pure.mp hr).2

theorem fail {e : ε} : Yields C (.fail e : Prog I ε α) (.error e) := fun _ _ _ hr => (run_fail.mp hr).2

theorem lift {x : Except ε α} : Yields C (.lift x : Prog I ε α) x := fun _ _ _ hr => (run_lift.mp hr).2

theorem bind {p : Prog I ε α} {f : α → Prog I ε β} {x : Except ε α} {g : α → Except ε β} (hp : Yields C p x)
    (hf : ∀ a, x = .ok a → Yields C (f a) (g a)) : Yields C (p >>= f) (x >>= g) := by
  intro t r hC hr
  rcases run_bind.mp hr with ⟨e, hfail, rfl⟩ | ⟨a, t₁, t₂, rfl, hfirst, hrest⟩
  · rw [← hp t _ hC hfail]
    rfl
  · have hx := hp t₁ _ (fun e he => hC e (List.mem_append_left _ he)) hfirst
    rw [← hx]
    exact hf a hx.symm t₂ r (fun e he => hC e (List.mem_append_right _ he)) hrest

theorem ask_bind {o : I.Op} {f : I.Ans o → Prog I ε α} {y : Except ε α} (h : ∀ x, C ⟨o, x⟩ → Yields C (f x) y) :
    Yields C (Prog.ask o >>= f) y := by
  intro t r hC hr
  obtain ⟨x, t', rfl, hrest⟩ := run_ask_bind.mp hr
  have hboth := List.forall_mem_cons.mp hC
  exact h x hboth.1 t' r hboth.2 hrest

theorem attempt {p : Prog I ε α} {x : Except ε α} (hp : Yields C p x) :
    Yields C (p.attempt : Prog I ε' (Except ε α)) (.ok x) := by
  intro t r hC hr
  obtain ⟨r', hrun, rfl⟩ := run_attempt.mp hr
  rw [hp t r' hC hrun]

theorem foldlM {f : β → α → Prog I ε β} {g : β → α → Except ε β} (h : ∀ b a, Yields C (f b a) (g b a))
    (l : List α) (b : β) :
    Yields C (l.foldlM f b) (l.foldlM g b) := by
  induction l generalizing b with
  | nil => exact Yields.pure
  | cons a l ih => exact (h b a).bind fun b' _ => ih b'

theorem exists_run {p : Prog I ε α} {x : Except ε α} (hp : Yields C p x)
    (h : ∀ o, ∃ x, C ⟨o, x⟩) : ∃ t, (∀ e ∈ t, C e) ∧ Run p t x := by
  obtain ⟨t, r, hr, ht⟩ := exists_run_of_answers h p
  exact ⟨t, ht, hp t r ht hr ▸ hr⟩

end Yields

/-! ## Operations in context -/

/-- The history contains a completed run of the program that returned the value. -/
def Occurs (p : Prog I ε α) (a : α) (h : List (Event I)) : Prop :=
  ∃ t₁ t₂ t₃, h = t₁ ++ t₂ ++ t₃ ∧ Run p t₂ (.ok a)

theorem Occurs.append {p : Prog I ε α} {a : α} {h : List (Event I)} (ho : Occurs p a h) (t : List (Event I)) :
    Occurs p a (h ++ t) := by
  obtain ⟨t₁, t₂, t₃, rfl, hr⟩ := ho
  exact ⟨t₁, t₂, t₃ ++ t, by simp, hr⟩

theorem Occurs.prepend {p : Prog I ε α} {a : α} {h : List (Event I)} (ho : Occurs p a h) (t : List (Event I)) :
    Occurs p a (t ++ h) := by
  obtain ⟨t₁, t₂, t₃, rfl, hr⟩ := ho
  exact ⟨t ++ t₁, t₂, t₃, by simp, hr⟩

theorem Run.occurs {p : Prog I ε α} {a : α} {t : List (Event I)} (hr : Run p t (.ok a)) (h : List (Event I)) :
    Occurs p a (h ++ t) :=
  ⟨h, t, [], by simp, hr⟩

/-- After the history, every operation of the program satisfies the guard, and its result the postcondition. -/
def Holds (G : List (Event I) → Event I → Prop) (h : List (Event I)) (p : Prog I ε α)
    (R : Except ε α → List (Event I) → Prop) : Prop :=
  ∀ t r, Run p t r → (∀ pre e post, t = pre ++ e :: post → G (h ++ pre) e) ∧ R r (h ++ t)

namespace Holds

variable {G : List (Event I) → Event I → Prop} {h : List (Event I)} {R R' : Except ε α → List (Event I) → Prop}

theorem mono {p : Prog I ε α} (hp : Holds G h p R) (hR : ∀ r h', R r h' → R' r h') : Holds G h p R' :=
  fun t r hr => ⟨(hp t r hr).1, hR _ _ (hp t r hr).2⟩

theorem bind {p : Prog I ε α} {f : α → Prog I ε β} {S : Except ε β → List (Event I) → Prop}
    (hp : Holds G h p fun r h' => match r with
      | .ok a => Holds G h' (f a) S
      | .error e => S (.error e) h') : Holds G h (p >>= f) S := by
  intro t r hr
  rcases run_bind.mp hr with ⟨e, hp', rfl⟩ | ⟨a, t₁, t₂, rfl, hp', hf'⟩
  · exact hp t _ hp'
  · obtain ⟨hg₁, hk⟩ := hp t₁ _ hp'
    obtain ⟨hg₂, hs⟩ := hk t₂ r hf'
    refine ⟨?_, by rwa [List.append_assoc] at hs⟩
    intro pre e post he
    rcases append_cons_eq_append he.symm with ⟨post', rfl, _⟩ | ⟨pre', rfl, rfl⟩
    · exact hg₁ pre e post' rfl
    · rw [← List.append_assoc]
      exact hg₂ pre' e post rfl

theorem pure {a : α} (hR : R (.ok a) h) : Holds G h (Pure.pure a : Prog I ε α) R := by
  intro t r hr
  obtain ⟨rfl, rfl⟩ := run_pure.mp hr
  exact ⟨by simp, by simpa using hR⟩

theorem fail {e : ε} (hR : R (.error e) h) : Holds G h (.fail e : Prog I ε α) R := by
  intro t r hr
  obtain ⟨rfl, rfl⟩ := run_fail.mp hr
  exact ⟨by simp, by simpa using hR⟩

theorem lift {x : Except ε α} (hR : R x h) : Holds G h (Prog.lift x : Prog I ε α) R := by
  cases x with
  | ok a => exact pure hR
  | error e => exact fail hR

theorem ask {o : I.Op} {R : Except ε (I.Ans o) → List (Event I) → Prop} (hG : ∀ x, G h ⟨o, x⟩)
    (hR : ∀ x, R (.ok x) (h ++ [⟨o, x⟩])) : Holds G h (Prog.ask o : Prog I ε (I.Ans o)) R := by
  intro t r hr
  obtain ⟨x, rfl, rfl⟩ := run_ask.mp hr
  refine ⟨?_, hR x⟩
  intro pre e post he
  obtain ⟨rfl, rfl, _⟩ := eq_of_notMem_append (a := []) List.not_mem_nil he
  simpa using hG x

theorem ask_bind {o : I.Op} {f : I.Ans o → Prog I ε α} (hG : ∀ x, G h ⟨o, x⟩)
    (hf : ∀ x, Holds G (h ++ [⟨o, x⟩]) (f x) R) : Holds G h (Prog.ask o >>= f) R :=
  bind (ask hG hf)

/-- A program whose operations satisfy the guard in every context. -/
theorem of_sat {p : Prog I ε α} {E : Event I → Prop} (hp : p.Sat (fun t => ∀ e ∈ t, E e) fun t => ∀ e ∈ t, E e)
    (hG : ∀ h e, E e → G h e) : Holds G h p fun r h' => ∃ t, h' = h ++ t ∧ Run p t r := by
  intro t r hr
  refine ⟨?_, t, rfl, hr⟩
  rintro pre e post rfl
  exact hG _ e (hp.of_run hr e (by simp))

/-- A first part whose operations satisfy the guard in every context. -/
theorem of_sat_bind {p : Prog I ε α} {f : α → Prog I ε β} {E : Event I → Prop}
    {S : Except ε β → List (Event I) → Prop}
    (hp : p.Sat (fun t => ∀ e ∈ t, E e) fun t => ∀ e ∈ t, E e) (hG : ∀ h e, E e → G h e)
    (hf : ∀ a t, Run p t (.ok a) → Holds G (h ++ t) (f a) S)
    (hfail : ∀ e t, Run p t (.error e) → S (.error e) (h ++ t)) : Holds G h (p >>= f) S := by
  refine bind ((of_sat hp hG).mono fun r h' hr => ?_)
  obtain ⟨t, rfl, hrun⟩ := hr
  cases r with
  | ok a => exact hf a t hrun
  | error e => exact hfail e t hrun

/-- A loop that keeps an invariant between the state it carries and the history. -/
theorem foldlM {f : β → α → Prog I ε β} {J : β → List (Event I) → Prop} {l : List α}
    (hf : ∀ b a h, a ∈ l → J b h → Holds G h (f b a) fun r h' => ∀ b', r = .ok b' → J b' h') {b : β}
    (hb : J b h) : Holds G h (l.foldlM f b) fun r h' => ∀ b', r = .ok b' → J b' h' := by
  induction l generalizing b h with
  | nil =>
      intro t r hr
      obtain ⟨rfl, rfl⟩ := run_pure.mp hr
      refine ⟨by simp, fun b' hb' => ?_⟩
      cases hb'
      simpa using hb
  | cons a l ih =>
      rw [List.foldlM_cons]
      refine bind ((hf b a h List.mem_cons_self hb).mono fun r h' hr => ?_)
      cases r with
      | error e => exact fun b' hb' => by cases hb'
      | ok b' => exact ih (fun b a h ha => hf b a h (List.mem_cons_of_mem _ ha)) (hr b' rfl)

theorem attempt_bind {p : Prog I ε α} {f : Except ε α → Prog I ε' β} {S : Except ε' β → List (Event I) → Prop}
    (hp : Holds G h p fun x h' => Holds G h' (f x) S) : Holds G h (p.attempt >>= f) S := by
  refine bind ?_
  intro t r hr
  obtain ⟨x, hx, rfl⟩ := run_attempt.mp hr
  exact hp t x hx

end Holds

end PermissionSync.Base
