import PermissionSync.Base.Trace

/-!
# Programs in an environment that has a state

A path performs labelled steps. When the labels are the events of a program, the environment answers the program's
operations along the path.
-/

namespace PermissionSync.Base

variable {σ L : Type} {step : σ → L → σ → Prop}

/-- The labels in order lead from the first state to the last one. -/
inductive Path (step : σ → L → σ → Prop) : σ → List L → σ → Prop where
  | nil {s : σ} : Path step s [] s
  | cons {s s' s'' : σ} {l : L} {ls : List L} : step s l s' → Path step s' ls s'' → Path step s (l :: ls) s''

@[simp] theorem path_nil {s s' : σ} : Path step s [] s' ↔ s' = s := by
  constructor
  · intro h
    cases h
    rfl
  · intro h
    exact h ▸ .nil

@[simp] theorem path_cons {s s'' : σ} {l : L} {ls : List L} :
    Path step s (l :: ls) s'' ↔ ∃ s', step s l s' ∧ Path step s' ls s'' := by
  constructor
  · intro h
    cases h with
    | cons hl hp => exact ⟨_, hl, hp⟩
  · intro h
    obtain ⟨s', hl, hp⟩ := h
    exact .cons hl hp

theorem path_append {s s'' : σ} {ls ls' : List L} :
    Path step s (ls ++ ls') s'' ↔ ∃ s', Path step s ls s' ∧ Path step s' ls' s'' := by
  induction ls generalizing s with
  | nil => simp
  | cons l ls ih =>
      simp only [List.cons_append, path_cons, ih]
      constructor
      · intro h
        obtain ⟨s₁, hl, s₂, hp, hq⟩ := h
        exact ⟨s₂, ⟨s₁, hl, hp⟩, hq⟩
      · intro h
        obtain ⟨s₂, ⟨s₁, hl, hp⟩, hq⟩ := h
        exact ⟨s₁, hl, s₂, hp, hq⟩

/-- What every step keeps holds after the path. -/
theorem Path.invariant {P : σ → Prop} {s s' : σ} {ls : List L} (h : Path step s ls s') (h₀ : P s)
    (hstep : ∀ s l s', P s → step s l s' → P s') : P s' := by
  induction h with
  | nil => exact h₀
  | cons hl _ ih => exact ih (hstep _ _ _ h₀ hl)

theorem Path.mono {step' : σ → L → σ → Prop} {s s' : σ} {ls : List L} (h : Path step s ls s')
    (hstep : ∀ s l s', step s l s' → step' s l s') : Path step' s ls s' := by
  induction h with
  | nil => exact .nil
  | cons hl _ ih => exact .cons (hstep _ _ _ hl) ih

/-- An executable step whose results are steps. -/
theorem path_of_foldlM {next : σ → L → Option σ} (hnext : ∀ s l s', next s l = some s' → step s l s') {s s' : σ}
    {ls : List L} (h : ls.foldlM next s = some s') : Path step s ls s' := by
  induction ls generalizing s with
  | nil =>
      cases h
      exact .nil
  | cons l ls ih =>
      rw [List.foldlM_cons] at h
      obtain ⟨s₁, hl, hrest⟩ := Option.bind_eq_some_iff.mp h
      exact .cons (hnext _ _ _ hl) (ih hrest)

/-- What holds in the end and did not hold at first was established by one of the steps. -/
theorem Path.exists_established {P : σ → Prop} {s s' : σ} {ls : List L} (h : Path step s ls s')
    (hs : ¬ P s) (hs' : P s') :
    ∃ ls₁ l ls₂ s₁ s₂, ls = ls₁ ++ l :: ls₂ ∧ Path step s ls₁ s₁ ∧ ¬ P s₁ ∧ step s₁ l s₂ ∧ P s₂ ∧
      Path step s₂ ls₂ s' := by
  induction h with
  | nil => exact absurd hs' hs
  | @cons s m s' l ls hl hrest ih =>
      by_cases hm : P m
      · exact ⟨[], l, ls, s, m, rfl, .nil, hs, hl, hm, hrest⟩
      · obtain ⟨ls₁, l', ls₂, s₁, s₂, rfl, hpath, hno, hstep, hyes, hend⟩ := ih hm hs'
        exact ⟨l :: ls₁, l', ls₂, s₁, s₂, rfl, .cons hl hpath, hno, hstep, hyes, hend⟩

/-- Steps that establish what they need to be absent, and that no other step removes, happen at most once. -/
theorem Path.pairwise_not {A : L → Prop} {P : σ → Prop} {s s' : σ} {ls : List L} (h : Path step s ls s')
    (hest : ∀ s l s', A l → step s l s' → P s') (hkeep : ∀ s l s', P s → step s l s' → P s')
    (hno : ∀ s l s', A l → step s l s' → ¬ P s) : ls.Pairwise fun l l' => ¬ (A l ∧ A l') := by
  induction h with
  | nil => exact .nil
  | @cons s s₁ s' l ls hl hrest ih =>
      refine List.pairwise_cons.mpr ⟨fun l' hmem hboth => ?_, ih⟩
      obtain ⟨before, after, rfl⟩ := List.append_of_mem hmem
      obtain ⟨m, hbefore, hafter⟩ := path_append.mp hrest
      obtain ⟨m', hl', _⟩ := path_cons.mp hafter
      exact hno m l' m' hboth.2 hl' (hbefore.invariant (hest s l s₁ hboth.1 hl) hkeep)

/-! ## Programs that the environment answers -/

variable {I : Interface} {ε ε' α β : Type} {env : σ → Event I → σ → Prop} {s : σ}

/-- After the trace the program performs the operation. -/
inductive Asks : Prog I ε α → List (Event I) → I.Op → Prop where
  | here {o : I.Op} {k : I.Ans o → Prog I ε α} : Asks (.call o k) [] o
  | later {o o' : I.Op} {k : I.Ans o → Prog I ε α} {x : I.Ans o} {t : List (Event I)} :
      Asks (k x) t o' → Asks (.call o k) (⟨o, x⟩ :: t) o'

/-- An environment that answers whatever the program asks lets it run to its end. -/
theorem exists_run {p : Prog I ε α}
    (h : ∀ t s' o, Path env s t s' → Asks p t o → ∃ x s'', env s' ⟨o, x⟩ s'') :
    ∃ t r s', Run p t r ∧ Path env s t s' := by
  induction p generalizing s with
  | ret a => exact ⟨[], .ok a, s, .ret, .nil⟩
  | fail e => exact ⟨[], .error e, s, .fail, .nil⟩
  | call o k ih =>
      obtain ⟨x, s₁, hx⟩ := h [] s o .nil .here
      obtain ⟨t, r, s', hr, hp⟩ := ih x fun t s' o' hp ha => h (⟨o, x⟩ :: t) s' o' (.cons hx hp) (.later ha)
      exact ⟨⟨o, x⟩ :: t, r, s', .call hr, .cons hx hp⟩

/-- What a program asks is part of one of its runs, whatever the answer. -/
theorem Asks.exists_run (hans : ∀ o, Nonempty (I.Ans o)) {p : Prog I ε α} {t : List (Event I)} {o : I.Op}
    (h : Asks p t o) (x : I.Ans o) : ∃ t' r, Run p (t ++ ⟨o, x⟩ :: t') r := by
  induction h with
  | @here o k =>
      obtain ⟨t', r, hr, _⟩ :=
        exists_run_of_answers (C := fun _ => True) (fun o => (hans o).elim fun y => ⟨y, trivial⟩) (k x)
      exact ⟨t', r, .call hr⟩
  | later _ ih =>
      obtain ⟨t', r, hr⟩ := ih x
      exact ⟨t', r, .call hr⟩

/-- The operation that the program performs after a trace, if it gets there. -/
def Prog.pending [DecidableEq I.Op] : Prog I ε α → List (Event I) → Option I.Op
  | .call o _, [] => some o
  | .call o k, e :: t => if h : e.op = o then (k (h ▸ e.ans)).pending t else none
  | _, _ => none

theorem asks_of_pending [DecidableEq I.Op] {p : Prog I ε α} {t : List (Event I)} {o : I.Op}
    (h : p.pending t = some o) : Asks p t o := by
  induction p generalizing t with
  | ret a => cases t <;> cases h
  | fail e => cases t <;> cases h
  | call o' k ih =>
      cases t with
      | nil =>
          cases h
          exact .here
      | cons e t =>
          obtain ⟨o'', x⟩ := e
          simp only [Prog.pending] at h
          split at h
          · rename_i ho
            cases ho
            exact .later (ih _ h)
          · cases h

/-- However the environment answers from the state, the program returns, with the postcondition. -/
def Served (env : σ → Event I → σ → Prop) (s : σ) (p : Prog I ε α) (Q : α → σ → Prop) : Prop :=
  ∀ t r s', Run p t r → Path env s t s' → ∃ a, r = .ok a ∧ Q a s'

namespace Served

theorem mono {p : Prog I ε α} {Q Q' : α → σ → Prop} (hp : Served env s p Q) (hQ : ∀ a s', Q a s' → Q' a s') :
    Served env s p Q' := by
  intro t r s' hr hpath
  obtain ⟨a, ha, hq⟩ := hp t r s' hr hpath
  exact ⟨a, ha, hQ a s' hq⟩

theorem pure {a : α} {Q : α → σ → Prop} (h : Q a s) : Served env s (Pure.pure a : Prog I ε α) Q := by
  intro t r s' hr hpath
  obtain ⟨rfl, rfl⟩ := run_pure.mp hr
  rw [path_nil.mp hpath]
  exact ⟨a, rfl, h⟩

theorem lift {x : Except ε α} {a : α} {Q : α → σ → Prop} (hx : x = .ok a) (h : Q a s) :
    Served env s (Prog.lift x : Prog I ε α) Q := by
  rw [hx]
  exact pure h

theorem bind {p : Prog I ε α} {f : α → Prog I ε β} {Q : β → σ → Prop}
    (hp : Served env s p fun a s' => Served env s' (f a) Q) : Served env s (p >>= f) Q := by
  intro t r s' hr hpath
  rcases run_bind.mp hr with ⟨e, hrun, _⟩ | ⟨a, t₁, t₂, rfl, hrun, hf⟩
  · obtain ⟨_, he, _⟩ := hp t _ s' hrun hpath
    cases he
  · obtain ⟨s₁, h₁, h₂⟩ := path_append.mp hpath
    obtain ⟨b, hb, hk⟩ := hp t₁ _ s₁ hrun h₁
    cases hb
    exact hk t₂ r s' hf h₂

theorem call {o : I.Op} {k : I.Ans o → Prog I ε α} {Q : α → σ → Prop}
    (h : ∀ x s', env s ⟨o, x⟩ s' → Served env s' (k x) Q) : Served env s (.call o k) Q := by
  intro t r s' hr hpath
  obtain ⟨x, t', rfl, hk⟩ := run_call.mp hr
  obtain ⟨s₁, hx, hrest⟩ := path_cons.mp hpath
  exact h x s₁ hx t' r s' hk hrest

theorem ask_bind {o : I.Op} {f : I.Ans o → Prog I ε α} {Q : α → σ → Prop}
    (h : ∀ x s', env s ⟨o, x⟩ s' → Served env s' (f x) Q) : Served env s (Prog.ask o >>= f) Q :=
  call h

/-- A loop that keeps an invariant between the value it carries and the state. -/
theorem foldlM {f : β → α → Prog I ε β} {J : β → List α → σ → Prop} {l : List α}
    (hf : ∀ b a rest s, J b (a :: rest) s → Served env s (f b a) fun b' s' => J b' rest s') {b : β}
    (hb : J b l s) : Served env s (l.foldlM f b) fun b' s' => J b' [] s' := by
  induction l generalizing b s with
  | nil => exact pure hb
  | cons a l ih =>
      rw [List.foldlM_cons]
      exact bind ((hf b a l s hb).mono fun b' s' hb' => ih hb')

theorem attempt {p : Prog I ε α} {Q : α → σ → Prop} (hp : Served env s p Q) :
    Served env s (p.attempt : Prog I ε' (Except ε α)) fun x s' => ∃ a, x = .ok a ∧ Q a s' := by
  intro t r s' hr hpath
  obtain ⟨x, hx, rfl⟩ := run_attempt.mp hr
  exact ⟨x, rfl, hp t x s' hx hpath⟩

end Served

end PermissionSync.Base
