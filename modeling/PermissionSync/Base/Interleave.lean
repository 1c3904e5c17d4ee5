import PermissionSync.Base.Path

/-!
# Programs among others

Several programs act on one state, and others change it too. What a program that returns has established is stated for
the environment that the others make up between its operations.
-/

namespace PermissionSync.Base

variable {σ ι : Type} {I : Interface} {ε α β : Type}

/-! ## Programs that return -/

/-- However the environment answers from the state, the program has the postcondition if it returns. -/
def Ensures (env : σ → Event I → σ → Prop) (s : σ) (p : Prog I ε α) (Q : α → σ → Prop) : Prop :=
  ∀ t a s', Run p t (.ok a) → Path env s t s' → Q a s'

namespace Ensures

variable {env : σ → Event I → σ → Prop} {s : σ}

theorem mono {p : Prog I ε α} {Q Q' : α → σ → Prop} (hp : Ensures env s p Q) (hQ : ∀ a s', Q a s' → Q' a s') :
    Ensures env s p Q' :=
  fun t a s' hr hpath => hQ a s' (hp t a s' hr hpath)

theorem pure {a : α} {Q : α → σ → Prop} (h : Q a s) : Ensures env s (Pure.pure a : Prog I ε α) Q := by
  intro t b s' hr hpath
  obtain ⟨rfl, hb⟩ := run_pure.mp hr
  cases hb
  rwa [path_nil.mp hpath]

theorem fail {e : ε} {Q : α → σ → Prop} : Ensures env s (.fail e : Prog I ε α) Q := by
  intro t a s' hr _
  cases (run_fail.mp hr).2

theorem lift {x : Except ε α} {Q : α → σ → Prop} (h : ∀ a, x = .ok a → Q a s) :
    Ensures env s (Prog.lift x : Prog I ε α) Q := by
  intro t a s' hr hpath
  obtain ⟨rfl, ha⟩ := run_lift.mp hr
  rw [path_nil.mp hpath]
  exact h a ha.symm

theorem bind {p : Prog I ε α} {f : α → Prog I ε β} {Q : β → σ → Prop}
    (hp : Ensures env s p fun a s' => Ensures env s' (f a) Q) : Ensures env s (p >>= f) Q := by
  intro t b s' hr hpath
  obtain ⟨a, t₁, t₂, rfl, hrun, hf⟩ := run_bind_ok.mp hr
  obtain ⟨s₁, h₁, h₂⟩ := path_append.mp hpath
  exact hp t₁ a s₁ hrun h₁ t₂ b s' hf h₂

/-- A loop that keeps an invariant between the value it carries and the state. -/
theorem foldlM {f : β → α → Prog I ε β} {J : β → List α → σ → Prop} {l : List α}
    (hf : ∀ b a rest s, J b (a :: rest) s → Ensures env s (f b a) fun b' s' => J b' rest s') {b : β}
    (hb : J b l s) : Ensures env s (l.foldlM f b) fun b' s' => J b' [] s' := by
  induction l generalizing b s with
  | nil => exact pure hb
  | cons a l ih =>
      rw [List.foldlM_cons]
      exact bind ((hf b a l s hb).mono fun b' s' hb' => ih hb')

/-- What no step of the environment breaks still holds when the program returns. -/
theorem invariant {P : σ → Prop} (hstep : ∀ s e s', P s → env s e s' → P s') (h₀ : P s) (p : Prog I ε α) :
    Ensures env s p fun _ s' => P s' :=
  fun _ _ _ _ hpath => hpath.invariant h₀ hstep

theorem any (p : Prog I ε α) : Ensures env s p fun _ _ => True := fun _ _ _ _ _ => trivial

theorem and {p : Prog I ε α} {Q Q' : α → σ → Prop} (h : Ensures env s p Q) (h' : Ensures env s p Q') :
    Ensures env s p fun a s' => Q a s' ∧ Q' a s' :=
  fun t a s' hr hpath => ⟨h t a s' hr hpath, h' t a s' hr hpath⟩

end Ensures

/-! ## Timelines -/

/-- One step of a timeline: an operation of one of the programs, or a change by somebody else. -/
inductive Act (ι : Type) (I : Interface) where
  | other
  | own (client : ι) (event : Event I)

variable [DecidableEq ι] {step : σ → Act ι I → σ → Prop} {k : ι}

/-- The operations of one of the programs. -/
def eventsOf (k : ι) (acts : List (Act ι I)) : List (Event I) :=
  acts.filterMap fun
    | .other => none
    | .own client e => if client = k then some e else none

@[simp] theorem eventsOf_nil : eventsOf k ([] : List (Act ι I)) = [] := rfl

@[simp] theorem eventsOf_own {e : Event I} {acts : List (Act ι I)} :
    eventsOf k (.own k e :: acts) = e :: eventsOf k acts := by
  simp [eventsOf]

@[simp] theorem eventsOf_other {acts : List (Act ι I)} : eventsOf k (.other :: acts) = eventsOf k acts := rfl

theorem eventsOf_own_of_ne {j : ι} {e : Event I} {acts : List (Act ι I)} (h : j ≠ k) :
    eventsOf k (.own j e :: acts) = eventsOf k acts := by
  simp [eventsOf, h]

theorem eventsOf_append (acts acts' : List (Act ι I)) :
    eventsOf k (acts ++ acts') = eventsOf k acts ++ eventsOf k acts' :=
  List.filterMap_append

theorem eventsOf_map_own (t : List (Event I)) : eventsOf k (t.map (Act.own k)) = t := by
  induction t with
  | nil => rfl
  | cons e t ih => rw [List.map_cons, eventsOf_own, ih]

theorem mem_eventsOf {e : Event I} {acts : List (Act ι I)} : e ∈ eventsOf k acts ↔ Act.own k e ∈ acts := by
  rw [eventsOf, List.mem_filterMap]
  constructor
  · intro h
    obtain ⟨act, hact, he⟩ := h
    cases act with
    | other => cases he
    | own client e' =>
        simp only [Option.ite_none_right_eq_some, Option.some.injEq] at he
        rwa [← he.1, ← he.2]
  · intro h
    exact ⟨_, h, by simp⟩

theorem eventsOf_map_own_ne {j : ι} (h : j ≠ k) (t : List (Event I)) : eventsOf k (t.map (Act.own j)) = [] := by
  rw [List.eq_nil_iff_forall_not_mem]
  intro e he
  obtain ⟨e', _, heq⟩ := List.mem_map.mp (mem_eventsOf.mp he)
  cases heq
  exact h rfl

/-- The programs that performed operations of a kind, in order. -/
def clientsOf (p : Event I → Bool) (acts : List (Act ι I)) : List ι :=
  acts.filterMap fun
    | .other => none
    | .own client e => if p e then some client else none

omit [DecidableEq ι] in
theorem clientsOf_append {p : Event I → Bool} (acts acts' : List (Act ι I)) :
    clientsOf p (acts ++ acts') = clientsOf p acts ++ clientsOf p acts' :=
  List.filterMap_append

theorem count_clientsOf {p : Event I → Bool} (acts : List (Act ι I)) (k : ι) :
    (clientsOf p acts).count k = (eventsOf k acts).countP p := by
  induction acts with
  | nil => rfl
  | cons act acts ih =>
      cases act with
      | other => exact ih
      | own client e =>
          by_cases hk : client = k
          · subst hk
            cases hp : p e with
            | true => rw [eventsOf_own, List.countP_cons_of_pos hp, ← ih]; simp [clientsOf, hp]
            | false => rw [eventsOf_own, List.countP_cons_of_neg (by simp [hp]), ← ih]; simp [clientsOf, hp]
          · rw [eventsOf_own_of_ne hk, ← ih]
            cases hp : p e <;> simp [clientsOf, hp, hk]

/-- An operation of the program is a step of the timeline. -/
theorem exists_of_eventsOf_eq {e : Event I} {acts : List (Act ι I)} {pre post : List (Event I)}
    (h : eventsOf k acts = pre ++ e :: post) :
    ∃ before after, acts = before ++ .own k e :: after ∧ eventsOf k before = pre ∧ eventsOf k after = post := by
  obtain ⟨before, rest, rfl, hbefore, hrest⟩ := List.filterMap_eq_append_iff.mp h
  obtain ⟨others, act, after, rfl, hothers, hact, hafter⟩ := List.filterMap_eq_cons_iff.mp hrest
  cases act with
  | other => cases hact
  | own client e' =>
      simp only [Option.ite_none_right_eq_some, Option.some.injEq] at hact
      obtain ⟨rfl, rfl⟩ := hact
      refine ⟨before ++ others, after, by simp, ?_, hafter⟩
      rw [eventsOf_append, eventsOf, hbefore, eventsOf, List.filterMap_eq_nil_iff.mpr hothers, List.append_nil]

/-- An invariant that relates the state to what each program keeps of its own operations. -/
theorem Path.accompanied {Λ : Type} {after : Λ → Event I → Λ} {G : Λ → Event I → Prop} {J : (ι → Λ) → σ → Prop}
    (hown : ∀ loc s k e s', J loc s → G (loc k) e → step s (.own k e) s' →
      J (Function.update loc k (after (loc k) e)) s')
    (hother : ∀ loc s s', J loc s → step s .other s' → J loc s') {loc : ι → Λ} {s s' : σ} {acts : List (Act ι I)}
    (h : Path step s acts s') (hJ : J loc s)
    (hG : ∀ k pre e post, eventsOf k acts = pre ++ e :: post → G (pre.foldl after (loc k)) e) :
    J (fun k => (eventsOf k acts).foldl after (loc k)) s' := by
  induction h generalizing loc with
  | nil => exact hJ
  | @cons s s₁ s' act acts hact _ ih =>
      cases act with
      | other => exact ih (hother loc s s₁ hJ hact) hG
      | own client e =>
          have hsplit (k : ι) : (eventsOf k (.own client e :: acts)).foldl after (loc k) =
              (eventsOf k acts).foldl after (Function.update loc client (after (loc client) e) k) := by
            by_cases hk : client = k
            · subst hk
              rw [eventsOf_own, List.foldl_cons, Function.update_self]
            · rw [Function.update_of_ne (Ne.symm hk), eventsOf_own_of_ne hk]
          simp only [hsplit]
          refine ih (hown loc s client e s₁ hJ (hG client [] e _ eventsOf_own) hact) fun k pre e' post he' => ?_
          by_cases hk : client = k
          · subst hk
            rw [Function.update_self]
            exact hG client (e :: pre) e' post (by rw [eventsOf_own, he', List.cons_append])
          · rw [Function.update_of_ne (Ne.symm hk)]
            exact hG k pre e' post (by rw [eventsOf_own_of_ne hk, he'])

/-- An operation of the program, after any steps of the others. -/
def Amid (step : σ → Act ι I → σ → Prop) (k : ι) (s : σ) (e : Event I) (s' : σ) : Prop :=
  ∃ acts m, eventsOf k acts = [] ∧ Path step s acts m ∧ step m (.own k e) s'

theorem Amid.after {s m s' : σ} {e : Event I} {act : Act ι I} (hact : eventsOf k [act] = []) (hstep : step s act m)
    (h : Amid step k m e s') : Amid step k s e s' := by
  obtain ⟨acts, m', hnone, hpath, hown⟩ := h
  refine ⟨act :: acts, m', ?_, .cons hstep hpath, hown⟩
  rw [← List.singleton_append, eventsOf_append]
  exact List.append_eq_nil_iff.mpr ⟨hact, hnone⟩

/-- On a timeline every program has its own path. -/
theorem Path.amid {s s' : σ} {acts : List (Act ι I)} (h : Path step s acts s') (k : ι) :
    ∃ m rest, Path (Amid step k) s (eventsOf k acts) m ∧ Path step m rest s' := by
  induction h with
  | nil => exact ⟨_, [], .nil, .nil⟩
  | @cons s s₁ s' act acts hact hrest ih =>
      obtain ⟨m, rest, hpath, hend⟩ := ih
      by_cases hown : ∃ e, act = .own k e
      · obtain ⟨e, rfl⟩ := hown
        refine ⟨m, rest, ?_, hend⟩
        rw [eventsOf_own]
        exact .cons ⟨[], s, rfl, .nil, hact⟩ hpath
      · -- A step of somebody else belongs to what precedes the next operation of the program.
        have hnone : eventsOf k [act] = [] := by
          rw [List.eq_nil_iff_forall_not_mem]
          intro e he
          exact hown ⟨e, (List.mem_singleton.mp (mem_eventsOf.mp he)).symm⟩
        rw [← List.singleton_append, eventsOf_append, hnone, List.nil_append]
        cases hev : eventsOf k acts with
        | nil => exact ⟨s, act :: acts, .nil, .cons hact hrest⟩
        | cons e t =>
            rw [hev] at hpath
            obtain ⟨s₂, he, ht⟩ := path_cons.mp hpath
            exact ⟨m, rest, .cons (he.after hnone hact) ht, hend⟩

theorem Path.of_amid {s s' : σ} {t : List (Event I)} (h : Path (Amid step k) s t s') :
    ∃ acts, Path step s acts s' := by
  induction h with
  | nil => exact ⟨[], .nil⟩
  | cons he _ ih =>
      obtain ⟨acts, m, _, hpath, hown⟩ := he
      obtain ⟨rest, hrest⟩ := ih
      exact ⟨acts ++ .own k _ :: rest, path_append.mpr ⟨m, hpath, .cons hown hrest⟩⟩

/-- What a program has established, if no step breaks it, holds at the end of the timeline. -/
theorem Ensures.along {p : Prog I ε α} {P : σ → Prop} {s s' : σ} {acts : List (Act ι I)} {t t' : List (Event I)} {a : α}
    (hp : Ensures (Amid step k) s p fun b s' => b = a → P s') (hstep : ∀ s act s', P s → step s act s' → P s')
    (hpath : Path step s acts s') (ht : eventsOf k acts = t ++ t') (hrun : Run p t (.ok a)) : P s' := by
  obtain ⟨m, rest, hown, hrest⟩ := hpath.amid k
  rw [ht] at hown
  obtain ⟨s₁, h₁, h₂⟩ := path_append.mp hown
  obtain ⟨acts', hacts'⟩ := h₂.of_amid
  exact hrest.invariant (hacts'.invariant (hp t a s₁ hrun h₁ rfl) hstep) hstep

end PermissionSync.Base
