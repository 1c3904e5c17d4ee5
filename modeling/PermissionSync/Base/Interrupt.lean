import PermissionSync.Base.Ghost

/-!
# Programs that can be given up

An operation may end early for a reason of its kind, and the program fails with it. A future performs some operations in
each of its polls, and is resumed in the next one.
-/

namespace PermissionSync.Base

variable {I : Interface} {ε α β : Type} {Reason : I.Op → Type} {reason : ∀ o, Reason o → ε} {p q : Prog I ε α}
  {t u : List (Event I)} {r : Except ε α} {o : I.Op}

/-! ## Interruptions -/

/-- The operations, each of which may also end for a reason of its own. -/
abbrev Interface.interruptible (I : Interface) (Reason : I.Op → Type) : Interface where
  Op := I.Op
  Ans o := Except (Reason o) (I.Ans o)

def Prog.interruptible (reason : ∀ o, Reason o → ε) : Prog I ε α → Prog (I.interruptible Reason) ε α
  | .ret a => .ret a
  | .fail e => .fail e
  | .call o k => .call (I := I.interruptible Reason) o fun
      | .ok x => (k x).interruptible reason
      | .error x => .fail (reason o x)

theorem interruptible_bind {f : α → Prog I ε β} :
    (p >>= f).interruptible reason = p.interruptible reason >>= fun a => (f a).interruptible reason := by
  change (p.bind f).interruptible reason = (p.interruptible reason).bind _
  induction p with
  | ret a => rfl
  | fail e => rfl
  | call o k ih =>
      simp only [Prog.bind, Prog.interruptible]
      congr 1
      funext x
      cases x with
      | ok x => exact ih x
      | error x => rfl

/-- An operation that is not interrupted. -/
def Event.complete (e : Event I) : Event (I.interruptible Reason) := ⟨e.op, .ok e.ans⟩

/-- An operation that is interrupted. -/
def Event.interrupted (o : I.Op) (x : Reason o) : Event (I.interruptible Reason) := ⟨o, .error x⟩

@[simp] theorem asks_ret {a : α} : ¬ Asks (.ret a : Prog I ε α) t o := by rintro ⟨⟩

@[simp] theorem asks_fail {e : ε} : ¬ Asks (.fail e : Prog I ε α) t o := by rintro ⟨⟩

theorem asks_call {o' : I.Op} {k : I.Ans o → Prog I ε α} :
    Asks (.call o k) t o' ↔ (t = [] ∧ o' = o) ∨ ∃ x u, t = ⟨o, x⟩ :: u ∧ Asks (k x) u o' := by
  constructor
  · intro h
    cases h with
    | here => exact Or.inl ⟨rfl, rfl⟩
    | later h => exact Or.inr ⟨_, _, rfl, h⟩
  · rintro (⟨rfl, rfl⟩ | ⟨x, u, rfl, h⟩)
    · exact .here
    · exact .later h

/-- A run is one of the program itself, or is interrupted in its last operation. -/
theorem run_interruptible {t : List (Event (I.interruptible Reason))} :
    Run (p.interruptible reason) t r ↔ (∃ u, t = u.map Event.complete ∧ Run p u r) ∨
      ∃ u o x, t = u.map Event.complete ++ [Event.interrupted o x] ∧ Asks p u o ∧ r = .error (reason o x) := by
  induction p generalizing t with
  | ret a => simp [Prog.interruptible]
  | fail e => simp [Prog.interruptible]
  | call o k ih =>
      rw [Prog.interruptible, run_call]
      constructor
      · rintro ⟨x, t', rfl, h⟩
        cases x with
        | error x =>
            obtain ⟨rfl, rfl⟩ := run_fail.mp h
            exact Or.inr ⟨[], o, x, rfl, .here, rfl⟩
        | ok x =>
            rcases (ih x).mp h with ⟨u, rfl, hr⟩ | ⟨u, o', y, rfl, ha, rfl⟩
            · exact Or.inl ⟨⟨o, x⟩ :: u, rfl, .call hr⟩
            · exact Or.inr ⟨⟨o, x⟩ :: u, o', y, rfl, .later ha, rfl⟩
      · rintro (⟨u, rfl, hr⟩ | ⟨u, o', y, rfl, ha, rfl⟩)
        · obtain ⟨x, u', rfl, hr'⟩ := run_call.mp hr
          exact ⟨.ok x, u'.map Event.complete, rfl, (ih x).mpr (Or.inl ⟨u', rfl, hr'⟩)⟩
        · rcases asks_call.mp ha with ⟨rfl, rfl⟩ | ⟨x, u', rfl, ha'⟩
          · exact ⟨.error y, [], rfl, .fail⟩
          · exact ⟨.ok x, _, rfl, (ih x).mpr (Or.inr ⟨u', o', y, rfl, ha', rfl⟩)⟩

theorem run_interruptible_ask_bind {f : I.Ans o → Prog I ε α} {t : List (Event (I.interruptible Reason))} :
    Run ((Prog.ask o >>= f).interruptible reason) t r ↔
      (∃ x t', t = ⟨o, .ok x⟩ :: t' ∧ Run ((f x).interruptible reason) t' r) ∨
        ∃ x, t = [⟨o, .error x⟩] ∧ r = .error (reason o x) := by
  change Run ((Prog.call o f).interruptible reason) t r ↔ _
  rw [Prog.interruptible, run_call]
  constructor
  · rintro ⟨x, t', rfl, h⟩
    cases x with
    | ok x => exact Or.inl ⟨x, t', rfl, h⟩
    | error x =>
        obtain ⟨rfl, rfl⟩ := run_fail.mp h
        exact Or.inr ⟨x, rfl, rfl⟩
  · rintro (⟨x, t', rfl, h⟩ | ⟨x, rfl, rfl⟩)
    · exact ⟨.ok x, t', rfl, h⟩
    · exact ⟨.error x, [], rfl, .fail⟩

theorem Only.interruptible {E : I.Op → Prop} (hans : ∀ o, Nonempty (I.Ans o)) (hp : Only E p)
    {t : List (Event (I.interruptible Reason))} (hr : Run (p.interruptible reason) t r) : ∀ e ∈ t, E e.op := by
  have hcomplete : ∀ {u : List (Event I)}, (∀ e ∈ u, E e.op) →
      ∀ e ∈ u.map (Event.complete : Event I → Event (I.interruptible Reason)), E e.op := by
    intro u hu e he
    obtain ⟨e', he', rfl⟩ := List.mem_map.mp he
    exact hu e' he'
  rcases run_interruptible.mp hr with ⟨u, rfl, hu⟩ | ⟨u, o, x, rfl, ha, rfl⟩
  · exact hcomplete (hp.of_run hu)
  · obtain ⟨t', r', hr'⟩ := ha.exists_run hans (hans o).some
    have hall := hp.of_run hr'
    intro e he
    rcases List.mem_append.mp he with he | he
    · exact hcomplete (fun e' he' => hall e' (List.mem_append_left _ he')) e he
    · rw [List.mem_singleton.mp he]
      exact hall ⟨o, _⟩ (List.mem_append_right _ List.mem_cons_self)

/-! ## What is kept along the operations -/

section Tracks

variable {Λ : Type} {after : Λ → Event I → Λ} {stop : Λ → Λ} {G : Λ → I.Op → Prop} {R : Except ε α → Λ → Prop} {loc : Λ}

/-- An interrupted operation stops the program. -/
def completing (Reason : I.Op → Type) (after : Λ → Event I → Λ) (stop : Λ → Λ) (loc : Λ) :
    Event (I.interruptible Reason) → Λ
  | ⟨o, .ok x⟩ => after loc ⟨o, x⟩
  | ⟨_, .error _⟩ => stop loc

theorem along_complete : Along (completing Reason after stop) (fun loc e => G loc e.op) loc (u.map Event.complete) ↔
    Along after (fun loc e => G loc e.op) loc u := by
  induction u generalizing loc with
  | nil => simp
  | cons e u ih => exact and_congr Iff.rfl ih

theorem foldl_completing : (u.map Event.complete).foldl (completing Reason after stop) loc = u.foldl after loc := by
  rw [List.foldl_map]
  rfl

/-- What is allowed in every run is allowed up to an interruption, and the interrupted operation is allowed. -/
theorem Tracks.interruptible (hans : ∀ o, Nonempty (I.Ans o)) (hp : Tracks after (fun loc e => G loc e.op) loc p R)
    {t : List (Event (I.interruptible Reason))} (hr : Run (p.interruptible reason) t r) :
    Along (completing Reason after stop) (fun loc e => G loc e.op) loc t := by
  rcases run_interruptible.mp hr with ⟨u, rfl, hu⟩ | ⟨u, o, x, rfl, ha, rfl⟩
  · exact along_complete.mpr (hp u r hu).1
  · obtain ⟨hG, hlast⟩ := hp.of_asks hans ha (hans o).some
    refine along_append.mpr ⟨along_complete.mpr hG, ?_, trivial⟩
    rwa [foldl_completing]

end Tracks

/-! ## Polls -/

/-- What is left of a program after some of its operations. -/
def Prog.resume [DecidableEq I.Op] : Prog I ε α → List (Event I) → Option (Prog I ε α)
  | p, [] => some p
  | .call o k, e :: t => if h : e.op = o then (k (h ▸ e.ans)).resume t else none
  | _, _ :: _ => none

variable [DecidableEq I.Op]

@[simp] theorem resume_nil : p.resume [] = some p := by
  cases p <;> rfl

@[simp] theorem resume_ret {a : α} {e : Event I} : (.ret a : Prog I ε α).resume (e :: t) = none := rfl

@[simp] theorem resume_fail {x : ε} {e : Event I} : (.fail x : Prog I ε α).resume (e :: t) = none := rfl

@[simp] theorem resume_call {k : I.Ans o → Prog I ε α} {x : I.Ans o} :
    (Prog.call o k).resume (⟨o, x⟩ :: t) = (k x).resume t := by
  simp [Prog.resume]

theorem resume_call_ne {k : I.Ans o → Prog I ε α} {e : Event I} (h : e.op ≠ o) :
    (Prog.call o k).resume (e :: t) = none := by
  simp [Prog.resume, h]

theorem resume_append : p.resume (t ++ u) = (p.resume t).bind fun q => q.resume u := by
  induction t generalizing p with
  | nil => simp
  | cons e t ih =>
      cases p with
      | ret a => rfl
      | fail x => rfl
      | call o k =>
          obtain ⟨o', x⟩ := e
          by_cases ho : o' = o
          · subst ho
            rw [List.cons_append, resume_call, resume_call, ih]
          · rw [List.cons_append, resume_call_ne ho, resume_call_ne ho]
            rfl

/-- A run ends where nothing is left. -/
theorem run_iff_resume : Run p t r ↔ p.resume t = some (.lift r) := by
  induction t generalizing p with
  | nil =>
      cases p with
      | ret a => cases r <;> simp [Prog.lift, eq_comm]
      | fail e => cases r <;> simp [Prog.lift, eq_comm]
      | call o k => cases r <;> simp [Prog.lift, run_call]
  | cons e t ih =>
      cases p with
      | ret a => simp
      | fail x => simp
      | call o k =>
          obtain ⟨o', x⟩ := e
          by_cases ho : o' = o
          · subst ho
            rw [resume_call, ← ih, run_call]
            constructor
            · rintro ⟨y, t', heq, hr⟩
              cases heq
              exact hr
            · exact fun hr => ⟨x, t, rfl, hr⟩
          · rw [resume_call_ne ho, run_call]
            constructor
            · rintro ⟨y, t', heq, _⟩
              cases heq
              exact absurd rfl ho
            · rintro ⟨⟩

theorem asks_iff_resume : Asks p t o ↔ ∃ k, p.resume t = some (.call o k) := by
  induction t generalizing p with
  | nil =>
      cases p with
      | ret a => simp
      | fail e => simp
      | call o' k =>
          rw [asks_call, resume_nil]
          constructor
          · rintro (⟨_, rfl⟩ | ⟨_, _, ht, _⟩)
            · exact ⟨k, rfl⟩
            · cases ht
          · rintro ⟨k', hk⟩
            cases hk
            exact Or.inl ⟨rfl, rfl⟩
  | cons e t ih =>
      cases p with
      | ret a => simp
      | fail x => simp
      | call o' k =>
          obtain ⟨o'', x⟩ := e
          by_cases ho : o'' = o'
          · subst ho
            rw [resume_call, ← ih, asks_call]
            constructor
            · rintro (⟨ht, _⟩ | ⟨y, u, heq, ha⟩)
              · cases ht
              · cases heq
                exact ha
            · exact fun ha => Or.inr ⟨x, t, rfl, ha⟩
          · rw [resume_call_ne ho, asks_call]
            constructor
            · rintro (⟨ht, _⟩ | ⟨y, u, heq, _⟩)
              · cases ht
              · cases heq
                exact absurd rfl ho
            · rintro ⟨_, ⟨⟩⟩

theorem run_append_iff (h : p.resume t = some q) : Run p (t ++ u) r ↔ Run q u r := by
  rw [run_iff_resume, run_iff_resume, resume_append, h, Option.bind_some]

theorem asks_append_iff (h : p.resume t = some q) : Asks p (t ++ u) o ↔ Asks q u o := by
  rw [asks_iff_resume, asks_iff_resume, resume_append, h, Option.bind_some]

theorem not_run_of_resume (h : p.resume t = none) : ¬ Run p (t ++ u) r := by
  rw [run_iff_resume, resume_append, h]
  simp

theorem not_asks_of_resume (h : p.resume t = none) : ¬ Asks p (t ++ u) o := by
  rw [asks_iff_resume, resume_append, h]
  simp

end PermissionSync.Base
