import Mathlib

/-!
# Programs that talk to an environment

A program returns, fails, or performs an operation and goes on with its answer. A run is one sequence of
operations with their answers, and the result it leads to. Nothing is assumed about the answers, so what holds
for every run holds for every behaviour of the environment.
-/

namespace PermissionSync.Base

/-- The operations a program can perform, and the answers of each. -/
structure Interface where
  Op : Type
  Ans : Op → Type

/-- A program over the operations of `I`. It is well founded: every run of it is finite. -/
inductive Prog (I : Interface) (ε α : Type) : Type where
  | ret (a : α)
  | fail (e : ε)
  | call (o : I.Op) (k : I.Ans o → Prog I ε α)

/-- One operation with the answer it got. -/
structure Event (I : Interface) where
  op : I.Op
  ans : I.Ans op

variable {I : Interface} {ε ε' α β : Type}

namespace Prog

def bind : Prog I ε α → (α → Prog I ε β) → Prog I ε β
  | .ret a, f => f a
  | .fail e, _ => .fail e
  | .call o k, f => .call o fun x => (k x).bind f

instance : Monad (Prog I ε) where
  pure := .ret
  bind := Prog.bind

theorem bind_ret (p : Prog I ε α) : p.bind .ret = p := by
  induction p with
  | ret a => rfl
  | fail e => rfl
  | call o k ih => exact congrArg (Prog.call o) (funext ih)

theorem bind_assoc {γ : Type} (p : Prog I ε α) (f : α → Prog I ε β) (g : β → Prog I ε γ) :
    (p.bind f).bind g = p.bind fun a => (f a).bind g := by
  induction p with
  | ret a => rfl
  | fail e => rfl
  | call o k ih => exact congrArg (Prog.call o) (funext ih)

instance : LawfulMonad (Prog I ε) :=
  LawfulMonad.mk' _ bind_ret (fun _ _ => rfl) bind_assoc

/-- Perform one operation. -/
def ask (o : I.Op) : Prog I ε (I.Ans o) := .call o .ret

/-- Go on with a value or fail, as the `?` operator does. -/
def lift : Except ε α → Prog I ε α
  | .ok a => .ret a
  | .error e => .fail e

/-- Keep a failure as a value. -/
def attempt : Prog I ε α → Prog I ε' (Except ε α)
  | .ret a => .ret (.ok a)
  | .fail e => .ret (.error e)
  | .call o k => .call o fun x => (k x).attempt

end Prog

/-- The program performs the operations of the trace, gets their answers, and ends with the result. -/
inductive Run : Prog I ε α → List (Event I) → Except ε α → Prop where
  | ret {a : α} : Run (.ret a) [] (.ok a)
  | fail {e : ε} : Run (.fail e) [] (.error e)
  | call {o : I.Op} {k : I.Ans o → Prog I ε α} {x : I.Ans o} {t : List (Event I)} {r : Except ε α} :
      Run (k x) t r → Run (.call o k) (⟨o, x⟩ :: t) r

/-! ## Runs of the constructs -/

@[simp] theorem run_ret {a : α} {t : List (Event I)} {r : Except ε α} :
    Run (.ret a) t r ↔ t = [] ∧ r = .ok a := by
  constructor
  · rintro ⟨⟩
    exact ⟨rfl, rfl⟩
  · rintro ⟨rfl, rfl⟩
    exact .ret

@[simp] theorem run_pure {a : α} {t : List (Event I)} {r : Except ε α} :
    Run (pure a : Prog I ε α) t r ↔ t = [] ∧ r = .ok a := run_ret

@[simp] theorem run_fail {e : ε} {t : List (Event I)} {r : Except ε α} :
    Run (.fail e) t r ↔ t = [] ∧ r = .error e := by
  constructor
  · rintro ⟨⟩
    exact ⟨rfl, rfl⟩
  · rintro ⟨rfl, rfl⟩
    exact .fail

@[simp] theorem run_lift {x : Except ε α} {t : List (Event I)} {r : Except ε α} :
    Run (.lift x : Prog I ε α) t r ↔ t = [] ∧ r = x := by
  cases x <;> simp [Prog.lift]

theorem run_call {o : I.Op} {k : I.Ans o → Prog I ε α} {t : List (Event I)} {r : Except ε α} :
    Run (.call o k) t r ↔ ∃ x t', t = ⟨o, x⟩ :: t' ∧ Run (k x) t' r := by
  constructor
  · rintro ⟨⟩
    exact ⟨_, _, rfl, ‹_›⟩
  · rintro ⟨x, t', rfl, h⟩
    exact .call h

theorem run_ask {o : I.Op} {t : List (Event I)} {r : Except ε (I.Ans o)} :
    Run (.ask o) t r ↔ ∃ x, t = [⟨o, x⟩] ∧ r = .ok x := by
  rw [Prog.ask, run_call]
  constructor
  · rintro ⟨x, t', rfl, h⟩
    obtain ⟨rfl, rfl⟩ := run_ret.mp h
    exact ⟨x, rfl, rfl⟩
  · rintro ⟨x, rfl, rfl⟩
    exact ⟨x, [], rfl, .ret⟩

/-- A run of a sequence fails in its first part, or completes it and runs the second part. -/
theorem run_bind {p : Prog I ε α} {f : α → Prog I ε β} {t : List (Event I)} {r : Except ε β} :
    Run (p >>= f) t r ↔ (∃ e, Run p t (.error e) ∧ r = .error e) ∨
      ∃ a t₁ t₂, t = t₁ ++ t₂ ∧ Run p t₁ (.ok a) ∧ Run (f a) t₂ r := by
  change Run (p.bind f) t r ↔ _
  induction p generalizing t with
  | ret a => simp [Prog.bind]
  | fail e => simp [Prog.bind]
  | call o k ih =>
      rw [Prog.bind, run_call]
      constructor
      · rintro ⟨x, t', rfl, h⟩
        rcases (ih x).mp h with ⟨e, hp, rfl⟩ | ⟨a, t₁, t₂, rfl, hp, hf⟩
        · exact Or.inl ⟨e, .call hp, rfl⟩
        · exact Or.inr ⟨a, ⟨o, x⟩ :: t₁, t₂, rfl, .call hp, hf⟩
      · rintro (⟨e, hp, rfl⟩ | ⟨a, t₁, t₂, rfl, hp, hf⟩)
        · obtain ⟨x, t', rfl, hk⟩ := run_call.mp hp
          exact ⟨x, t', rfl, (ih x).mpr (Or.inl ⟨e, hk, rfl⟩)⟩
        · obtain ⟨x, t', rfl, hk⟩ := run_call.mp hp
          exact ⟨x, t' ++ t₂, rfl, (ih x).mpr (Or.inr ⟨a, t', t₂, rfl, hk, hf⟩)⟩

/-- A run of a sequence that returns a value completes both parts. -/
theorem run_bind_ok {p : Prog I ε α} {f : α → Prog I ε β} {t : List (Event I)} {b : β} :
    Run (p >>= f) t (.ok b) ↔ ∃ a t₁ t₂, t = t₁ ++ t₂ ∧ Run p t₁ (.ok a) ∧ Run (f a) t₂ (.ok b) := by
  simp [run_bind]

theorem Run.bind {p : Prog I ε α} {f : α → Prog I ε β} {t₁ t₂ : List (Event I)} {a : α} {r : Except ε β}
    (hp : Run p t₁ (.ok a)) (hf : Run (f a) t₂ r) : Run (p >>= f) (t₁ ++ t₂) r :=
  run_bind.mpr (Or.inr ⟨a, t₁, t₂, rfl, hp, hf⟩)

/-- A program that has ended on some answers does not go on. -/
theorem Run.ends {p : Prog I ε α} {t t' : List (Event I)} {r r' : Except ε α} (h : Run p t r)
    (h' : Run p (t ++ t') r') : t' = [] ∧ r' = r := by
  induction h with
  | ret => simpa using h'
  | fail => simpa using h'
  | call _ ih =>
      obtain ⟨x, t₂, ht, hrest⟩ := run_call.mp h'
      cases ht
      exact ih hrest

/-- After a completed first part the second part decides. -/
theorem Run.bind_iff {p : Prog I ε α} {f : α → Prog I ε β} {t u : List (Event I)} {a : α} {r : Except ε β}
    (h : Run p t (.ok a)) : Run (p >>= f) (t ++ u) r ↔ Run (f a) u r := by
  refine ⟨fun hrun => ?_, h.bind⟩
  rcases run_bind.mp hrun with ⟨e, hfail, _⟩ | ⟨b, u₁, u₂, happ, hfirst, hsecond⟩
  · cases (h.ends hfail).2
  · obtain ⟨m, rfl, rfl⟩ | ⟨m, rfl, rfl⟩ := List.append_eq_append_iff.mp happ
    · obtain ⟨rfl, hb⟩ := h.ends hfirst
      cases hb
      exact hsecond
    · obtain ⟨rfl, hb⟩ := hfirst.ends h
      cases hb
      exact hsecond

theorem run_attempt {p : Prog I ε α} {t : List (Event I)} {r : Except ε' (Except ε α)} :
    Run (p.attempt : Prog I ε' (Except ε α)) t r ↔ ∃ x, Run p t x ∧ r = .ok x := by
  induction p generalizing t with
  | ret a => simp [Prog.attempt]
  | fail e => simp [Prog.attempt]
  | call o k ih =>
      rw [Prog.attempt, run_call]
      constructor
      · rintro ⟨x, t', rfl, h⟩
        obtain ⟨y, hy, rfl⟩ := (ih x).mp h
        exact ⟨y, .call hy, rfl⟩
      · rintro ⟨y, hy, rfl⟩
        obtain ⟨x, t', rfl, hk⟩ := run_call.mp hy
        exact ⟨x, t', rfl, (ih x).mpr ⟨y, hk, rfl⟩⟩

/-! ## Sequences that begin with a given construct -/

theorem run_ask_bind {o : I.Op} {f : I.Ans o → Prog I ε α} {t : List (Event I)} {r : Except ε α} :
    Run (Prog.ask o >>= f) t r ↔ ∃ x t', t = ⟨o, x⟩ :: t' ∧ Run (f x) t' r :=
  run_call

theorem run_lift_bind {x : Except ε α} {f : α → Prog I ε β} {t : List (Event I)} {r : Except ε β} :
    Run (Prog.lift x >>= f) t r ↔
      (∃ e, x = .error e ∧ t = [] ∧ r = .error e) ∨ ∃ a, x = .ok a ∧ Run (f a) t r := by
  cases x with
  | error e =>
      change Run (.fail e) t r ↔ _
      simp
  | ok a =>
      change Run (f a) t r ↔ _
      simp

theorem run_attempt_bind {p : Prog I ε α} {f : Except ε α → Prog I ε' β} {t : List (Event I)} {r : Except ε' β} :
    Run (p.attempt >>= f) t r ↔ ∃ x t₁ t₂, t = t₁ ++ t₂ ∧ Run p t₁ x ∧ Run (f x) t₂ r := by
  rw [run_bind]
  constructor
  · rintro (⟨_, hp, _⟩ | ⟨x, t₁, t₂, rfl, hp, hf⟩)
    · obtain ⟨_, _, hx⟩ := run_attempt.mp hp
      cases hx
    · obtain ⟨y, hy, hx⟩ := run_attempt.mp hp
      cases hx
      exact ⟨x, t₁, t₂, rfl, hy, hf⟩
  · rintro ⟨x, t₁, t₂, rfl, hp, hf⟩
    exact Or.inr ⟨x, t₁, t₂, rfl, run_attempt.mpr ⟨x, hp, rfl⟩, hf⟩

/-! ## Following a trace -/

/-- The result of the program on a trace, if the trace is one of its runs. -/
def Prog.follow [DecidableEq I.Op] : Prog I ε α → List (Event I) → Option (Except ε α)
  | .ret a, [] => some (.ok a)
  | .fail e, [] => some (.error e)
  | .call o k, e :: t => if h : e.op = o then (k (h ▸ e.ans)).follow t else none
  | _, _ => none

theorem run_of_follow [DecidableEq I.Op] {p : Prog I ε α} {t : List (Event I)} {r : Except ε α}
    (h : p.follow t = some r) : Run p t r := by
  induction p generalizing t with
  | ret a =>
      cases t with
      | nil =>
          cases h
          exact .ret
      | cons e t => cases h
  | fail e =>
      cases t with
      | nil =>
          cases h
          exact .fail
      | cons e t => cases h
  | call o k ih =>
      cases t with
      | nil => cases h
      | cons e t =>
          obtain ⟨o', x⟩ := e
          simp only [Prog.follow] at h
          split at h
          · rename_i ho
            cases ho
            exact .call (ih _ h)
          · cases h

end PermissionSync.Base
