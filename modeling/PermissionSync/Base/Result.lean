import Mathlib

/-!
# Results

`Result` values are `Except` values. `okOr` and `ensure` are the two ways a check fails early.
-/

namespace PermissionSync.Base

variable {ε α β γ : Type}

/-- `Option::ok_or`. -/
def okOr (x : Option α) (e : ε) : Except ε α :=
  match x with
  | some a => .ok a
  | none => .error e

/-- Fail unless the condition holds. -/
def ensure (c : Prop) [Decidable c] (e : ε) : Except ε Unit := if c then .ok () else .error e

@[simp] theorem okOr_some (a : α) (e : ε) : okOr (some a) e = .ok a := rfl

@[simp] theorem okOr_none (e : ε) : okOr (none : Option α) e = .error e := rfl

@[simp] theorem okOr_eq_ok {x : Option α} {e : ε} {a : α} : okOr x e = .ok a ↔ x = some a := by
  cases x <;> simp

@[simp] theorem ensure_eq_ok {c : Prop} [Decidable c] {e : ε} {u : Unit} : ensure c e = .ok u ↔ c := by
  unfold ensure
  split <;> simp_all

theorem ensure_of {c : Prop} [Decidable c] (h : c) (e : ε) : ensure c e = .ok () := if_pos h

@[simp] theorem ok_bind (a : α) (f : α → Except ε β) : ((.ok a : Except ε α) >>= f) = f a := rfl

@[simp] theorem error_bind (e : ε) (f : α → Except ε β) : ((.error e : Except ε α) >>= f) = .error e := rfl

@[simp] theorem pure_eq_ok (a : α) : (pure a : Except ε α) = .ok a := rfl

@[simp] theorem throw_eq_error (e : ε) : (throw e : Except ε α) = .error e := rfl

/-- A computation succeeds when both of its parts do. -/
@[simp] theorem bind_eq_ok {x : Except ε α} {f : α → Except ε β} {b : β} :
    (x >>= f) = .ok b ↔ ∃ a, x = .ok a ∧ f a = .ok b := by
  cases x with
  | error e => simp
  | ok a => simp

/-- A computation fails in one of its parts. -/
theorem bind_eq_error {x : Except ε α} {f : α → Except ε β} {e : ε} :
    (x >>= f) = .error e ↔ x = .error e ∨ ∃ a, x = .ok a ∧ f a = .error e := by
  cases x with
  | error e => simp
  | ok a => simp

theorem okOr_eq_error {x : Option α} {e e' : ε} : okOr x e = .error e' ↔ x = none ∧ e = e' := by
  cases x <;> simp

theorem ensure_eq_error {c : Prop} [Decidable c] {e e' : ε} : ensure c e = .error e' ↔ ¬ c ∧ e = e' := by
  unfold ensure
  split <;> simp_all

theorem map_bind (f : β → γ) (x : Except ε α) (g : α → Except ε β) :
    (x >>= g).map f = x >>= fun a => (g a).map f := by
  cases x <;> rfl

/-! ## Loops -/

/-- A loop of checks that succeeds on every element succeeds, and its values are those of the elements. -/
theorem mapM_eq_ok {f : α → Except ε β} {l : List α} {g : α → β} (h : ∀ a ∈ l, f a = .ok (g a)) :
    l.mapM f = .ok (l.map g) := by
  induction l with
  | nil => rfl
  | cons a l ih =>
      have hl := ih fun b hb => h b (List.mem_cons_of_mem _ hb)
      simp [h a List.mem_cons_self, hl]

/-- A loop of readers succeeds with good values when each of them does. -/
theorem exists_mapM_eq_some {f : α → Option β} {P : β → Prop} {l : List α} :
    (∃ r, l.mapM f = some r ∧ ∀ b ∈ r, P b) ↔ ∀ a ∈ l, ∃ b, f a = some b ∧ P b := by
  induction l with
  | nil => simp
  | cons a l ih =>
      rw [List.forall_mem_cons, ← ih]
      constructor
      · intro h
        obtain ⟨r, hr, hP⟩ := h
        simp only [List.mapM_cons, Option.bind_eq_bind, Option.bind_eq_some_iff, Option.pure_def,
          Option.some.injEq] at hr
        obtain ⟨b, hb, bs, hbs, rfl⟩ := hr
        exact ⟨⟨b, hb, hP b List.mem_cons_self⟩, bs, hbs, fun x hx => hP x (List.mem_cons_of_mem _ hx)⟩
      · intro h
        obtain ⟨⟨b, hb, hPb⟩, bs, hbs, hPbs⟩ := h
        exact ⟨b :: bs, by simp [hb, hbs], List.forall_mem_cons.mpr ⟨hPb, hPbs⟩⟩

/-- A loop that appends something for every element. -/
theorem foldlM_append_eq_ok {f : List β → α → Except ε (List β)} {g : α → List β} {l : List α}
    (h : ∀ a ∈ l, ∀ acc, f acc a = .ok (acc ++ g a)) (acc : List β) : l.foldlM f acc = .ok (acc ++ l.flatMap g) := by
  induction l generalizing acc with
  | nil => simp
  | cons a l ih =>
      have hl := ih (fun b hb => h b (List.mem_cons_of_mem _ hb)) (acc ++ g a)
      simp [h a List.mem_cons_self, hl]

/-- A loop that keeps what it takes, in any order, has taken everything. -/
theorem perm_of_foldlM {f : β → α → Option β} {taken : β → List α} {l : List α} {b b' : β}
    (h : ∀ {b a b'}, f b a = some b' → (taken b').Perm (a :: taken b)) (hl : l.foldlM f b = some b') :
    (taken b').Perm (l ++ taken b) := by
  induction l generalizing b with
  | nil =>
      cases hl
      exact .refl _
  | cons a l ih =>
      simp only [List.foldlM_cons, Option.bind_eq_bind, Option.bind_eq_some_iff] at hl
      obtain ⟨b₁, hturn, hrest⟩ := hl
      exact (ih hrest).trans (((h hturn).append_left l).trans List.perm_middle)

/-- A loop fails when one of its turns does and the others can only fail alike. -/
theorem foldlM_eq_error {f : β → α → Except ε β} {e : ε} {l : List α} {a : α} (hmem : a ∈ l)
    (hfail : ∀ b, f b a = .error e) (h : ∀ a ∈ l, ∀ b e', f b a = .error e' → e' = e) (b : β) :
    l.foldlM f b = .error e := by
  induction l generalizing b with
  | nil => cases hmem
  | cons a' l ih =>
      rw [List.foldlM_cons]
      cases hturn : f b a' with
      | error e' =>
          rw [h a' List.mem_cons_self b e' hturn]
          rfl
      | ok b' =>
          rcases List.mem_cons.mp hmem with rfl | hmem
          · cases (hfail b).symm.trans hturn
          · exact ih hmem (fun c hc => h c (List.mem_cons_of_mem _ hc)) b'

theorem length_of_mapM_eq_ok {f : α → Except ε β} {l : List α} {r : List β} (h : l.mapM f = .ok r) :
    r.length = l.length := by
  induction l generalizing r with
  | nil =>
      cases h
      rfl
  | cons a l ih =>
      simp only [List.mapM_cons, bind_eq_ok, pure_eq_ok, Except.ok.injEq] at h
      obtain ⟨b, _, bs, hbs, rfl⟩ := h
      simp [ih hbs]

end PermissionSync.Base
