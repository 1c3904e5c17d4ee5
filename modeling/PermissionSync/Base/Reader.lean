import Mathlib

/-!
# Readers

A reader takes a text from the front of the input and returns a value with what is left. It is sound for a language if
it takes only texts of the language, and complete if it takes each of them from every input that goes on as it may.
-/

namespace PermissionSync.Base

variable {β γ : Type}

abbrev Reader (β α : Type) := List β → Option (α × List β)

/-! ## Skipping -/

section Skip

variable {p : β → Bool} {w r : List β}

/-- What is left does not start with an item to be skipped. -/
def StartsNot (p : β → Bool) (r : List β) : Prop := ∀ b ∈ r.head?, p b = false

@[simp] theorem startsNot_nil : StartsNot p [] := by simp [StartsNot]

@[simp] theorem startsNot_cons {b : β} : StartsNot p (b :: r) ↔ p b = false := by simp [StartsNot]

theorem any_head_eq_false (h : StartsNot p r) : r.head?.any p = false := by
  cases r with
  | nil => rfl
  | cons b r => simpa using h

theorem dropWhile_eq_self (h : StartsNot p r) : r.dropWhile p = r := by
  cases r with
  | nil => rfl
  | cons b r => rw [List.dropWhile_cons_of_neg (by simp [startsNot_cons.mp h])]

theorem dropWhile_append_eq (hw : ∀ b ∈ w, p b = true) (hr : StartsNot p r) : (w ++ r).dropWhile p = r := by
  rw [List.dropWhile_append_of_pos hw, dropWhile_eq_self hr]

theorem takeWhile_append_eq (hw : ∀ b ∈ w, p b = true) (hr : StartsNot p r) : (w ++ r).takeWhile p = w := by
  rw [List.takeWhile_append_of_pos hw]
  cases r with
  | nil => simp
  | cons b r => simp [startsNot_cons.mp hr]

theorem exists_skipped (p : β → Bool) (i : List β) : ∃ w, (∀ b ∈ w, p b = true) ∧ i = w ++ i.dropWhile p :=
  ⟨i.takeWhile p, fun _ hb => List.mem_takeWhile_imp hb, List.takeWhile_append_dropWhile.symm⟩

end Skip

/-! ## Units up to a closing item -/

/-- A text made of units, with what the units stand for. -/
inductive Units (unit : List β → List γ → Prop) : List β → List γ → Prop
  | nil : Units unit [] []
  | cons {t ts : List β} {d ds : List γ} (head : unit t d) (tail : Units unit ts ds) : Units unit (t ++ ts) (d ++ ds)

/-- Reads units until the closing item, which is taken. -/
def readUnits [DecidableEq β] (close : β) (unit : Reader β (List γ)) : Nat → Reader β (List γ)
  | 0, _ => none
  | _ + 1, [] => none
  | n + 1, b :: i =>
      if b = close then some ([], i)
      else do
        let (d, r) ← unit (b :: i)
        let (ds, r) ← readUnits close unit n r
        some (d ++ ds, r)

section Units

variable [DecidableEq β] {close : β} {read : Reader β (List γ)} {unit : List β → List γ → Prop} {n : Nat}
  {i t r : List β} {ds : List γ}

theorem readUnits_sound (hread : ∀ {b i d r}, b ≠ close → read (b :: i) = some (d, r) → ∃ t, b :: i = t ++ r ∧ unit t d)
    (h : readUnits close read n i = some (ds, r)) : ∃ t, i = t ++ close :: r ∧ Units unit t ds := by
  induction n generalizing i ds with
  | zero => cases h
  | succ n ih =>
      cases i with
      | nil => cases h
      | cons b i =>
          rw [readUnits] at h
          split at h
          · rename_i hb
            cases h
            exact ⟨[], by rw [hb]; rfl, .nil⟩
          · rename_i hb
            simp only [Option.bind_eq_bind, Option.bind_eq_some_iff, Prod.exists] at h
            obtain ⟨d, r₁, hunit, ds', r₂, hrest, he⟩ := h
            cases he
            obtain ⟨t, ht, hd⟩ := hread hb hunit
            obtain ⟨ts, hts, hds⟩ := ih hrest
            exact ⟨t ++ ts, by rw [ht, hts, List.append_assoc], .cons hd hds⟩

theorem readUnits_complete (hread : ∀ {t d r}, unit t d → read (t ++ r) = some (d, r))
    (hhead : ∀ {t d}, unit t d → ∃ b t', t = b :: t' ∧ b ≠ close)
    (h : Units unit t ds) (hn : t.length < n) : readUnits close read n (t ++ close :: r) = some (ds, r) := by
  induction h generalizing n with
  | nil =>
      obtain ⟨n, rfl⟩ := Nat.exists_eq_add_one_of_ne_zero (Nat.ne_zero_of_lt hn)
      simp [readUnits]
  | cons head tail ih =>
      rename_i t ts d ds
      obtain ⟨n, rfl⟩ := Nat.exists_eq_add_one_of_ne_zero (Nat.ne_zero_of_lt hn)
      obtain ⟨b, t', rfl, hb⟩ := hhead head
      have hunit : read (b :: (t' ++ (ts ++ close :: r))) = some (d, ts ++ close :: r) := hread head
      have hrest := @ih n (by simp only [List.length_append, List.length_cons] at hn; omega)
      simp [readUnits, hb, hunit, hrest]

end Units

end PermissionSync.Base
