import Mathlib

/-!
# Sorting by a key

A stable sort by a key, the element it puts first among those with a property, and the fact that a list
sorted strictly by a key is determined by its members.
-/

namespace PermissionSync.Base

variable {α κ : Type} [LinearOrder κ]

/-- The lexicographic order on pairs compares as equal only equal pairs. -/
instance lexLawfulEqCmp {α β : Type} [LinearOrder α] [LinearOrder β] :
    Std.LawfulEqCmp (compare : α ×ₗ β → α ×ₗ β → Ordering) where
  compare_self := compare_eq_iff_eq.mpr rfl
  eq_of_compare := compare_eq_iff_eq.mp

/-- Sorts by `key`, keeping the order of elements with equal keys. -/
def sortByKey (key : α → κ) (l : List α) : List α := l.insertionSort (fun a b => key a ≤ key b)

theorem sortByKey_perm (key : α → κ) (l : List α) : (sortByKey key l).Perm l :=
  List.perm_insertionSort _ l

@[simp] theorem mem_sortByKey {key : α → κ} {l : List α} {a : α} : a ∈ sortByKey key l ↔ a ∈ l :=
  (sortByKey_perm key l).mem_iff

@[simp] theorem sortByKey_eq_nil {key : α → κ} {l : List α} : sortByKey key l = [] ↔ l = [] := by
  rw [← List.length_eq_zero_iff, (sortByKey_perm key l).length_eq, List.length_eq_zero_iff]

theorem sortByKey_le (key : α → κ) (l : List α) :
    (sortByKey key l).Pairwise (fun a b => key a ≤ key b) := by
  have : Std.Total (fun a b : α => key a ≤ key b) := ⟨fun a b => le_total (key a) (key b)⟩
  have : IsTrans α (fun a b : α => key a ≤ key b) := ⟨fun _ _ _ h₁ h₂ => le_trans h₁ h₂⟩
  exact List.pairwise_insertionSort _ l

theorem sortByKey_lt (key : α → κ) {l : List α} (h : (l.map key).Nodup) :
    (sortByKey key l).Pairwise (fun a b => key a < key b) := by
  have hnd : ((sortByKey key l).map key).Nodup := ((sortByKey_perm key l).map key).nodup_iff.mpr h
  have hne : (sortByKey key l).Pairwise (fun a b => key a ≠ key b) := List.pairwise_map.mp hnd
  exact ((sortByKey_le key l).and hne).imp fun h => lt_of_le_of_ne h.1 h.2

/-- A list sorted strictly by a key is determined by its members. -/
theorem eq_of_sorted_of_mem_iff (key : α → κ) {l₁ l₂ : List α}
    (h₁ : l₁.Pairwise (fun a b => key a < key b)) (h₂ : l₂.Pairwise (fun a b => key a < key b))
    (h : ∀ a, a ∈ l₁ ↔ a ∈ l₂) : l₁ = l₂ := by
  have : Std.Irrefl (fun a b : α => key a < key b) := ⟨fun a => lt_irrefl (key a)⟩
  have : Std.Antisymm (fun a b : α => key a < key b) := ⟨fun _ _ h₁ h₂ => absurd h₁ (lt_asymm h₂)⟩
  exact h₁.eq_of_mem_iff h₂ h

/-- Elements that stay in front of a sorted list: the rest of the new list was behind them, or has larger keys. -/
theorem prefix_of_sorted {key : α → κ} {front l₁ l₂ : List α} (h₁ : l₁.Pairwise (fun a b => key a < key b))
    (h₂ : l₂.Pairwise (fun a b => key a < key b)) (hfront : front <+: l₁) (hsub : ∀ x ∈ front, x ∈ l₂)
    (hnew : ∀ y ∈ l₂, y ∈ l₁ ∨ ∀ x ∈ front, key x < key y) : front <+: l₂ := by
  classical
  obtain ⟨back, rfl⟩ := hfront
  obtain ⟨hsorted, _, hbehind⟩ := List.pairwise_append.mp h₁
  refine ⟨l₂.filter (· ∉ front), eq_of_sorted_of_mem_iff key ?_ h₂ fun a => ?_⟩
  · refine List.pairwise_append.mpr ⟨hsorted, h₂.filter _, fun x hx y hy => ?_⟩
    obtain ⟨hy, hout⟩ := List.mem_filter.mp hy
    rcases hnew y hy with hmem | hlt
    · rcases List.mem_append.mp hmem with hmem | hmem
      · exact absurd hmem (by simpa using hout)
      · exact hbehind x hx y hmem
    · exact hlt x hx
  · simp only [List.mem_append, List.mem_filter, decide_not, Bool.not_eq_true', decide_eq_false_iff_not]
    constructor
    · intro h
      rcases h with h | h
      · exact hsub a h
      · exact h.1
    · intro h
      by_cases hmem : a ∈ front
      · exact Or.inl hmem
      · exact Or.inr ⟨h, hmem⟩

/-- In a list sorted strictly by a key, the first element with a property is the one of lowest key. -/
theorem find?_sorted_eq_some_iff {key : α → κ} {p : α → Bool} {l : List α} {a : α}
    (h : l.Pairwise (fun a b => key a < key b)) :
    l.find? p = some a ↔ a ∈ l ∧ p a ∧ ∀ b ∈ l, p b → key a ≤ key b := by
  induction l with
  | nil => simp
  | cons x xs ih =>
      obtain ⟨hx, hxs⟩ := List.pairwise_cons.mp h
      by_cases hp : p x
      · rw [List.find?_cons_of_pos hp, Option.some.injEq]
        constructor
        · rintro rfl
          refine ⟨List.mem_cons_self, hp, fun b hb _ => ?_⟩
          rcases List.mem_cons.mp hb with rfl | hb
          · exact le_refl _
          · exact le_of_lt (hx b hb)
        · rintro ⟨ha, _, hmin⟩
          rcases List.mem_cons.mp ha with rfl | ha
          · rfl
          · exact absurd (hx a ha) (not_lt_of_ge (hmin x List.mem_cons_self hp))
      · rw [List.find?_cons_of_neg hp, ih hxs]
        constructor
        · rintro ⟨ha, hpa, hmin⟩
          refine ⟨List.mem_cons_of_mem _ ha, hpa, fun b hb hpb => ?_⟩
          rcases List.mem_cons.mp hb with rfl | hb
          · exact absurd hpb hp
          · exact hmin b hb hpb
        · rintro ⟨ha, hpa, hmin⟩
          rcases List.mem_cons.mp ha with rfl | ha
          · exact absurd hpa hp
          · exact ⟨ha, hpa, fun b hb => hmin b (List.mem_cons_of_mem _ hb)⟩

/-- Sorting first and then filtering keeps, for distinct keys, the element of lowest key in front. -/
theorem find?_sortByKey_eq_some_iff {key : α → κ} {p : α → Bool} {l : List α} {a : α}
    (h : (l.map key).Nodup) :
    (sortByKey key l).find? p = some a ↔ a ∈ l ∧ p a ∧ ∀ b ∈ l, p b → key a ≤ key b := by
  rw [find?_sorted_eq_some_iff (sortByKey_lt key h)]
  simp only [mem_sortByKey]

/-- With distinct keys, the elements of one key are that one element. -/
theorem filter_key_eq_singleton {key : α → κ} {l : List α} {a : α} (h : (l.map key).Nodup) (ha : a ∈ l) :
    l.filter (fun b => key b = key a) = [a] := by
  induction l with
  | nil => cases ha
  | cons x xs ih =>
      obtain ⟨hx, hxs⟩ := List.nodup_cons.mp h
      rcases List.mem_cons.mp ha with rfl | ha
      · have hnil : xs.filter (fun b => key b = key a) = [] := by
          refine List.filter_eq_nil_iff.mpr fun b hb => ?_
          simpa using fun he => hx (List.mem_map.mpr ⟨b, hb, he⟩)
        simp [hnil]
      · have hne : key x ≠ key a := fun he => hx (he ▸ List.mem_map.mpr ⟨a, ha, rfl⟩)
        rw [List.filter_cons_of_neg (by simpa using hne)]
        exact ih hxs ha

end PermissionSync.Base
