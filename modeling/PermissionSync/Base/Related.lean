import Mathlib

/-!
# Lists related element by element
-/

namespace PermissionSync.Base

variable {α β γ δ : Type} {R : α → β → Prop} {l : List α} {l' : List β}

theorem exists_left_of_mem (h : List.Forall₂ R l l') {b : β} (hb : b ∈ l') : ∃ a ∈ l, R a b := by
  induction h with
  | nil => cases hb
  | @cons a b' l l' hab _ ih =>
      rcases List.mem_cons.mp hb with rfl | hb
      · exact ⟨a, List.mem_cons_self, hab⟩
      · obtain ⟨a', ha', hr⟩ := ih hb
        exact ⟨a', List.mem_cons_of_mem _ ha', hr⟩

theorem exists_right_of_mem (h : List.Forall₂ R l l') {a : α} (ha : a ∈ l) : ∃ b ∈ l', R a b :=
  exists_left_of_mem h.flip ha

/-- Keys stay distinct when equal keys on the right come from equal keys on the left. -/
theorem nodup_map_of_forall₂ {f : α → γ} {g : β → δ} (h : List.Forall₂ R l l') (hl : (l.map f).Nodup)
    (hinj : ∀ a b a' b', R a b → R a' b' → g b = g b' → f a = f a') : (l'.map g).Nodup := by
  induction h with
  | nil => exact List.nodup_nil
  | @cons a b l l' hab hrest ih =>
      rw [List.map_cons, List.nodup_cons] at hl ⊢
      refine ⟨fun hmem => hl.1 ?_, ih hl.2⟩
      obtain ⟨b', hb', he⟩ := List.mem_map.mp hmem
      obtain ⟨a', ha', hr⟩ := exists_left_of_mem hrest hb'
      exact List.mem_map.mpr ⟨a', ha', (hinj a b a' b' hab hr he.symm).symm⟩

end PermissionSync.Base
