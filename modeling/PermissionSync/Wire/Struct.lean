import PermissionSync.Wire.Json

/-!
# What a derived struct accepts
-/

namespace PermissionSync.Wire

variable {ms : List (String × Json)} {name : String} {names : List String} {v : Json}

/-! ## Members -/

theorem member_of_mem (h : (ms.map Prod.fst).Nodup) (hm : (name, v) ∈ ms) : member ms name = some v := by
  cases hf : ms.find? fun m => m.1 == name with
  | none => exact absurd (by simp) (List.find?_eq_none.mp hf (name, v) hm)
  | some m =>
      have hname : m.1 = name := by simpa using List.find?_some hf
      have := List.inj_on_of_nodup_map h (List.mem_of_find?_eq_some hf) hm hname
      simp [member, hf, this]

theorem mem_of_member (h : member ms name = some v) : (name, v) ∈ ms := by
  simp only [member, Option.map_eq_some_iff] at h
  obtain ⟨m, hm, rfl⟩ := h
  have hname : m.1 = name := by simpa using List.find?_some hm
  rw [← hname]
  exact List.mem_of_find?_eq_some hm

theorem member_eq_none (h : name ∉ ms.map Prod.fst) : member ms name = none := by
  have : ms.find? (fun m => m.1 == name) = none := by
    rw [List.find?_eq_none]
    intro m hm he
    exact h (List.mem_map.mpr ⟨m, hm, by simpa using he⟩)
  simp [member, this]

theorem countP_name (name : String) : ms.countP (fun m => m.1 == name) = (ms.map Prod.fst).count name := by
  rw [List.count, List.countP_map]
  rfl

theorem structFields_obj {deny : Bool} (h : (ms.map Prod.fst).Nodup) (hdeny : deny = true → ∀ m ∈ ms, m.1 ∈ names) :
    structFields names deny (.obj ms) = some (names.map fun n => member ms n) := by
  have hcount : (names.all fun n => decide (ms.countP (fun m => m.1 == n) ≤ 1)) = true := by
    simp [countP_name, List.nodup_iff_count_le_one.mp h]
  have hknown : (!deny || ms.all fun m => names.contains m.1) = true := by
    cases deny with
    | false => rfl
    | true => simpa using hdeny rfl
  simp only [structFields, hcount, hknown, Bool.and_self, if_true]

/-! ## Structs whose fields are all required -/

/-- An object with exactly the given members, each once and in any order. -/
def Json.HasExactly (j : Json) (members : List (String × Json)) : Prop := ∃ ms, j = .obj ms ∧ ms.Perm members

/-- A struct that denies unknown fields reads an object only if no member is repeated. -/
theorem nodup_of_structFields {vs : List (Option Json)} (h : structFields names true (.obj ms) = some vs) :
    (ms.map Prod.fst).Nodup ∧ (∀ m ∈ ms, m.1 ∈ names) ∧ vs = names.map fun n => member ms n := by
  simp only [structFields] at h
  split at h
  · rename_i hc
    simp only [Bool.not_true, Bool.false_or, Bool.and_eq_true, List.all_eq_true, decide_eq_true_eq,
      List.contains_iff_mem] at hc
    obtain ⟨hcount, hknown⟩ := hc
    refine ⟨List.nodup_iff_count_le_one.mpr fun n => ?_, hknown, (Option.some.inj h).symm⟩
    by_cases hn : n ∈ names
    · rw [← countP_name]
      exact hcount n hn
    · rw [List.count_eq_zero_of_not_mem]
      · exact Nat.zero_le 1
      · intro hmem
        obtain ⟨m, hm, rfl⟩ := List.mem_map.mp hmem
        exact hn (hknown m hm)
  · cases h

theorem perm_zip_of_structFields {values : List Json} (hnames : names.Nodup) (hlen : values.length = names.length)
    (h : structFields names true (.obj ms) = some (values.map some)) : ms.Perm (names.zip values) := by
  obtain ⟨hnodup, hknown, hvalues⟩ := nodup_of_structFields h
  have hzip : (names.zip values).map Prod.fst = names := List.map_fst_zip hlen.ge
  have hmember : ∀ n v, (n, v) ∈ names.zip values → member ms n = some v := by
    intro n v hmem
    obtain ⟨i, hi, he⟩ := List.mem_iff_getElem.mp hmem
    have hi' : i < names.length := by simp at hi; omega
    simp only [List.getElem_zip, Prod.mk.injEq] at he
    obtain ⟨rfl, rfl⟩ := he
    have hget := congrArg (fun l => l[i]?) hvalues
    simpa [hi', hlen] using hget.symm
  have hnodup' : ((names.zip values).map Prod.fst).Nodup := by rwa [hzip]
  refine (List.perm_ext_iff_of_nodup hnodup.of_map hnodup'.of_map).mpr ?_
  intro m
  obtain ⟨n, v⟩ := m
  constructor
  · intro hm
    have hn : n ∈ (names.zip values).map Prod.fst := by
      rw [hzip]
      exact hknown (n, v) hm
    obtain ⟨m', hm', rfl⟩ := List.mem_map.mp hn
    have heq := hmember m'.1 m'.2 hm'
    rw [member_of_mem hnodup hm] at heq
    rw [Option.some.inj heq]
    exact hm'
  · intro hm
    exact mem_of_member (hmember n v hm)

/-- A struct whose fields are all required and that denies unknown ones is read from the object of its fields, and
from the array of their values. -/
theorem structFields_eq_some_iff {values : List Json} {j : Json} (hnames : names.Nodup)
    (hlen : values.length = names.length) :
    structFields names true j = some (values.map some) ↔ j.HasExactly (names.zip values) ∨ j = .arr values := by
  have hzip : (names.zip values).map Prod.fst = names := List.map_fst_zip hlen.ge
  constructor
  · intro h
    cases j with
    | obj ms => exact Or.inl ⟨ms, rfl, perm_zip_of_structFields hnames hlen h⟩
    | arr vs =>
        right
        simp only [structFields] at h
        split at h
        · rename_i hle
          have heq := Option.some.inj h
          have hfull : vs.length = names.length := by
            by_contra hne
            have hnone : none ∈ vs.map some ++ List.replicate (names.length - vs.length) (none : Option Json) :=
              List.mem_append_right _ (List.mem_replicate.mpr ⟨by omega, rfl⟩)
            rw [heq] at hnone
            simp at hnone
          rw [hfull, Nat.sub_self, List.replicate_zero, List.append_nil] at heq
          rw [List.map_injective_iff.mpr (Option.some_injective _) heq]
        · cases h
    | null => cases h
    | bool b => cases h
    | num n => cases h
    | str s => cases h
  · intro h
    rcases h with ⟨ms, rfl, hperm⟩ | rfl
    · have hkeys : (ms.map Prod.fst).Perm names := hzip ▸ hperm.map Prod.fst
      have hnodup := hkeys.nodup_iff.mpr hnames
      rw [structFields_obj hnodup fun _ m hm => hkeys.mem_iff.mp (List.mem_map_of_mem hm)]
      congr 1
      refine List.ext_getElem (by simp [hlen]) fun i hi hi' => ?_
      simp only [List.getElem_map]
      refine member_of_mem hnodup (hperm.mem_iff.mpr ?_)
      simp only [List.length_map] at hi hi'
      exact List.mem_iff_getElem.mpr ⟨i, by simp; omega, by simp⟩
    · simp [structFields, hlen]

end PermissionSync.Wire
