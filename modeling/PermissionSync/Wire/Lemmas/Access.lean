import PermissionSync.Base.Result
import PermissionSync.Wire.Access
import PermissionSync.Wire.Lemmas.Grammar

/-!
# A visitor takes exactly the texts of its members
-/

namespace PermissionSync.Wire

open PermissionSync.Base

variable {σ M A B : Type} {i r t w : List UInt8} {n : Nat} {first more : Bool} {s : String}

/-! ## Strings and booleans -/

theorem Spells.startsNot (h : Spells t s) : StartsNot isJsonWhitespace (t ++ r) := by
  obtain ⟨cs, rfl, _⟩ := h
  exact startsNot_cons.mpr (by decide)

theorem readStr_eq_some : readStr i = some (s, r) ↔ ∃ t, i = t ++ r ∧ Spells t s := by
  constructor
  · intro h
    unfold readStr at h
    split at h
    · simp only [Option.bind_eq_bind, Option.bind_eq_some_iff, Prod.exists] at h
      obtain ⟨bytes, r', hparse, s', hutf8, he⟩ := h
      cases he
      obtain ⟨cs, rfl, hunits⟩ := parseStr_eq_some.mp hparse
      rw [← fromUtf8_eq_some.mp hutf8] at hunits
      exact ⟨34 :: cs ++ [34], by simp, cs, rfl, hunits⟩
    · cases h
  · rintro ⟨t, rfl, cs, rfl, hunits⟩
    have hparse : parseStr (cs ++ 34 :: r) = some (asBytes s, r) := parseStr_eq_some.mpr ⟨cs, rfl, hunits⟩
    simp [readStr, hparse, fromUtf8_eq_some.mpr rfl]

/-- The reader takes, after whitespace, exactly the texts of its values. -/
structure Reads (read : Reader UInt8 A) (Value : A → List UInt8 → Prop) : Prop where
  sound : ∀ {i a r}, read i = some (a, r) → ∃ w v, Spaces w ∧ i = w ++ v ++ r ∧ Value a v
  complete : ∀ {w v a r}, Spaces w → Value a v → EndsNumber r → read (w ++ (v ++ r)) = some (a, r)

theorem reads_deserializeString : Reads deserializeString fun s t => Spells t s where
  sound {i s r} h := by
    obtain ⟨w, hw, hi⟩ := exists_spaces i
    obtain ⟨t, ht, hspells⟩ := readStr_eq_some.mp h
    exact ⟨w, t, hw, by rw [hi, ht, List.append_assoc], hspells⟩
  complete hw ht _ := by
    rw [deserializeString, skipSpaces_append hw ht.startsNot]
    exact readStr_eq_some.mpr ⟨_, rfl, ht⟩

theorem reads_deserializeBool : Reads deserializeBool BoolText where
  sound {i b r} h := by
    obtain ⟨w, hw, hi⟩ := exists_spaces i
    unfold deserializeBool at h
    split at h
    · cases h
    · rename_i c i' hskip
      rw [hskip] at hi
      split_ifs at h with htrue hfalse
      · obtain ⟨r', hident, he⟩ := Option.map_eq_some_iff.mp h
        cases he
        exact ⟨w, [116, 114, 117, 101], hw, by rw [hi, htrue, parseIdent_sound hident]; simp, rfl⟩
      · obtain ⟨r', hident, he⟩ := Option.map_eq_some_iff.mp h
        cases he
        exact ⟨w, [102, 97, 108, 115, 101], hw, by rw [hi, hfalse, parseIdent_sound hident]; simp, rfl⟩
  complete {w v b r} hw hv _ := by
    cases b with
    | true =>
        cases hv
        have hskip := skipSpaces_append hw (startsNot_cons.mpr (by decide) :
          StartsNot isJsonWhitespace (116 :: ([114, 117, 101] ++ r)))
        simp only [List.cons_append, List.nil_append] at hskip ⊢
        simp [deserializeBool, hskip, parseIdent]
    | false =>
        cases hv
        have hskip := skipSpaces_append hw (startsNot_cons.mpr (by decide) :
          StartsNot isJsonWhitespace (102 :: ([97, 108, 115, 101] ++ r)))
        simp only [List.cons_append, List.nil_append] at hskip ⊢
        simp [deserializeBool, hskip, parseIdent]

/-! ## The end -/

theorem skipSpaces_eq_nil : skipSpaces r = [] ↔ Spaces r := by
  simp [skipSpaces, Spaces, List.dropWhile_eq_nil_iff]

theorem endOfInput_eq_some {u : Unit} : endOfInput r = some u ↔ Spaces r := by
  rw [← skipSpaces_eq_nil, endOfInput]
  split <;> simp_all

/-! ## Elements -/

/-- What may begin an element. -/
def BeginsElement (r : List UInt8) : Prop := ∃ c r', r = c :: r' ∧ c ≠ 93 ∧ isJsonWhitespace c = false

theorem Grammar.beginsElement {kind : Kind} (h : Grammar kind t) : BeginsElement (t ++ r) := by
  obtain ⟨c, t', rfl, hc⟩ := h.head
  simp only [closesOrBlank, Bool.or_eq_false_iff, beq_eq_false_iff_ne] at hc
  exact ⟨c, t' ++ r, rfl, hc.1.2, hc.1.1⟩

theorem hasNextElement_sound (h : hasNextElement first i = some (more, r)) :
    ∃ w, Spaces w ∧ ((more = false ∧ i = w ++ r ∧ ∃ r', r = 93 :: r') ∨
      (more = true ∧ first = true ∧ i = w ++ r) ∨
      (more = true ∧ first = false ∧ ∃ w', Spaces w' ∧ i = w ++ 44 :: (w' ++ r))) := by
  obtain ⟨w, hw, hi⟩ := exists_spaces i
  refine ⟨w, hw, ?_⟩
  unfold hasNextElement at h
  split at h
  · cases h
  · rename_i c i' hskip
    rw [hskip] at hi
    split_ifs at h with hclose hfirst hcomma
    · cases h
      exact Or.inl ⟨rfl, hi, i', by rw [hclose]⟩
    · cases h
      exact Or.inr (Or.inl ⟨rfl, hfirst, hi⟩)
    · obtain ⟨w', hw', hi'⟩ := exists_spaces i'
      split at h
      · cases h
      · rename_i d r' hskip'
        split at h
        · cases h
        · cases h
          refine Or.inr (Or.inr ⟨rfl, by simpa using hfirst, w', hw', ?_⟩)
          rw [hi, hcomma, hi', hskip']

theorem exists_first_element (h : hasNextElement true i = some (true, r)) : ∃ w, Spaces w ∧ i = w ++ r := by
  obtain ⟨w, hw, ⟨hno, _⟩ | ⟨_, _, rfl⟩ | ⟨_, hno, _⟩⟩ := hasNextElement_sound h
  · cases hno
  · exact ⟨w, hw, rfl⟩
  · cases hno

theorem exists_next_element (h : hasNextElement false i = some (true, r)) :
    ∃ w w', Spaces w ∧ Spaces w' ∧ i = w ++ 44 :: (w' ++ r) := by
  obtain ⟨w, hw, ⟨hno, _⟩ | ⟨_, hno, _⟩ | ⟨_, _, w', hw', rfl⟩⟩ := hasNextElement_sound h
  · cases hno
  · cases hno
  · exact ⟨w, w', hw, hw', rfl⟩

theorem exists_close (h : hasNextElement first i = some (false, r)) :
    ∃ w r', Spaces w ∧ r = 93 :: r' ∧ i = w ++ 93 :: r' := by
  obtain ⟨w, hw, ⟨_, rfl, r', rfl⟩ | ⟨hno, _⟩ | ⟨hno, _⟩⟩ := hasNextElement_sound h
  · exact ⟨w, r', hw, rfl, rfl⟩
  · cases hno
  · cases hno

theorem hasNextElement_close (hw : Spaces w) : hasNextElement first (w ++ 93 :: r) = some (false, 93 :: r) := by
  simp [hasNextElement, skipSpaces_append hw (r := 93 :: r) (startsNot_cons.mpr (by decide))]

theorem hasNextElement_first (hw : Spaces w) (hr : BeginsElement r) :
    hasNextElement true (w ++ r) = some (true, r) := by
  obtain ⟨c, r', rfl, hclose, hblank⟩ := hr
  simp [hasNextElement, skipSpaces_append hw (r := c :: r') (startsNot_cons.mpr hblank), hclose]

theorem hasNextElement_next {w' : List UInt8} (hw : Spaces w) (hw' : Spaces w') (hr : BeginsElement r) :
    hasNextElement false (w ++ 44 :: (w' ++ r)) = some (true, r) := by
  obtain ⟨c, r', rfl, hclose, hblank⟩ := hr
  have hcomma : skipSpaces (w ++ 44 :: (w' ++ c :: r')) = 44 :: (w' ++ c :: r') :=
    skipSpaces_append hw (startsNot_cons.mpr (by decide))
  simp [hasNextElement, hcomma, skipSpaces_append hw' (r := c :: r') (startsNot_cons.mpr hblank), hclose]

/-! ## Members -/

theorem hasNextKey_sound (h : hasNextKey first i = some (more, r)) :
    ∃ w, Spaces w ∧ ((more = false ∧ i = w ++ r ∧ ∃ r', r = 125 :: r') ∨
      (more = true ∧ first = true ∧ i = w ++ 34 :: r) ∨
      (more = true ∧ first = false ∧ ∃ w', Spaces w' ∧ i = w ++ 44 :: (w' ++ 34 :: r))) := by
  obtain ⟨w, hw, hi⟩ := exists_spaces i
  refine ⟨w, hw, ?_⟩
  unfold hasNextKey at h
  split at h
  · cases h
  · rename_i b i' hskip
    rw [hskip] at hi
    split_ifs at h with hbrace hfirst hquote hcomma
    · cases h
      exact Or.inl ⟨rfl, hi, i', by rw [hbrace]⟩
    · cases h
      exact Or.inr (Or.inl ⟨rfl, hfirst, by rw [hi, hquote]⟩)
    · obtain ⟨w', hw', hi'⟩ := exists_spaces i'
      split at h
      · cases h
      · rename_i c r' hskip'
        split at h
        · rename_i hc
          cases h
          refine Or.inr (Or.inr ⟨rfl, by simpa using hfirst, w', hw', ?_⟩)
          rw [hi, hcomma, hi', hskip', hc]
        · cases h

theorem hasNextKey_close (hw : Spaces w) : hasNextKey first (w ++ 125 :: r) = some (false, 125 :: r) := by
  simp [hasNextKey, skipSpaces_append hw (r := 125 :: r) (startsNot_cons.mpr (by decide))]

theorem hasNextKey_first (hw : Spaces w) : hasNextKey true (w ++ 34 :: r) = some (true, r) := by
  simp [hasNextKey, skipSpaces_append hw (r := 34 :: r) (startsNot_cons.mpr (by decide))]

theorem hasNextKey_next {w' : List UInt8} (hw : Spaces w) (hw' : Spaces w') :
    hasNextKey false (w ++ 44 :: (w' ++ 34 :: r)) = some (true, r) := by
  have hquote : skipSpaces (w' ++ 34 :: r) = 34 :: r := skipSpaces_append hw' (startsNot_cons.mpr (by decide))
  have hcomma : skipSpaces (w ++ 44 :: (w' ++ 34 :: r)) = 44 :: (w' ++ 34 :: r) :=
    skipSpaces_append hw (startsNot_cons.mpr (by decide))
  simp [hasNextKey, hcomma, hquote]

/-! ## Visitors -/

/-- The visitor takes the texts of the members that it can insert. -/
structure Visits (visit : σ → Reader UInt8 σ) (Text : M → List UInt8 → Prop) (insert : σ → M → Option σ) : Prop where
  sound : ∀ {s i s' r}, visit s i = some (s', r) → ∃ m t, 34 :: i = t ++ r ∧ Text m t ∧ insert s m = some s'
  complete : ∀ {s s' m t r}, Text m t → insert s m = some s' → EndsNumber r →
    ∃ t', t = 34 :: t' ∧ visit s (t' ++ r) = some (s', r)

variable {visit : σ → Reader UInt8 σ} {Text : M → List UInt8 → Prop} {insert : σ → M → Option σ} {s s' : σ}
  {ms : List M}

theorem visitMap_sound (hvisit : Visits visit Text insert) (h : visitMap visit n first s i = some (s', r)) :
    ∃ ms t r', r = 125 :: r' ∧ i = t ++ r ∧ MembersText Text first ms t ∧ ms.foldlM insert s = some s' := by
  induction n generalizing first s i with
  | zero => cases h
  | succ n ih =>
      simp only [visitMap, Option.bind_eq_bind, Option.bind_eq_some_iff, Prod.exists] at h
      obtain ⟨more, r₁, hkey, h⟩ := h
      obtain ⟨w, hw, ⟨rfl, rfl, r', rfl⟩ | ⟨rfl, rfl, rfl⟩ | ⟨rfl, rfl, w', hw', rfl⟩⟩ := hasNextKey_sound hkey
      · cases h
        exact ⟨[], w, r', rfl, rfl, .nil hw, rfl⟩
      all_goals
        simp only [if_true, Option.bind_eq_some_iff, Prod.exists] at h
        obtain ⟨s₁, r₂, hmember, hrest⟩ := h
        obtain ⟨m, t, ht, hmt, hinsert⟩ := hvisit.sound hmember
        obtain ⟨ms, ts, r', rfl, rfl, hms, hfold⟩ := ih hrest
        rw [ht]
      · exact ⟨m :: ms, w ++ t ++ ts, r', rfl, by simp, .first hw hmt hms, by simp [hinsert, hfold]⟩
      · exact ⟨m :: ms, w ++ 44 :: w' ++ t ++ ts, r', rfl, by simp, .next hw hw' hmt hms, by simp [hinsert, hfold]⟩

theorem MembersText.endsNumber (h : MembersText Text false ms t) : EndsNumber (t ++ 125 :: r) := by
  cases h with
  | nil hw => exact endsNumber_close hw (by decide)
  | next hw hw' hm hms =>
      rw [List.append_assoc, List.append_assoc, List.append_assoc]
      exact endsNumber_close hw (by decide)

theorem MembersText.length_le (htext : ∀ m t, Text m t → t ≠ []) (h : MembersText Text first ms t) :
    ms.length ≤ t.length := by
  induction h with
  | nil => exact Nat.zero_le _
  | first hw hm hms ih =>
      have hpos := List.length_pos_iff.mpr (htext _ _ hm)
      simp only [List.length_append, List.length_cons]
      omega
  | next hw hw' hm hms ih =>
      simp only [List.length_append, List.length_cons]
      omega

/-- Every member satisfies what its text tells of it. -/
theorem MembersText.forall_mem {P : M → Prop} (htext : ∀ m t, Text m t → P m) (h : MembersText Text first ms t) :
    ∀ m ∈ ms, P m := by
  induction h with
  | nil => simp
  | first hw hm hms ih => exact List.forall_mem_cons.mpr ⟨htext _ _ hm, ih⟩
  | next hw hw' hm hms ih => exact List.forall_mem_cons.mpr ⟨htext _ _ hm, ih⟩

theorem visitMap_complete (hvisit : Visits visit Text insert) (h : MembersText Text first ms t)
    (hfold : ms.foldlM insert s = some s') (hn : ms.length ≤ n) :
    visitMap visit (n + 1) first s (t ++ 125 :: r) = some (s', 125 :: r) := by
  induction h generalizing n s with
  | nil hw =>
      cases hfold
      simp [visitMap, hasNextKey_close hw]
  | @first w t ts m ms hw hm hms ih =>
      obtain ⟨n, rfl⟩ := Nat.exists_eq_add_one_of_ne_zero (Nat.ne_zero_of_lt hn)
      simp only [List.foldlM_cons, Option.bind_eq_bind, Option.bind_eq_some_iff] at hfold
      obtain ⟨s₁, hinsert, hrest⟩ := hfold
      obtain ⟨t', rfl, hmember⟩ := hvisit.complete hm hinsert (hms.endsNumber (r := r))
      have hshape : w ++ 34 :: t' ++ ts ++ 125 :: r = w ++ 34 :: (t' ++ (ts ++ 125 :: r)) := by simp
      rw [hshape, visitMap]
      simp only [hasNextKey_first hw, hmember, Option.bind_eq_bind, Option.bind_some, if_true]
      exact ih hrest (Nat.le_of_succ_le_succ hn)
  | @next w w' t ts m ms hw hw' hm hms ih =>
      obtain ⟨n, rfl⟩ := Nat.exists_eq_add_one_of_ne_zero (Nat.ne_zero_of_lt hn)
      simp only [List.foldlM_cons, Option.bind_eq_bind, Option.bind_eq_some_iff] at hfold
      obtain ⟨s₁, hinsert, hrest⟩ := hfold
      obtain ⟨t', rfl, hmember⟩ := hvisit.complete hm hinsert (hms.endsNumber (r := r))
      have hshape : w ++ 44 :: w' ++ 34 :: t' ++ ts ++ 125 :: r =
          w ++ 44 :: (w' ++ 34 :: (t' ++ (ts ++ 125 :: r))) := by
        simp
      rw [hshape, visitMap]
      simp only [hasNextKey_next hw hw', hmember, Option.bind_eq_bind, Option.bind_some, if_true]
      exact ih hrest (Nat.le_of_succ_le_succ hn)

/-! ## Two fields -/

section Fields

variable {key₁ key₂ : String} {read₁ : Reader UInt8 A} {read₂ : Reader UInt8 B} {Value₁ : A → List UInt8 → Prop}
  {Value₂ : B → List UInt8 → Prop} {seen seen' : Option A × Option B} {fs : List (A ⊕ B)} {a : A} {b : B}

/-- What was seen with one more field, unless it was seen before. -/
def insertField (seen : Option A × Option B) : A ⊕ B → Option (Option A × Option B)
  | .inl a => if seen.1.isSome then none else some (some a, seen.2)
  | .inr b => if seen.2.isSome then none else some (seen.1, some b)

/-- The fields that were seen. -/
def fieldsOf (seen : Option A × Option B) : List (A ⊕ B) := (seen.1.map Sum.inl).toList ++ (seen.2.map Sum.inr).toList

theorem fieldsOf_insertField {f : A ⊕ B} (h : insertField seen f = some seen') :
    (fieldsOf seen').Perm (f :: fieldsOf seen) := by
  obtain ⟨a?, b?⟩ := seen
  cases f with
  | inl a =>
      obtain ⟨hseen, ⟨⟩⟩ := Option.ite_none_left_eq_some.mp h
      cases Option.not_isSome_iff_eq_none.mp hseen
      simp [fieldsOf]
  | inr b =>
      obtain ⟨hseen, ⟨⟩⟩ := Option.ite_none_left_eq_some.mp h
      cases Option.not_isSome_iff_eq_none.mp hseen
      simp [fieldsOf]

theorem foldlM_insertField : fs.foldlM insertField (none, none) = some (some a, some b) ↔ fs.Perm [.inl a, .inr b] := by
  constructor
  · intro h
    have hperm := perm_of_foldlM fieldsOf_insertField h
    simpa [fieldsOf] using hperm.symm
  · intro h
    rcases List.perm_pair.mp h with rfl | rfl <;> simp [insertField]

theorem visitField_sound (h₁ : Reads read₁ Value₁) (h₂ : Reads read₂ Value₂)
    (h : visitField key₁ key₂ read₁ read₂ seen i = some (seen', r)) :
    ∃ f t, 34 :: i = t ++ r ∧ FieldText key₁ key₂ Value₁ Value₂ f t ∧ insertField seen f = some seen' := by
  simp only [visitField, Option.bind_eq_bind, Option.bind_eq_some_iff, Prod.exists] at h
  obtain ⟨bytes, r₁, hparse, key, hkey, h⟩ := h
  obtain ⟨cs, rfl, hunits⟩ := parseStr_eq_some.mp hparse
  rw [← fromUtf8_eq_some.mp hkey] at hunits
  have hspells : Spells (34 :: cs ++ [34]) key := ⟨cs, rfl, hunits⟩
  split_ifs at h with hkey₁ hseen hkey₂ hseen
  · simp only [Option.bind_eq_some_iff, Prod.exists] at h
    obtain ⟨r₂, hcolon, a, r₃, hvalue, he⟩ := h
    cases he
    obtain ⟨w₁, hw₁, rfl⟩ := expectByte_sound hcolon
    obtain ⟨w₂, v, hw₂, rfl, hv⟩ := h₁.sound hvalue
    refine ⟨.inl a, _, ?_, ⟨_, w₁, w₂, v, rfl, hkey₁ ▸ hspells, hw₁, hw₂, hv⟩, if_neg hseen⟩
    simp
  · simp only [Option.bind_eq_some_iff, Prod.exists] at h
    obtain ⟨r₂, hcolon, b, r₃, hvalue, he⟩ := h
    cases he
    obtain ⟨w₁, hw₁, rfl⟩ := expectByte_sound hcolon
    obtain ⟨w₂, v, hw₂, rfl, hv⟩ := h₂.sound hvalue
    refine ⟨.inr b, _, ?_, ⟨_, w₁, w₂, v, rfl, hkey₂ ▸ hspells, hw₁, hw₂, hv⟩, if_neg hseen⟩
    simp

/-- The key of a member is read, and what follows its colon. -/
theorem exists_member {key : String} {Value : List UInt8 → Prop} (h : MemberText key Value t) :
    ∃ t' w v, t = 34 :: t' ∧ Spaces w ∧ Value v ∧ ∀ r, ∃ r₁, parseStr (t' ++ r) = some (asBytes key, r₁) ∧
      expectByte 58 r₁ = some (w ++ (v ++ r)) := by
  obtain ⟨k, w₁, w₂, v, rfl, ⟨cs, rfl, hunits⟩, hw₁, hw₂, hv⟩ := h
  refine ⟨cs ++ 34 :: (w₁ ++ 58 :: (w₂ ++ v)), w₂, v, by simp, hw₂, hv, fun r => ?_⟩
  refine ⟨w₁ ++ 58 :: (w₂ ++ (v ++ r)), ?_, expectByte_complete hw₁ (by decide)⟩
  exact parseStr_eq_some.mpr ⟨cs, by simp, hunits⟩

theorem visitField_complete (hkeys : key₁ ≠ key₂) (h₁ : Reads read₁ Value₁) (h₂ : Reads read₂ Value₂) {f : A ⊕ B}
    (ht : FieldText key₁ key₂ Value₁ Value₂ f t) (hinsert : insertField seen f = some seen') (hr : EndsNumber r) :
    ∃ t', t = 34 :: t' ∧ visitField key₁ key₂ read₁ read₂ seen (t' ++ r) = some (seen', r) := by
  cases f with
  | inl a =>
      obtain ⟨t', w, v, rfl, hw, hv, hread⟩ := exists_member ht
      obtain ⟨r₁, hkey, hcolon⟩ := hread r
      obtain ⟨hseen, ⟨⟩⟩ := Option.ite_none_left_eq_some.mp hinsert
      have hutf8 : fromUtf8 (asBytes key₁) = some key₁ := fromUtf8_eq_some.mpr rfl
      exact ⟨t', rfl, by simp [visitField, hkey, hutf8, hseen, hcolon, h₁.complete hw hv hr]⟩
  | inr b =>
      obtain ⟨t', w, v, rfl, hw, hv, hread⟩ := exists_member ht
      obtain ⟨r₁, hkey, hcolon⟩ := hread r
      obtain ⟨hseen, ⟨⟩⟩ := Option.ite_none_left_eq_some.mp hinsert
      have hutf8 : fromUtf8 (asBytes key₂) = some key₂ := fromUtf8_eq_some.mpr rfl
      exact ⟨t', rfl, by simp [visitField, hkey, hutf8, hkeys.symm, hseen, hcolon, h₂.complete hw hv hr]⟩

theorem fieldText_ne_nil (f : A ⊕ B) (t : List UInt8) (h : FieldText key₁ key₂ Value₁ Value₂ f t) : t ≠ [] := by
  cases f with
  | inl a =>
      obtain ⟨t', _, _, rfl, _⟩ := exists_member h
      simp
  | inr b =>
      obtain ⟨t', _, _, rfl, _⟩ := exists_member h
      simp

/-- A visitor of two fields that has seen both, with the closing brace after them, has read their object. -/
theorem visitFields_eq_some (hkeys : key₁ ≠ key₂) (h₁ : Reads read₁ Value₁) (h₂ : Reads read₂ Value₂) :
    (∃ r', visitMap (visitField key₁ key₂ read₁ read₂) (i.length + 1) true (none, none) i =
      some ((some a, some b), r') ∧ expectByte 125 r' = some r) ↔ ∃ t, i = t ++ 125 :: r ∧
      FieldsText key₁ key₂ Value₁ Value₂ a b t := by
  have hvisit : Visits (visitField key₁ key₂ read₁ read₂) (FieldText key₁ key₂ Value₁ Value₂) insertField :=
    ⟨visitField_sound h₁ h₂, visitField_complete hkeys h₁ h₂⟩
  constructor
  · rintro ⟨r₁, hmap, hclose⟩
    obtain ⟨fs, t, r', rfl, rfl, hfs, hfold⟩ := visitMap_sound hvisit hmap
    have hr' : r' = r := by simpa [expectByte, skipSpaces, isJsonWhitespace] using hclose
    exact ⟨t, by rw [hr'], fs, hfs, foldlM_insertField.mp hfold⟩
  · rintro ⟨t, rfl, fs, hfs, hperm⟩
    have hlen : fs.length ≤ (t ++ 125 :: r).length := (hfs.length_le fieldText_ne_nil).trans (by simp)
    exact ⟨_, visitMap_complete hvisit hfs (foldlM_insertField.mpr hperm) hlen, rfl⟩

/-- Two visitors that differ in their first key can only take the second field alike. -/
theorem visitField_other {key : String} (hne : key₁ ≠ key) (hkeys : key₁ ≠ key₂) (hkeys' : key ≠ key₂)
    {other other' : Option A × Option B} {r' : List UInt8}
    (h : visitField key₁ key₂ read₁ read₂ seen i = some (seen', r))
    (h' : visitField key key₂ read₁ read₂ other i = some (other', r')) : seen'.1 = seen.1 ∧ r = r' := by
  simp only [visitField, Option.bind_eq_bind, Option.bind_eq_some_iff, Prod.exists] at h h'
  obtain ⟨bytes, r₁, hparse, name, hname, h⟩ := h
  obtain ⟨bytes', r₁', hparse', name', hname', h'⟩ := h'
  rw [hparse] at hparse'
  cases hparse'
  rw [hname] at hname'
  cases hname'
  split_ifs at h with hfirst hseen hsecond hseen
  · rw [if_neg (hfirst ▸ hne), if_neg (hfirst ▸ hkeys)] at h'
    cases h'
  · rw [if_neg (hsecond ▸ hkeys'.symm), if_pos hsecond] at h'
    split_ifs at h' with hseen'
    simp only [Option.bind_eq_some_iff, Prod.exists] at h h'
    obtain ⟨r₂, hcolon, b, r₃, hvalue, he⟩ := h
    obtain ⟨r₂', hcolon', b', r₃', hvalue', he'⟩ := h'
    cases he
    cases he'
    rw [hcolon] at hcolon'
    cases hcolon'
    rw [hvalue] at hvalue'
    cases hvalue'
    exact ⟨rfl, rfl⟩

/-- If both read one text to its end, the first has not seen its own key there. -/
theorem visitFields_other {key : String} (hne : key₁ ≠ key) (hkeys : key₁ ≠ key₂) (hkeys' : key ≠ key₂)
    {other other' : Option A × Option B} {r' : List UInt8}
    (h : visitMap (visitField key₁ key₂ read₁ read₂) n first seen i = some (seen', r))
    (h' : visitMap (visitField key key₂ read₁ read₂) n first other i = some (other', r')) : seen'.1 = seen.1 := by
  induction n generalizing first seen other i with
  | zero => cases h
  | succ n ih =>
      simp only [visitMap, Option.bind_eq_bind, Option.bind_eq_some_iff, Prod.exists] at h h'
      obtain ⟨more, i₁, hkey, h⟩ := h
      obtain ⟨more', i₁', hkey', h'⟩ := h'
      rw [hkey] at hkey'
      cases hkey'
      cases more with
      | false =>
          cases h
          rfl
      | true =>
          simp only [if_true, Option.bind_eq_some_iff, Prod.exists] at h h'
          obtain ⟨_, seen₁, r₁, hvisit, h⟩ := h
          obtain ⟨_, other₁, r₁', hvisit', h'⟩ := h'
          obtain ⟨hfirst, rfl⟩ := visitField_other hne hkeys hkeys' hvisit hvisit'
          exact (ih h h').trans hfirst

/-- The first key of an object that has two fields is determined by the text. -/
theorem FieldsText.key_eq {key : String} {t' r' : List UInt8} {a' : A} {b' : B} (hkeys : key₁ ≠ key₂)
    (hkeys' : key ≠ key₂) (h₁ : Reads read₁ Value₁) (h₂ : Reads read₂ Value₂)
    (h : FieldsText key₁ key₂ Value₁ Value₂ a b t) (h' : FieldsText key key₂ Value₁ Value₂ a' b' t')
    (ht : t ++ 125 :: r = t' ++ 125 :: r') : key₁ = key := by
  by_contra hne
  obtain ⟨_, hmap, _⟩ := (visitFields_eq_some (r := r) hkeys h₁ h₂).mpr ⟨t, rfl, h⟩
  obtain ⟨_, hmap', _⟩ := (visitFields_eq_some (r := r') hkeys' h₁ h₂).mpr ⟨t', ht, h'⟩
  exact absurd (visitFields_other hne hkeys hkeys' hmap hmap') (by simp)

/-- The values of the two fields of an object are texts of their kinds. -/
theorem FieldsText.values (h : FieldsText key₁ key₂ Value₁ Value₂ a b t) : (∃ v, Value₁ a v) ∧ ∃ v, Value₂ b v := by
  obtain ⟨fs, hfs, hperm⟩ := h
  have hall := hfs.forall_mem (P := Sum.elim (fun a => ∃ v, Value₁ a v) fun b => ∃ v, Value₂ b v) ?_
  · exact ⟨hall (.inl a) (hperm.mem_iff.mpr (by simp)), hall (.inr b) (hperm.mem_iff.mpr (by simp))⟩
  · intro f t hf
    cases f with
    | inl a =>
        obtain ⟨_, _, v, _, _, hv, _⟩ := exists_member hf
        exact ⟨v, hv⟩
    | inr b =>
        obtain ⟨_, _, v, _, _, hv, _⟩ := exists_member hf
        exact ⟨v, hv⟩

end Fields

end PermissionSync.Wire
