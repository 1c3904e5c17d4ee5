import PermissionSync.Wire.Lemmas.Lexical

/-!
# A skipped value is the text of a value
-/

namespace PermissionSync.Wire

open PermissionSync.Base

variable {i r t w : List UInt8} {b close : UInt8} {kind : Kind} {n : Nat} {inner : List UInt8 → Option (List UInt8)}

/-! ## Punctuation -/

theorem expectByte_sound (h : expectByte b i = some r) : ∃ w, Spaces w ∧ i = w ++ b :: r := by
  obtain ⟨w, hw, hi⟩ := exists_spaces i
  refine ⟨w, hw, ?_⟩
  unfold expectByte at h
  split at h
  · cases h
  · rename_i hskip
    split at h
    · rename_i hb
      cases h
      rw [hi, hskip, hb]
    · cases h

theorem expectByte_complete (hw : Spaces w) (hb : isJsonWhitespace b = false) :
    expectByte b (w ++ b :: r) = some r := by
  simp [expectByte, skipSpaces_append hw (startsNot_cons.mpr hb)]

theorem closedOr_sound (h : closedOr close inner i = some r) :
    ∃ w, Spaces w ∧ (i = w ++ close :: r ∨ ∃ i', i = w ++ i' ∧ inner i' = some r) := by
  obtain ⟨w, hw, hi⟩ := exists_spaces i
  refine ⟨w, hw, ?_⟩
  unfold closedOr at h
  split at h
  · cases h
  · rename_i hskip
    split at h
    · rename_i hb
      cases h
      rw [hskip, hb] at hi
      exact Or.inl hi
    · rw [hskip] at hi
      exact Or.inr ⟨_, hi, h⟩

theorem closedOrMore_sound (h : closedOrMore close inner i = some r) :
    ∃ w, Spaces w ∧ (i = w ++ close :: r ∨ ∃ w' i', Spaces w' ∧ i = w ++ 44 :: (w' ++ i') ∧ inner i' = some r) := by
  obtain ⟨w, hw, hi⟩ := exists_spaces i
  refine ⟨w, hw, ?_⟩
  unfold closedOrMore at h
  split at h
  · cases h
  · rename_i b i' hskip
    rw [hskip] at hi
    split at h
    · rename_i hb
      obtain ⟨w', hw', hi'⟩ := exists_spaces i'
      rw [hb, hi'] at hi
      exact Or.inr ⟨w', _, hw', hi, h⟩
    · split at h
      · rename_i hb
        cases h
        rw [hb] at hi
        exact Or.inl hi
      · cases h

/-! ## Soundness -/

theorem parseIdent_sound {ident : List UInt8} (h : parseIdent ident i = some r) : i = ident ++ r := by
  unfold parseIdent at h
  split at h
  · rename_i hi
    cases h
    conv_lhs => rw [← List.take_append_drop ident.length i, hi]
  · cases h

/-- What is skipped is a text of the kind that is asked for. -/
theorem ignore_sound (h : ignore n kind i = some r) : ∃ t, i = t ++ r ∧ Grammar kind t := by
  induction n generalizing kind i r with
  | zero => cases h
  | succ n ih =>
      cases i with
      | nil => cases kind <;> cases h
      | cons b i =>
          cases kind with
          | value =>
              simp only [ignore] at h
              split_ifs at h with hnull htrue hfalse hminus hdigit hquote hbracket hbrace
              · exact ⟨_, by rw [hnull, parseIdent_sound h]; rfl, .nullLiteral⟩
              · exact ⟨_, by rw [htrue, parseIdent_sound h]; rfl, .trueLiteral⟩
              · exact ⟨_, by rw [hfalse, parseIdent_sound h]; rfl, .falseLiteral⟩
              · obtain ⟨t, rfl, ht⟩ := ignoreInteger_sound h
                exact ⟨45 :: t, by rw [hminus]; rfl, .negative ht⟩
              · obtain ⟨t, hi, ht⟩ := ignoreInteger_sound h
                exact ⟨t, hi, .unsigned ht⟩
              · obtain ⟨t, d, rfl, ht⟩ := ignoreStr_eq_some.mp h
                exact ⟨34 :: t ++ [34], by simp [hquote], .string ⟨t, d, rfl, ht⟩⟩
              · obtain ⟨w, hw, rfl | ⟨i', rfl, hinner⟩⟩ := closedOr_sound h
                · exact ⟨91 :: w ++ [93], by simp [hbracket], .emptyArray hw⟩
                · obtain ⟨t, rfl, ht⟩ := ih hinner
                  exact ⟨91 :: w ++ t, by simp [hbracket], .array hw ht⟩
              · obtain ⟨w, hw, rfl | ⟨i', rfl, hinner⟩⟩ := closedOr_sound h
                · exact ⟨123 :: w ++ [125], by simp [hbrace], .emptyObject hw⟩
                · obtain ⟨t, rfl, ht⟩ := ih hinner
                  exact ⟨123 :: w ++ t, by simp [hbrace], .object hw ht⟩
          | elements =>
              obtain ⟨r₁, hvalue, hrest⟩ := Option.bind_eq_some_iff.mp h
              obtain ⟨t, ht, hgrammar⟩ := ih hvalue
              rw [ht]
              obtain ⟨w, hw, rfl | ⟨w', i', hw', rfl, hmore⟩⟩ := closedOrMore_sound hrest
              · exact ⟨t ++ w ++ [93], by simp, .lastElement hgrammar hw⟩
              · obtain ⟨ts, rfl, hts⟩ := ih hmore
                exact ⟨t ++ w ++ 44 :: w' ++ ts, by simp, .element hgrammar hw hw' hts⟩
          | members =>
              simp only [ignore] at h
              split at h
              · rename_i hquote
                simp only [Option.bind_eq_bind, Option.bind_eq_some_iff] at h
                obtain ⟨r₁, hname, r₂, hcolon, r₃, hvalue, hrest⟩ := h
                obtain ⟨k, d, rfl, hk⟩ := ignoreStr_eq_some.mp hname
                obtain ⟨w₁, hw₁, rfl⟩ := expectByte_sound hcolon
                obtain ⟨w₂, hw₂, hr₂⟩ := exists_spaces r₂
                obtain ⟨t, ht, hgrammar⟩ := ih hvalue
                rw [hr₂, ht, hquote]
                have hkey : StringText (34 :: k ++ [34]) := ⟨k, d, rfl, hk⟩
                obtain ⟨w, hw, rfl | ⟨w', i', hw', rfl, hmore⟩⟩ := closedOrMore_sound hrest
                · exact ⟨_, by simp, .lastMember hkey hw₁ hw₂ hgrammar hw⟩
                · obtain ⟨ts, rfl, hts⟩ := ih hmore
                  exact ⟨_, by simp, .member hkey hw₁ hw₂ hgrammar hw hw' hts⟩
              · cases h

/-! ## Completeness -/

/-- A byte that may not be the first of a value. -/
def closesOrBlank (b : UInt8) : Bool := isJsonWhitespace b || b == 93 || b == 125

theorem StringText.head (h : StringText t) : ∃ t', t = 34 :: t' := by
  obtain ⟨cs, ds, rfl, _⟩ := h
  exact ⟨_, rfl⟩

theorem UnsignedText.head (h : UnsignedText t) : ∃ d t', t = d :: t' ∧ isDigit d = true := by
  obtain ⟨int, frac, exp, rfl, hint, _⟩ := h
  cases hint with
  | zero => exact ⟨48, _, rfl, by decide⟩
  | digits hd => exact ⟨_, _, rfl, hd⟩

theorem ne_of_isDigit {c : UInt8} (h : isDigit b = true) (hc : isDigit c = false) : b ≠ c := by
  rintro rfl
  rw [h] at hc
  cases hc

theorem closesOrBlank_of_isDigit (h : isDigit b = true) : closesOrBlank b = false := by
  have hne := fun c (hc : isDigit c = false) => ne_of_isDigit h hc
  simp [closesOrBlank, isJsonWhitespace, hne 32 (by decide), hne 9 (by decide), hne 10 (by decide), hne 13 (by decide),
    hne 93 (by decide), hne 125 (by decide)]

/-- The first byte of a text, which is neither whitespace nor a closing bracket. -/
theorem Grammar.head (h : Grammar kind t) : ∃ b t', t = b :: t' ∧ closesOrBlank b = false := by
  induction h with
  | unsigned ht =>
      obtain ⟨d, t', rfl, hd⟩ := ht.head
      exact ⟨d, t', rfl, closesOrBlank_of_isDigit hd⟩
  | string ht =>
      obtain ⟨t', rfl⟩ := ht.head
      exact ⟨34, t', rfl, by decide⟩
  | lastElement ht hw ih =>
      obtain ⟨b, t', rfl, hb⟩ := ih
      exact ⟨b, _, rfl, hb⟩
  | element ht hw hw' hts ih ihs =>
      obtain ⟨b, t', rfl, hb⟩ := ih
      exact ⟨b, _, rfl, hb⟩
  | lastMember hk =>
      obtain ⟨t', rfl⟩ := hk.head
      exact ⟨34, _, rfl, by decide⟩
  | member hk =>
      obtain ⟨t', rfl⟩ := hk.head
      exact ⟨34, _, rfl, by decide⟩
  | _ => exact ⟨_, _, rfl, by decide⟩

theorem Grammar.startsNot (h : Grammar kind t) : StartsNot isJsonWhitespace (t ++ r) := by
  obtain ⟨b, t', rfl, hb⟩ := h.head
  simp only [closesOrBlank, Bool.or_eq_false_iff] at hb
  exact startsNot_cons.mpr hb.1.1

theorem closedOr_close (hw : Spaces w) (hclose : isJsonWhitespace close = false) :
    closedOr close inner (w ++ close :: r) = some r := by
  simp [closedOr, skipSpaces_append hw (startsNot_cons.mpr hclose)]

theorem closedOr_inner (hw : Spaces w) (ht : Grammar kind t) (hclose : closesOrBlank close = true) :
    closedOr close inner (w ++ (t ++ r)) = inner (t ++ r) := by
  have hskip := skipSpaces_append hw (ht.startsNot (r := r))
  obtain ⟨b, t', rfl, hb⟩ := ht.head
  have hne : b ≠ close := by
    rintro rfl
    rw [hb] at hclose
    cases hclose
  rw [closedOr, hskip]
  simp only [List.cons_append, if_neg hne]

theorem closedOrMore_close (hw : Spaces w) (hclose : isJsonWhitespace close = false) (hcomma : close ≠ 44) :
    closedOrMore close inner (w ++ close :: r) = some r := by
  simp [closedOrMore, skipSpaces_append hw (startsNot_cons.mpr hclose), hcomma]

theorem closedOrMore_more {w' : List UInt8} (hw : Spaces w) (hw' : Spaces w') (ht : Grammar kind t) :
    closedOrMore close inner (w ++ 44 :: (w' ++ (t ++ r))) = inner (t ++ r) := by
  have hcomma : skipSpaces (w ++ 44 :: (w' ++ (t ++ r))) = 44 :: (w' ++ (t ++ r)) :=
    skipSpaces_append hw (startsNot_cons.mpr (by decide))
  simp [closedOrMore, hcomma, skipSpaces_append hw' ht.startsNot]

/-- Whitespace ends a number, and so does every byte that follows a value. -/
theorem endsNumber_spaces (hw : Spaces w) (hr : EndsNumber r) : EndsNumber (w ++ r) := by
  cases w with
  | nil => exact hr
  | cons b w =>
      have hb := hw b List.mem_cons_self
      simp only [isJsonWhitespace, Bool.or_eq_true, decide_eq_true_eq] at hb
      rcases hb with ((rfl | rfl) | rfl) | rfl <;> simp [continuesNumber, isDigit]

theorem parseIdent_append (ident : List UInt8) : parseIdent ident (ident ++ r) = some r := by
  simp [parseIdent]

theorem ignore_digit (h : isDigit b = true) : ignore (n + 1) .value (b :: r) = ignoreInteger (b :: r) := by
  have hne := fun c (hc : isDigit c = false) => ne_of_isDigit h hc
  simp [ignore, hne 110 (by decide), hne 116 (by decide), hne 102 (by decide), hne 45 (by decide), h]

theorem ignore_elements (ht : Grammar .value t) :
    ignore (n + 1) .elements (t ++ r) = (ignore n .value (t ++ r)).bind (closedOrMore 93 (ignore n .elements)) := by
  obtain ⟨b, t', rfl, _⟩ := ht.head
  rfl

theorem ignore_members {k w₁ w₂ : List UInt8} (hk : StringText k) (hw₁ : Spaces w₁) (hw₂ : Spaces w₂)
    (ht : Grammar .value t) : ignore (n + 1) .members (k ++ w₁ ++ 58 :: w₂ ++ t ++ r) =
      (ignore n .value (t ++ r)).bind (closedOrMore 125 (ignore n .members)) := by
  obtain ⟨cs, ds, rfl, hunits⟩ := hk
  have hname : ignoreStr (cs ++ 34 :: (w₁ ++ 58 :: (w₂ ++ (t ++ r)))) = some (w₁ ++ 58 :: (w₂ ++ (t ++ r))) :=
    ignoreStr_eq_some.mpr ⟨cs, ds, rfl, hunits⟩
  have hcolon : expectByte 58 (w₁ ++ 58 :: (w₂ ++ (t ++ r))) = some (w₂ ++ (t ++ r)) :=
    expectByte_complete hw₁ (by decide)
  simp [ignore, hname, hcolon, skipSpaces_append hw₂ ht.startsNot]

/-- Fuel for a text is fuel for a shorter one that it encloses. -/
theorem exists_fuel (t t' : List UInt8) (hlen : t'.length < t.length) (hn : 2 * t.length + 1 ≤ n) :
    ∃ m, n = m + 1 ∧ 2 * t'.length + 1 ≤ m := ⟨n - 1, by omega, by omega⟩

/-- What follows a value in brackets ends a number. -/
theorem endsNumber_close (hw : Spaces w) (hclose : continuesNumber close = false) : EndsNumber (w ++ close :: r) :=
  endsNumber_spaces hw (startsNot_cons.mpr hclose)

/-- A text of a kind is skipped, if there is enough fuel and what follows does not go on with a number. -/
theorem ignore_complete (h : Grammar kind t) (hn : 2 * t.length + 1 ≤ n) (hr : EndsNumber r) :
    ignore (n + 1) kind (t ++ r) = some r := by
  induction h generalizing n r with
  | nullLiteral => exact parseIdent_append [117, 108, 108]
  | trueLiteral => exact parseIdent_append [114, 117, 101]
  | falseLiteral => exact parseIdent_append [97, 108, 115, 101]
  | unsigned ht =>
      have hread := ignoreInteger_complete ht hr
      obtain ⟨d, t', rfl, hd⟩ := ht.head
      exact (ignore_digit hd).trans hread
  | negative ht => exact ignoreInteger_complete ht hr
  | string ht =>
      obtain ⟨cs, ds, rfl, hunits⟩ := ht
      exact ignoreStr_eq_some.mpr ⟨cs, ds, by simp, hunits⟩
  | @emptyArray w hw =>
      have hshape : 91 :: w ++ [93] ++ r = 91 :: (w ++ 93 :: r) := by simp
      rw [hshape]
      exact closedOr_close hw (by decide)
  | @array w t hw ht ih =>
      obtain ⟨n, rfl, hn'⟩ := exists_fuel _ t (by simp) hn
      have hshape : 91 :: w ++ t ++ r = 91 :: (w ++ (t ++ r)) := by simp
      rw [hshape]
      exact (closedOr_inner hw ht (by decide)).trans (ih hn' hr)
  | @emptyObject w hw =>
      have hshape : 123 :: w ++ [125] ++ r = 123 :: (w ++ 125 :: r) := by simp
      rw [hshape]
      exact closedOr_close hw (by decide)
  | @object w t hw ht ih =>
      obtain ⟨n, rfl, hn'⟩ := exists_fuel _ t (by simp) hn
      have hshape : 123 :: w ++ t ++ r = 123 :: (w ++ (t ++ r)) := by simp
      rw [hshape]
      exact (closedOr_inner hw ht (by decide)).trans (ih hn' hr)
  | @lastElement t w ht hw ih =>
      obtain ⟨n, rfl, hn'⟩ := exists_fuel _ t (by simp) hn
      have hshape : t ++ w ++ [93] ++ r = t ++ (w ++ 93 :: r) := by simp
      rw [hshape, ignore_elements ht, ih hn' (endsNumber_close hw (by decide))]
      exact closedOrMore_close hw (by decide) (by decide)
  | @element t w w' ts ht hw hw' hts ih ihs =>
      obtain ⟨n, rfl, hn'⟩ := exists_fuel _ t (by simp) hn
      obtain ⟨_, he, hns⟩ := exists_fuel _ ts (by simp; omega) hn
      cases he
      have hshape : t ++ w ++ 44 :: w' ++ ts ++ r = t ++ (w ++ 44 :: (w' ++ (ts ++ r))) := by simp
      rw [hshape, ignore_elements ht, ih hn' (endsNumber_close hw (by decide))]
      exact (closedOrMore_more hw hw' hts).trans (ihs hns hr)
  | @lastMember k w₁ w₂ t w hk hw₁ hw₂ ht hw ih =>
      obtain ⟨n, rfl, hn'⟩ := exists_fuel _ t (by simp; omega) hn
      have hshape : k ++ w₁ ++ 58 :: w₂ ++ t ++ w ++ [125] ++ r = k ++ w₁ ++ 58 :: w₂ ++ t ++ (w ++ 125 :: r) := by simp
      rw [hshape, ignore_members hk hw₁ hw₂ ht, ih hn' (endsNumber_close hw (by decide))]
      exact closedOrMore_close hw (by decide) (by decide)
  | @member k w₁ w₂ t w w' ts hk hw₁ hw₂ ht hw hw' hts ih ihs =>
      obtain ⟨n, rfl, hn'⟩ := exists_fuel _ t (by simp; omega) hn
      obtain ⟨_, he, hns⟩ := exists_fuel _ ts (by simp; omega) hn
      cases he
      have hshape : k ++ w₁ ++ 58 :: w₂ ++ t ++ w ++ 44 :: w' ++ ts ++ r =
          k ++ w₁ ++ 58 :: w₂ ++ t ++ (w ++ 44 :: (w' ++ (ts ++ r))) := by simp
      rw [hshape, ignore_members hk hw₁ hw₂ ht, ih hn' (endsNumber_close hw (by decide))]
      exact (closedOrMore_more hw hw' hts).trans (ihs hns hr)

theorem ignoreValue_sound (h : ignoreValue i = some r) : ∃ t, i = t ++ r ∧ ValueText t := ignore_sound h

theorem ignoreValue_complete (ht : ValueText t) (hr : EndsNumber r) : ignoreValue (t ++ r) = some r :=
  ignore_complete ht (by simp) hr

end PermissionSync.Wire
