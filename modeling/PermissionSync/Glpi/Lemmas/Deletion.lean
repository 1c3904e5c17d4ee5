import PermissionSync.Glpi.Mutation
import PermissionSync.Glpi.Server.Documents
import PermissionSync.Wire.Lemmas.Access

/-!
# The visitors of a deletion response

Each visitor takes exactly the texts that it is meant for.
-/

namespace PermissionSync.Glpi

open PermissionSync.Base PermissionSync.Wire

variable {id : Nat} {i r : List UInt8}

theorem numeral_ne_message (n : Nat) : numeral n ≠ "message" := by
  intro h
  have hm : 'm' ∈ decimal n := by
    rw [← String.toList_ofList (l := decimal n), ← numeral, h]
    decide
  exact notMem_decimal (by decide) hm

theorem deserializeDeletionEntry_eq_some : deserializeDeletionEntry (numeral id) i = some r ↔
    ∃ w t message, i = w ++ 123 :: (t ++ 125 :: r) ∧ Spaces w ∧
      FieldsText (numeral id) "message" BoolText (fun s t => Spells t s) true message t := by
  have hvisit := fun {i message} => visitFields_eq_some (i := i) (r := r) (a := true) (b := message)
    (numeral_ne_message id) reads_deserializeBool reads_deserializeString
  constructor
  · intro h
    obtain ⟨w, hw, hi⟩ := exists_spaces i
    unfold deserializeDeletionEntry at h
    split at h
    · cases h
    · rename_i b i' hskip
      rw [hskip] at hi
      split at h
      · rename_i hbrace
        simp only [Option.bind_eq_bind, Option.bind_eq_some_iff, Prod.exists] at h
        obtain ⟨success, message?, r', hmap, hclose⟩ := h
        split at hclose
        · rename_i hseen
          obtain ⟨rfl, hmessage⟩ := hseen
          obtain ⟨message, rfl⟩ := Option.isSome_iff_exists.mp hmessage
          obtain ⟨t, rfl, hfields⟩ := hvisit.mp ⟨r', hmap, hclose⟩
          exact ⟨w, t, message, by rw [hi, hbrace], hw, hfields⟩
        · cases hclose
      · cases h
  · rintro ⟨w, t, message, rfl, hw, hfields⟩
    obtain ⟨r', hmap, hclose⟩ := hvisit.mpr ⟨t, rfl, hfields⟩
    have hskip : skipSpaces (w ++ 123 :: (t ++ 125 :: r)) = 123 :: (t ++ 125 :: r) :=
      skipSpaces_append hw (startsNot_cons.mpr (by decide))
    rw [deserializeDeletionEntry, hskip]
    simp only [visitDeletionMember, Option.bind_eq_bind, hmap, Option.bind_some]
    simpa using hclose

theorem deserializeDeletionResponse_eq_some : deserializeDeletionResponse (numeral id) i = some r ↔
    ∃ before w t w' message, i = before ++ 91 :: (w ++ 123 :: (t ++ 125 :: (w' ++ 93 :: r))) ∧
      Spaces before ∧ Spaces w ∧ Spaces w' ∧
      FieldsText (numeral id) "message" BoolText (fun s t => Spells t s) true message t := by
  constructor
  · intro h
    obtain ⟨before, hbefore, hi⟩ := exists_spaces i
    unfold deserializeDeletionResponse at h
    split at h
    · cases h
    · rename_i b i' hskip
      rw [hskip] at hi
      split at h
      · rename_i hbracket
        simp only [Option.bind_eq_bind, Option.bind_eq_some_iff, Prod.exists] at h
        obtain ⟨more, r₁, hfirst, h⟩ := h
        cases more with
        | false => cases h
        | true =>
            simp only [if_true, Option.bind_eq_some_iff, Prod.exists] at h
            obtain ⟨r₂, hentry, more, r₃, hsecond, h⟩ := h
            cases more with
            | true => cases h
            | false =>
                obtain ⟨w₁, t, message, rfl, hw₁, hfields⟩ := deserializeDeletionEntry_eq_some.mp hentry
                obtain ⟨w, hw, rfl⟩ := exists_first_element hfirst
                obtain ⟨w', r', hw', rfl, rfl⟩ := exists_close hsecond
                have hr' : r' = r := by simpa [expectByte, skipSpaces, isJsonWhitespace] using h
                refine ⟨before, w ++ w₁, t, w', message, ?_, hbefore, List.forall_mem_append.mpr ⟨hw, hw₁⟩, hw',
                  hfields⟩
                rw [hi, hbracket, hr']
                simp
      · cases h
  · rintro ⟨before, w, t, w', message, rfl, hbefore, hw, hw', hfields⟩
    have hskip := skipSpaces_append hbefore (startsNot_cons.mpr (by decide) : StartsNot isJsonWhitespace
      (91 :: (w ++ 123 :: (t ++ 125 :: (w' ++ 93 :: r)))))
    have hfirst := hasNextElement_first hw (r := 123 :: (t ++ 125 :: (w' ++ 93 :: r)))
      ⟨123, _, rfl, by decide, by decide⟩
    have hentry : deserializeDeletionEntry (numeral id) (123 :: (t ++ 125 :: (w' ++ 93 :: r))) = some (w' ++ 93 :: r) :=
      deserializeDeletionEntry_eq_some.mpr ⟨[], t, message, rfl, by simp [Spaces], hfields⟩
    have hclose : expectByte 93 (93 :: r) = some r := rfl
    simp [deserializeDeletionResponse, hskip, hfirst, hentry, hasNextElement_close hw', hclose]

theorem parseDeletedAssignment_eq_ok {body : List UInt8} :
    parseDeletedAssignment body id = .ok () ↔ ConfirmsDeletion id body := by
  have hnumeral : String.ofList (decimal id) = numeral id := rfl
  simp only [parseDeletedAssignment, hnumeral, okOr_eq_ok, Option.bind_eq_bind, Option.bind_eq_some_iff,
    endOfInput_eq_some, deserializeDeletionResponse_eq_some]
  constructor
  · rintro ⟨after, ⟨before, w, t, w', message, rfl, hbefore, hw, hw', hfields⟩, hafter⟩
    exact ⟨before, w, t, w', after, message, rfl, hbefore, hafter, hw, hw', hfields⟩
  · rintro ⟨before, w, t, w', after, message, rfl, hbefore, hafter, hw, hw', hfields⟩
    exact ⟨after, ⟨before, w, t, w', message, rfl, hbefore, hw, hw', hfields⟩, hafter⟩

end PermissionSync.Glpi
