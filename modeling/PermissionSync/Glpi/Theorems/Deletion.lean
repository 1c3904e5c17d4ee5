import PermissionSync.Glpi.Lemmas.Deletion

/-!
# Which responses confirm a deletion
-/

namespace PermissionSync.Glpi

open PermissionSync.Base PermissionSync.Wire

variable {id id' : Nat} {body : List UInt8}

/-- What stands between the opening braces and the end is the same for both readings of a response. -/
theorem ConfirmsDeletion.id_eq (h : ConfirmsDeletion id body) (h' : ConfirmsDeletion id' body) : id = id' := by
  obtain ⟨before, w, t, w₁, after, message, rfl, hbefore, _, hw, _, hfields⟩ := h
  obtain ⟨before', w', t', w₁', after', message', hbody, hbefore', _, hw', _, hfields'⟩ := h'
  have hbracket := congrArg skipSpaces hbody
  rw [skipSpaces_append hbefore (startsNot_cons.mpr (by decide)),
    skipSpaces_append hbefore' (startsNot_cons.mpr (by decide)), List.cons.injEq] at hbracket
  have hbrace := congrArg skipSpaces hbracket.2
  rw [skipSpaces_append hw (startsNot_cons.mpr (by decide)),
    skipSpaces_append hw' (startsNot_cons.mpr (by decide)), List.cons.injEq] at hbrace
  have hkey := hfields.key_eq (numeral_ne_message id) (numeral_ne_message id') reads_deserializeBool
    reads_deserializeString hfields' hbrace.2
  exact decimal_injective (String.ofList_injective hkey)

theorem parseDeletedAssignment_eq_error (h : ¬ ConfirmsDeletion id body) :
    parseDeletedAssignment body id = .error .mutationFailed := by
  cases hr : parseDeletedAssignment body id with
  | ok => exact absurd (parseDeletedAssignment_eq_ok.mp hr) h
  | error e =>
      obtain ⟨_, rfl⟩ := okOr_eq_error.mp hr
      rfl

/-- A response confirms the deletion of an assignment exactly when it is the documented array, with nothing but
whitespace around it, and then of no other assignment. Every other response is a failed mutation. -/
theorem parseDeletedAssignment_confirms (body : List UInt8) :
    (∀ id, parseDeletedAssignment body id = .ok () ↔ ConfirmsDeletion id body) ∧
    (∀ id, ¬ ConfirmsDeletion id body → parseDeletedAssignment body id = .error .mutationFailed) ∧
    ∀ id id', parseDeletedAssignment body id = .ok () → parseDeletedAssignment body id' = .ok () → id = id' := by
  refine ⟨fun id => parseDeletedAssignment_eq_ok, fun id => parseDeletedAssignment_eq_error, ?_⟩
  intro id id' h h'
  exact (parseDeletedAssignment_eq_ok.mp h).id_eq (parseDeletedAssignment_eq_ok.mp h')

/-- The bytes of the array whose only entry maps `7` to `true` and `message` to the empty string, before a line feed. -/
def deletedSeven : List UInt8 :=
  [91, 123, 34, 55, 34, 58, 116, 114, 117, 101, 44, 34, 109, 101, 115, 115, 97, 103, 101, 34, 58, 34, 34, 125, 93, 10]

theorem deletedSeven_confirms : ConfirmsDeletion 7 deletedSeven ∧
    (∀ id, parseDeletedAssignment deletedSeven id = .ok () → id = 7) ∧
    parseDeletedAssignment (deletedSeven ++ deletedSeven) 7 = .error .mutationFailed := by
  have hread : parseDeletedAssignment deletedSeven 7 = .ok () := by decide +kernel
  obtain ⟨hconfirms, _, hunique⟩ := parseDeletedAssignment_confirms deletedSeven
  exact ⟨(hconfirms 7).mp hread, fun id h => hunique id 7 h hread, by decide +kernel⟩

end PermissionSync.Glpi
