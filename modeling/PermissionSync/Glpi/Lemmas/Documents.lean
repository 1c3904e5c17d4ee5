import PermissionSync.Glpi.Lemmas.Calls
import PermissionSync.Glpi.Lemmas.Deletion
import PermissionSync.Glpi.Server.Documents
import PermissionSync.Wire.Struct

/-!
# Reading the documented answers
-/

namespace PermissionSync.Glpi

open PermissionSync.Base PermissionSync.Wire

/-! ## Objects without repeated members -/

theorem insertMember_of_notMem {ms : List (String × Json)} {m : String × Json} (h : m.1 ∉ ms.map Prod.fst) :
    Json.insertMember ms m = ms ++ [m] := by
  have hany : ms.any (fun x => x.1 == m.1) = false := by
    rw [List.any_eq_false]
    intro x hx he
    exact h (List.mem_map.mpr ⟨x, hx, by simpa using he⟩)
  simp [Json.insertMember, hany]

theorem foldl_insertMember (done : List (String × Json)) {ms : List (String × Json)} (h : Distinct (done ++ ms)) :
    ms.foldl Json.insertMember done = done ++ ms := by
  induction ms generalizing done with
  | nil => simp
  | cons m ms ih =>
      have hm : m.1 ∉ done.map Prod.fst := by
        intro hmem
        simp only [Distinct, List.map_append, List.map_cons] at h
        exact (List.nodup_append.mp h).2.2 m.1 hmem m.1 (by simp) rfl
      rw [List.foldl_cons, insertMember_of_notMem hm, ih _ (by simpa using h)]
      simp

theorem asObject_obj {ms : List (String × Json)} (h : Distinct ms) : Json.asObject (.obj ms) = some ms := by
  simpa [Json.asObject] using foldl_insertMember [] (by simpa using h)

theorem asU64_int {n : Nat} (h : n < u64Bound) : (Number.int n).asU64 = some n := by
  have : n < 18446744073709551616 := h
  simpa [Number.asU64] using this

theorem asU64_nat {n : Nat} (h : n < u64Bound) : (Json.nat n).asU64 = some n := by
  rw [Json.nat, Json.asU64, asU64_int h]

theorem lt_u64Bound_of_lt_keyBound {n : Nat} (h : n < keyBound) : n < u64Bound :=
  h.trans (by decide)

@[simp] theorem toList_numeral (n : Nat) : (numeral n).toList = decimal n := by simp [numeral]

theorem parseU64_numeral {n : Nat} (h : n < u64Bound) : parseU64 (numeral n).toList = some n := by
  rw [toList_numeral, parseU64_decimal h]

theorem numeral_injective {m n : Nat} (h : numeral m = numeral n) : m = n := by
  apply decimal_injective
  rw [← toList_numeral, h, toList_numeral]

/-! ## Session -/

theorem readInitSession_of {token : String} {response : RawResponse} (h : Begins token response) :
    readInitSession response = .ok ⟨token⟩ := by
  obtain ⟨hstatus, htoken, _, hjson⟩ := h
  have hfields : structFields ["session_token"] true (.obj [("session_token", .str token)]) =
      some [some (.str token)] := rfl
  simp [readInitSession, hstatus, hjson, decodeInitSession, hfields, htoken, ensure_of]

theorem readTrue_of {failure : GlpiFailure} {response : RawResponse} (h : Affirms response) :
    readTrue failure response = .ok () := by
  simp [readTrue, h.1, h.2, ensure_of]

theorem readVisibility_of {response : RawResponse} (h : ShowsAllEntities response) :
    readVisibility response = .ok () := by
  obtain ⟨hstatus, ms, hjson, hms, hmem⟩ := h
  have hfields : structFields ["session"] true (.obj [("session", .obj ms)]) = some [some (.obj ms)] := rfl
  have hone : (Json.nat 1).asU64 = some 1 := asU64_nat (by decide)
  simp [readVisibility, hstatus, hjson, decodeFullSession, hfields, asObject_obj hms, member_of_mem hms hmem, hone,
    ensure_of]

/-! ## Items -/

theorem numericMember_of {ms : List (String × Json)} {name : String} {n : Nat} (hms : Distinct ms)
    (hm : (name, Json.nat n) ∈ ms) (hn : n < keyBound) : numericMember ms name = .ok n := by
  rw [numericMember, member_of_mem hms hm, Option.bind_some, asU64_nat (lt_u64Bound_of_lt_keyBound hn), okOr_some]

theorem positiveMember_of {ms : List (String × Json)} {name : String} {n : Nat} (hms : Distinct ms)
    (hm : (name, Json.nat n) ∈ ms) (hn : 0 < n ∧ n < keyBound) : positiveMember ms name = .ok n := by
  simp [positiveMember, numericMember_of hms hm hn.2, hn.1.ne']

theorem recursiveMember_of {ms : List (String × Json)} {b : Bool} (hms : Distinct ms)
    (hm : ("is_recursive", Json.nat b.toNat) ∈ ms) : recursiveMember ms = .ok b := by
  have hlt : b.toNat < keyBound := lt_of_le_of_lt (Bool.toNat_le _) (by norm_num [keyBound])
  rw [recursiveMember, numericMember_of hms hm hlt]
  cases b <;> rfl

theorem readItem_of {a : Assignment} {response : RawResponse} (h : ItemOf a response) (hid : 0 < a.id ∧ a.id < keyBound)
    (huser : 0 < a.usersId ∧ a.usersId < keyBound) (hprofile : 0 < a.profilesId ∧ a.profilesId < keyBound)
    (hentity : a.entitiesId < keyBound) :
    readItem a.id response = .ok ⟨a.usersId, a.profilesId, a.entitiesId, a.isRecursive⟩ := by
  obtain ⟨hstatus, ms, hjson, hms, h₁, h₂, h₃, h₄, h₅⟩ := h
  have hobject : response.body.json.bind Json.asObject = some ms := by simp [hjson, asObject_obj hms]
  rw [readItem, ensure_of hstatus, ok_bind, hobject, okOr_some, ok_bind, positiveMember_of hms h₁ hid, ok_bind,
    ensure_of rfl, ok_bind, positiveMember_of hms h₂ huser, ok_bind, positiveMember_of hms h₃ hprofile, ok_bind,
    numericMember_of hms h₄ hentity, ok_bind, recursiveMember_of hms h₅]
  rfl

theorem decodeCreated_of {id : Nat} {response : RawResponse} (h : Creates id response) (hid : id < keyBound) :
    response.body.json.bind decodeCreated = some id := by
  obtain ⟨_, ms, message, hjson, hms, hmem, hmessage, hnames⟩ := h
  have hfields : structFields ["id", "message", "upload_result"] true (.obj ms) = _ :=
    structFields_obj hms fun _ => hnames
  simp only [List.map_cons, List.map_nil, member_of_mem hms hmem, member_of_mem hms hmessage] at hfields
  simp [hjson, decodeCreated, hfields, asU64_nat (lt_u64Bound_of_lt_keyBound hid)]

theorem parseCreatedId_of {id : Nat} {response : RawResponse} (h : Creates id response)
    (hid : 0 < id ∧ id < keyBound) : parseCreatedId response.body = .ok id := by
  simp [parseCreatedId, decodeCreated_of h hid.2, hid.1.ne']

theorem readCreatedUser_of {id : Nat} {response : RawResponse} (h : Creates id response)
    (hid : 0 < id ∧ id < keyBound) : readCreatedUser response = .ok id := by
  simp [readCreatedUser, h.1, ensure_of, parseCreatedId_of h hid, Except.mapError]

theorem readCreatedAssignment_of {id : Nat} {response : RawResponse} (h : Creates id response)
    (hid : 0 < id ∧ id < keyBound) : readCreatedAssignment response = .ok id := by
  simp [readCreatedAssignment, h.1, parseCreatedId_of h hid]

theorem readDeletedAssignment_of {id : Nat} {response : RawResponse} (h : Deletes id response) :
    readDeletedAssignment id response = .ok () := by
  rw [readDeletedAssignment, ensure_of h.1, ok_bind]
  exact parseDeletedAssignment_eq_ok.mpr h.2

end PermissionSync.Glpi
