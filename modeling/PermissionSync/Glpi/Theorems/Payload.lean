import PermissionSync.Glpi.Lemmas.Normalize
import PermissionSync.Wire.Document
import PermissionSync.Wire.Struct

/-!
# Which payloads are accepted

The documented payload is one object. The derived structs also read the array of the field values, in place of the
payload and in place of a permission.
-/

namespace PermissionSync.Glpi

open PermissionSync.Base PermissionSync.Wire

/-! ## What the derived structs read -/

theorem RawPermission.decode_eq_some_iff {j : Json} {p : RawPermission} :
    RawPermission.decode j = some p ↔
      j.HasExactly [("entity", .str p.entity), ("profile", .str p.profile), ("recursive", .bool p.recursive)] ∨
        j = .arr [.str p.entity, .str p.profile, .bool p.recursive] := by
  have hfields : structFields ["entity", "profile", "recursive"] true j =
      some ([Json.str p.entity, .str p.profile, .bool p.recursive].map some) ↔ _ :=
    structFields_eq_some_iff (by decide) rfl
  refine Iff.trans ?_ hfields
  constructor
  · intro h
    unfold RawPermission.decode at h
    split at h
    · rename_i hf
      cases h
      exact hf
    · cases h
  · intro h
    simp [RawPermission.decode, h]

theorem decodePayload_eq_some_iff {j : Json} {permissions : List RawPermission} :
    decodePayload j = some permissions ↔ ∃ entries, entries.mapM RawPermission.decode = some permissions ∧
      (j.HasExactly [("permissions", .arr entries)] ∨ j = .arr [.arr entries]) := by
  have hfields : ∀ entries, structFields ["permissions"] true j = some ([Json.arr entries].map some) ↔
      j.HasExactly [("permissions", .arr entries)] ∨ j = .arr [.arr entries] :=
    fun entries => structFields_eq_some_iff (by decide) rfl
  constructor
  · intro h
    unfold decodePayload at h
    split at h
    · rename_i entries hf
      exact ⟨entries, h, (hfields entries).mp hf⟩
    · cases h
  · intro h
    obtain ⟨entries, hentries, hj⟩ := h
    simp only [decodePayload, (hfields entries).mpr hj, List.map_cons, List.map_nil]
    exact hentries

/-- A text is accepted when its document is the payload struct and no selector is empty. -/
theorem parseAndNormalize_accepts {text : Text} :
    (∃ desired, parseAndNormalize text = .ok desired) ↔ ∃ j entries, text.json = some j ∧
      (j.HasExactly [("permissions", .arr entries)] ∨ j = .arr [.arr entries]) ∧
      ∀ e ∈ entries, ∃ p, RawPermission.decode e = some p ∧ p.entity ≠ "" ∧ p.profile ≠ "" := by
  simp only [parseAndNormalize_eq_ok, Option.bind_eq_some_iff, decodePayload_eq_some_iff]
  constructor
  · intro h
    obtain ⟨_, permissions, ⟨j, hj, entries, hentries, hshape⟩, hne, _⟩ := h
    exact ⟨j, entries, hj, hshape, exists_mapM_eq_some.mp ⟨permissions, hentries, hne⟩⟩
  · intro h
    obtain ⟨j, entries, hj, hshape, hall⟩ := h
    obtain ⟨permissions, hentries, hne⟩ := exists_mapM_eq_some.mpr hall
    exact ⟨_, permissions, ⟨j, hj, entries, hentries, hshape⟩, hne, rfl⟩

theorem parseAndNormalize_eq_error {text : Text} (h : ¬ ∃ desired, parseAndNormalize text = .ok desired) :
    parseAndNormalize text = .error .invalidPayload := by
  cases hr : parseAndNormalize text with
  | ok desired => exact absurd ⟨desired, hr⟩ h
  | error e =>
      simp only [parseAndNormalize] at hr
      cases hd : text.json.bind decodePayload with
      | none =>
          rw [hd] at hr
          cases hr
          rfl
      | some permissions =>
          simp only [hd, okOr_some, ok_bind, ensure] at hr
          split at hr
          · cases hr
          · cases hr
            rfl

/-! ## The documented payload -/

/-- One permission of the payload: an object with exactly two non-empty selectors and a boolean. -/
def IsPermission (j : Json) : Prop :=
  ∃ (entity profile : String) (recursive : Bool), entity ≠ "" ∧ profile ≠ "" ∧
    j.HasExactly [("entity", .str entity), ("profile", .str profile), ("recursive", .bool recursive)]

/-- The payload of version 1: an object with exactly the member `permissions`, an array of permissions. -/
def IsPayload (j : Json) : Prop :=
  ∃ entries, j.HasExactly [("permissions", .arr entries)] ∧ ∀ e ∈ entries, IsPermission e

/-! ## Sequences in place of objects -/

/-- The array of the three values of a permission. -/
def IsSequencePermission (j : Json) : Prop :=
  ∃ (entity profile : String) (recursive : Bool), entity ≠ "" ∧ profile ≠ "" ∧
    j = .arr [.str entity, .str profile, .bool recursive]

/-- The documented payload but for an array in place of the payload, of a permission, or of several of them. -/
def IsSequencePayload (j : Json) : Prop :=
  ∃ entries, (∀ e ∈ entries, IsPermission e ∨ IsSequencePermission e) ∧
    (j = .arr [.arr entries] ∨
      j.HasExactly [("permissions", .arr entries)] ∧ ∃ e ∈ entries, IsSequencePermission e)

theorem exists_decode_iff {j : Json} :
    (∃ p, RawPermission.decode j = some p ∧ p.entity ≠ "" ∧ p.profile ≠ "") ↔
      IsPermission j ∨ IsSequencePermission j := by
  simp only [RawPermission.decode_eq_some_iff]
  constructor
  · rintro ⟨p, hobject | hsequence, hentity, hprofile⟩
    · exact Or.inl ⟨p.entity, p.profile, p.recursive, hentity, hprofile, hobject⟩
    · exact Or.inr ⟨p.entity, p.profile, p.recursive, hentity, hprofile, hsequence⟩
  · rintro (⟨entity, profile, recursive, hentity, hprofile, hj⟩ | ⟨entity, profile, recursive, hentity, hprofile, hj⟩)
    · exact ⟨⟨entity, profile, recursive⟩, Or.inl hj, hentity, hprofile⟩
    · exact ⟨⟨entity, profile, recursive⟩, Or.inr hj, hentity, hprofile⟩

theorem parseAndNormalize_accepts_iff {text : Text} : (∃ desired, parseAndNormalize text = .ok desired) ↔
    ∃ j, text.json = some j ∧ (IsPayload j ∨ IsSequencePayload j) := by
  simp only [parseAndNormalize_accepts, exists_decode_iff]
  constructor
  · rintro ⟨j, entries, hjson, hobject | hsequence, hall⟩
    · refine ⟨j, hjson, ?_⟩
      by_cases h : ∃ e ∈ entries, IsSequencePermission e
      · exact Or.inr ⟨entries, hall, Or.inr ⟨hobject, h⟩⟩
      · exact Or.inl ⟨entries, hobject, fun e he => (hall e he).resolve_right fun hs => h ⟨e, he, hs⟩⟩
    · exact ⟨j, hjson, Or.inr ⟨entries, hall, Or.inl hsequence⟩⟩
  · rintro ⟨j, hjson, ⟨entries, hobject, hall⟩ | ⟨entries, hall, hsequence | ⟨hobject, _⟩⟩⟩
    · exact ⟨j, entries, hjson, Or.inl hobject, fun e he => Or.inl (hall e he)⟩
    · exact ⟨j, entries, hjson, Or.inr hsequence, hall⟩
    · exact ⟨j, entries, hjson, Or.inl hobject, hall⟩

/-- Such a document is not the documented payload. -/
theorem not_isPayload_of_sequence {j : Json} (h : IsSequencePayload j) : ¬ IsPayload j := by
  rintro ⟨entries, ⟨ms, rfl, hperm⟩, hall⟩
  obtain ⟨entries', _, hsequence | ⟨⟨ms', hms, hperm'⟩, e, he, _, _, _, _, _, rfl⟩⟩ := h
  · cases hsequence
  · cases hms
    cases List.singleton_perm_singleton.mp (hperm.symm.trans hperm')
    obtain ⟨_, _, _, _, _, _, hobject, _⟩ := hall _ he
    cases hobject

/-- The text is accepted exactly when it is the documented payload, and is an invalid payload otherwise. -/
structure ReadAsDocumented (spells : List UInt8 → Json → Prop) (text : Text) : Prop where
  accepts : (∃ desired, parseAndNormalize text = .ok desired) ↔ text.IsOne spells IsPayload
  rejects : ¬ text.IsOne spells IsPayload → parseAndNormalize text = .error .invalidPayload

/-- Exactly the texts with an array in place of an object that they would be accepted for are not read as documented. -/
theorem parseAndNormalize_accepts_payload {spells : List UInt8 → Json → Prop} {text : Text}
    (hread : text.ReadsOne spells) : ReadAsDocumented spells text ↔ ¬ text.IsOne spells IsSequencePayload := by
  constructor
  · intro h hsequence
    obtain ⟨j, hjson, hj⟩ := hread.isOne_iff.mp hsequence
    have haccepted := parseAndNormalize_accepts_iff.mpr ⟨j, hjson, Or.inr hj⟩
    obtain ⟨j', hjson', hj'⟩ := hread.isOne_iff.mp (h.accepts.mp haccepted)
    cases hjson.symm.trans hjson'
    exact not_isPayload_of_sequence hj hj'
  · intro h
    have haccepts : (∃ desired, parseAndNormalize text = .ok desired) ↔ text.IsOne spells IsPayload := by
      rw [parseAndNormalize_accepts_iff, hread.isOne_iff]
      constructor
      · rintro ⟨j, hjson, hj | hj⟩
        · exact ⟨j, hjson, hj⟩
        · exact absurd (hread.isOne_iff.mpr ⟨j, hjson, hj⟩) h
      · rintro ⟨j, hjson, hj⟩
        exact ⟨j, hjson, Or.inl hj⟩
    exact ⟨haccepts, fun hno => parseAndNormalize_eq_error fun hok => hno (haccepts.mp hok)⟩

/-- A payload with one permission. -/
def onePermission : Json :=
  .obj [("permissions", .arr [.obj [("profile", .str "p"), ("entity", .str "e"), ("recursive", .bool true)]])]

def onePermissionBytes : List UInt8 :=
  write (.obj [("permissions", .arr [.obj [("profile", .str "p"), ("entity", .str "e"), ("recursive", .bool true)]])])

/-- That payload after a blank. -/
def onePermissionText : Text := ⟨32 :: onePermissionBytes, some onePermission⟩

theorem onePermissionText_accepted :
    onePermissionText.IsOne (fun value j => value = onePermissionBytes ∧ j = onePermission) IsPayload := by
  have hread : onePermissionText.ReadsOne fun value j => value = onePermissionBytes ∧ j = onePermission := by
    intro j
    constructor
    · intro h
      exact ⟨[32], onePermissionBytes, [], by simp [onePermissionText], by simp [isJsonWhitespace], rfl,
        (Option.some.inj h).symm⟩
    · rintro ⟨_, _, _, _, _, _, rfl⟩
      rfl
  have hplain : ¬ onePermissionText.IsOne (fun value j => value = onePermissionBytes ∧ j = onePermission)
      IsSequencePayload := by
    rintro ⟨_, _, _, _, _, _, ⟨_, rfl⟩, entries, _, hsequence | ⟨⟨ms, hms, hperm⟩, e, he, _, _, _, _, _, rfl⟩⟩
    · cases hsequence
    · cases hms
      cases List.singleton_perm_singleton.mp hperm
      simp at he
  exact ((parseAndNormalize_accepts_payload hread).mpr hplain).accepts.mp ⟨[⟨"e", "p", true⟩], rfl⟩

/-- The array of the one field value is read as the payload, and the array of three field values as a permission. -/
theorem parseAndNormalize_accepts_sequences :
    (parseAndNormalize ⟨[91, 91, 93, 93], some (.arr [.arr []])⟩ = .ok [] ∧ ¬ IsPayload (.arr [.arr []])) ∧
    ∀ bytes, let j : Json := .obj [("permissions", .arr [.arr [.str "e", .str "p", .bool true]])]
      (∃ desired, parseAndNormalize ⟨bytes, some j⟩ = .ok desired) ∧ ¬ IsPayload j := by
  refine ⟨⟨rfl, ?_⟩, fun bytes => ⟨?_, ?_⟩⟩
  · intro h
    obtain ⟨_, ⟨_, hobj, _⟩, _⟩ := h
    cases hobj
  · refine parseAndNormalize_accepts.mpr ⟨_, _, rfl, Or.inl ⟨_, rfl, .refl _⟩, ?_⟩
    intro e he
    cases List.mem_singleton.mp he
    exact ⟨⟨"e", "p", true⟩, RawPermission.decode_eq_some_iff.mpr (Or.inr rfl), by decide, by decide⟩
  · intro h
    obtain ⟨entries, ⟨ms, hms, hperm⟩, hall⟩ := h
    cases hms
    cases List.singleton_perm.mp hperm
    obtain ⟨_, _, _, _, _, _, hobj, _⟩ := hall _ List.mem_cons_self
    cases hobj

end PermissionSync.Glpi
