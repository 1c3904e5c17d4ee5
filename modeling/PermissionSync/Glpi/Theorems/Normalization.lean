import PermissionSync.Base.Utf8
import PermissionSync.Glpi.Theorems.Payload

/-!
# Normalization

The canonical assignments are sorted by the bytes of their selectors. They depend only on which pairs the payload has
and on which of them it has a recursive entry, and they are their own normal form.
-/

namespace PermissionSync.Glpi

open PermissionSync.Base PermissionSync.Wire

variable {permissions permissions' : List RawPermission} {desired desired' : List CanonicalAssignment}
  {text text' : Text}

/-! ## Order -/

theorem normalize_lt (permissions : List RawPermission) :
    (normalize permissions).Pairwise fun a b => a.pair < b.pair := by
  rw [normalize, List.pairwise_map]
  have hkeys := (groupPermissions permissions).ordered_keys
  rw [← Std.TreeMap.map_fst_toList_eq_keys, List.pairwise_map] at hkeys
  exact hkeys.imp fun h => compare_lt_iff_lt.mp h

/-- The assignments compare as the bytes of their selectors do. -/
def BytesLt (a b : CanonicalAssignment) : Prop :=
  asBytes a.entity < asBytes b.entity ∨ a.entity = b.entity ∧ asBytes a.profile < asBytes b.profile

theorem bytesLt_iff {a b : CanonicalAssignment} : BytesLt a b ↔ a.pair < b.pair := by
  rw [BytesLt, asBytes_lt_asBytes, asBytes_lt_asBytes, CanonicalAssignment.pair, CanonicalAssignment.pair,
    Prod.Lex.toLex_lt_toLex]

/-! ## Entries -/

/-- The entries name the pair. -/
def Names (permissions : List RawPermission) (entity profile : String) : Prop :=
  ∃ p ∈ permissions, p.entity = entity ∧ p.profile = profile

/-- The entries name the pair with a recursive value. -/
def NamesRecursive (permissions : List RawPermission) (entity profile : String) : Prop :=
  ∃ p ∈ permissions, p.entity = entity ∧ p.profile = profile ∧ p.recursive = true

theorem mem_normalize_iff {a : CanonicalAssignment} : a ∈ normalize permissions ↔
    Names permissions a.entity a.profile ∧
      (a.recursive = true ↔ NamesRecursive permissions a.entity a.profile) := by
  have hpair (p : RawPermission) : p.pair = a.pair ↔ p.entity = a.entity ∧ p.profile = a.profile := by
    simp [RawPermission.pair, CanonicalAssignment.pair]
  rw [mem_normalize]
  refine and_congr ?_ ?_
  · simp only [Names, hpair]
  · rw [Bool.eq_iff_iff]
    simp [NamesRecursive, hpair, and_assoc]

theorem exists_mem_normalize {entity profile : String} (h : Names permissions entity profile) :
    ∃ a ∈ normalize permissions, a.entity = entity ∧ a.profile = profile := by
  by_cases hrecursive : NamesRecursive permissions entity profile
  · exact ⟨⟨entity, profile, true⟩, mem_normalize_iff.mpr ⟨h, iff_of_true rfl hrecursive⟩, rfl, rfl⟩
  · exact ⟨⟨entity, profile, false⟩, mem_normalize_iff.mpr ⟨h, iff_of_false nofun hrecursive⟩, rfl, rfl⟩

/-- The same pairs, with the same disjunctions of their recursive values. -/
def SameAssignments (permissions permissions' : List RawPermission) : Prop :=
  ∀ entity profile, (Names permissions entity profile ↔ Names permissions' entity profile) ∧
    (NamesRecursive permissions entity profile ↔ NamesRecursive permissions' entity profile)

theorem normalize_congr (h : SameAssignments permissions permissions') :
    normalize permissions = normalize permissions' := by
  refine eq_of_sorted_of_mem_iff CanonicalAssignment.pair (normalize_lt _) (normalize_lt _) fun a => ?_
  rw [mem_normalize_iff, mem_normalize_iff, (h a.entity a.profile).1, (h a.entity a.profile).2]

/-- Reordering and duplication keep the assignments. -/
theorem sameAssignments_of_mem_iff (h : ∀ p, p ∈ permissions ↔ p ∈ permissions') :
    SameAssignments permissions permissions' := by
  intro entity profile
  simp only [Names, NamesRecursive, h, and_self]

/-! ## Encoding the result -/

def CanonicalAssignment.raw (a : CanonicalAssignment) : RawPermission := ⟨a.entity, a.profile, a.recursive⟩

def CanonicalAssignment.encode (a : CanonicalAssignment) : Json :=
  .obj [("entity", .str a.entity), ("profile", .str a.profile), ("recursive", .bool a.recursive)]

/-- The assignments as a payload. -/
def encodePayload (desired : List CanonicalAssignment) : Json :=
  .obj [("permissions", .arr (desired.map CanonicalAssignment.encode))]

theorem mapM_decode_encode (desired : List CanonicalAssignment) :
    (desired.map CanonicalAssignment.encode).mapM RawPermission.decode =
    some (desired.map CanonicalAssignment.raw) := by
  induction desired with
  | nil => rfl
  | cons a desired ih =>
      have ha : RawPermission.decode a.encode = some a.raw := rfl
      simp [ha, ih]

theorem decodePayload_encodePayload (desired : List CanonicalAssignment) :
    decodePayload (encodePayload desired) = some (desired.map CanonicalAssignment.raw) :=
  mapM_decode_encode desired

/-- Assignments that are sorted are their own normal form. -/
theorem normalize_raw (h : desired.Pairwise fun a b => a.pair < b.pair) :
    normalize (desired.map CanonicalAssignment.raw) = desired := by
  have hnodup : (desired.map CanonicalAssignment.pair).Nodup := List.pairwise_map.mpr (h.imp ne_of_lt)
  have hunique {a b : CanonicalAssignment} (ha : a ∈ desired) (hb : b ∈ desired) (hentity : a.entity = b.entity)
      (hprofile : a.profile = b.profile) : a = b :=
    List.inj_on_of_nodup_map hnodup ha hb (by rw [CanonicalAssignment.pair, hentity, hprofile]; rfl)
  have hrecursive {a : CanonicalAssignment} (ha : a ∈ desired) :
      NamesRecursive (desired.map CanonicalAssignment.raw) a.entity a.profile ↔ a.recursive = true := by
    constructor
    · rintro ⟨p, hp, hentity, hprofile, htrue⟩
      obtain ⟨b, hb, rfl⟩ := List.mem_map.mp hp
      cases hunique hb ha hentity hprofile
      exact htrue
    · intro htrue
      exact ⟨a.raw, List.mem_map_of_mem ha, rfl, rfl, htrue⟩
  refine eq_of_sorted_of_mem_iff CanonicalAssignment.pair (normalize_lt _) h fun a => ?_
  rw [mem_normalize_iff]
  constructor
  · rintro ⟨⟨p, hp, hentity, hprofile⟩, ha⟩
    obtain ⟨b, hb, rfl⟩ := List.mem_map.mp hp
    obtain ⟨entity, profile, recursive⟩ := a
    cases hentity
    cases hprofile
    rw [hrecursive hb, ← Bool.eq_iff_iff] at ha
    cases ha
    exact hb
  · intro ha
    exact ⟨⟨a.raw, List.mem_map_of_mem ha, rfl, rfl⟩, (hrecursive ha).symm⟩

/-- The normalized assignments are sorted, name what the payload names, and depend on nothing else of it. Written back,
they are normalized to themselves. -/
theorem parseAndNormalize_canonical (hread : text.json.bind decodePayload = some permissions)
    (hok : parseAndNormalize text = .ok desired) :
    desired.Pairwise BytesLt ∧
      (∀ entity profile, (∃ a ∈ desired, a.entity = entity ∧ a.profile = profile) ↔ Names permissions entity profile) ∧
      (∀ a ∈ desired, a.recursive = true ↔ NamesRecursive permissions a.entity a.profile) ∧
      (∀ text' permissions' desired', text'.json.bind decodePayload = some permissions' →
        parseAndNormalize text' = .ok desired' → SameAssignments permissions permissions' → desired' = desired) ∧
      (∀ permissions', (∀ p, p ∈ permissions' ↔ p ∈ permissions) → SameAssignments permissions permissions') ∧
      ∀ text', text'.json = some (encodePayload desired) → parseAndNormalize text' = .ok desired := by
  obtain ⟨permissions₁, hread₁, hne, rfl⟩ := parseAndNormalize_eq_ok.mp hok
  cases hread.symm.trans hread₁
  refine ⟨(normalize_lt permissions).imp bytesLt_iff.mpr, fun entity profile => ?_,
    fun a ha => (mem_normalize_iff.mp ha).2, fun text' permissions' desired' hread' hok' hsame => ?_,
    fun permissions' hmem => ?_, fun text' hjson => ?_⟩
  · constructor
    · rintro ⟨a, ha, rfl, rfl⟩
      exact (mem_normalize_iff.mp ha).1
    · intro hnames
      exact exists_mem_normalize hnames
  · obtain ⟨permissions₂, hread₂, _, rfl⟩ := parseAndNormalize_eq_ok.mp hok'
    cases hread'.symm.trans hread₂
    exact (normalize_congr hsame).symm
  · exact sameAssignments_of_mem_iff fun p => (hmem p).symm
  · refine parseAndNormalize_eq_ok.mpr ⟨_, ?_, ?_, (normalize_raw (normalize_lt permissions)).symm⟩
    · rw [hjson]
      exact decodePayload_encodePayload _
    · intro p hp
      obtain ⟨a, ha, rfl⟩ := List.mem_map.mp hp
      obtain ⟨⟨q, hq, hentity, hprofile⟩, _⟩ := mem_normalize_iff.mp ha
      exact ⟨fun hempty => (hne q hq).1 (hentity.trans hempty), fun hempty => (hne q hq).2 (hprofile.trans hempty)⟩

/-! Two entries of one pair, in either order. -/

def repeatedJson : Json := encodePayload [⟨"/", "Observer", false⟩, ⟨"/", "Admin", false⟩, ⟨"/", "Observer", true⟩]

theorem repeated_canonical : parseAndNormalize ⟨[], some repeatedJson⟩ =
      .ok [⟨"/", "Admin", false⟩, ⟨"/", "Observer", true⟩] ∧
    parseAndNormalize ⟨[], some (encodePayload [⟨"/", "Admin", false⟩, ⟨"/", "Observer", true⟩])⟩ =
      .ok [⟨"/", "Admin", false⟩, ⟨"/", "Observer", true⟩] := by
  have hok : parseAndNormalize ⟨[], some repeatedJson⟩ = .ok [⟨"/", "Admin", false⟩, ⟨"/", "Observer", true⟩] := by
    decide +kernel
  obtain ⟨_, hread, _⟩ := parseAndNormalize_eq_ok.mp hok
  exact ⟨hok, (parseAndNormalize_canonical hread hok).2.2.2.2.2 _ rfl⟩

end PermissionSync.Glpi
