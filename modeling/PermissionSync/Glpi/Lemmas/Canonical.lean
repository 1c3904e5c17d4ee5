import PermissionSync.Base.Related
import PermissionSync.Glpi.Lemmas.Mutations
import PermissionSync.Glpi.Lemmas.Normalize
import PermissionSync.Glpi.Server.Canonical

/-!
# The canonical state of a store and the canonical rows of the plan
-/

namespace PermissionSync.Glpi

open PermissionSync.Base

variable {s : Store} {rows : List CurrentRow} {desired : List DesiredAssignment}

/-- Canonical rows in terms of their members. -/
theorem canonicalRows_iff (hids : (rows.map CurrentRow.id).Nodup) :
    CanonicalRows rows desired ↔
      (∀ d ∈ desired, ∃ r ∈ rows, r.Carries d) ∧ (∀ r ∈ rows, ∃ d ∈ desired, r.Carries d) ∧
        ∀ r ∈ rows, ∀ r' ∈ rows, r.pair = r'.pair → r = r' := by
  constructor
  · intro h
    obtain ⟨hone, hall⟩ := h
    have honly {d : DesiredAssignment} (hd : d ∈ desired) {r : CurrentRow} (hr : r ∈ rows) (hp : r.pair = d.pair) :
        r.isRecursive = d.recursive ∧ ∀ r' ∈ rows, r'.pair = d.pair → r = r' := by
      obtain ⟨r₀, hf, hrec⟩ := hone d hd
      have hin : ∀ x ∈ rows, x.pair = d.pair → x = r₀ := fun x hx hxp => by
        have hmem : x ∈ rows.filter fun r => r.pair = d.pair := List.mem_filter.mpr ⟨hx, by simpa using hxp⟩
        rw [hf] at hmem
        exact List.mem_singleton.mp hmem
      exact ⟨hin r hr hp ▸ hrec, fun r' hr' hp' => (hin r hr hp).trans (hin r' hr' hp').symm⟩
    refine ⟨fun d hd => ?_, fun r hr => ?_, fun r hr r' hr' hp => ?_⟩
    · obtain ⟨r, hf, hrec⟩ := hone d hd
      have hmem : r ∈ rows.filter fun r => r.pair = d.pair := by simp [hf]
      exact ⟨r, List.mem_of_mem_filter hmem, by simpa using (List.mem_filter.mp hmem).2, hrec⟩
    · obtain ⟨d, hd, hp⟩ := hall r hr
      exact ⟨d, hd, hp, (honly hd hr hp).1⟩
    · obtain ⟨d, hd, hpd⟩ := hall r hr
      exact (honly hd hr hpd).2 r' hr' (hp ▸ hpd)
  · intro h
    obtain ⟨hgranted, hwanted, hunique⟩ := h
    have hnd : (rows.map CurrentRow.pair).Nodup :=
      (List.nodup_map_iff_inj_on (List.Nodup.of_map _ hids)).mpr fun r hr r' hr' => hunique r hr r' hr'
    refine ⟨fun d hd => ?_, fun r hr => ?_⟩
    · obtain ⟨r, hr, hc⟩ := hgranted d hd
      exact ⟨r, hc.1 ▸ filter_key_eq_singleton hnd hr, hc.2⟩
    · obtain ⟨d, hd, hc⟩ := hwanted r hr
      exact ⟨d, hd, hc.1⟩

/-! ## The rows of a user -/

/-- The row of a user, as the store holds it. -/
def CurrentRow.assignment (row : CurrentRow) (userId : Nat) : Assignment :=
  ⟨row.id, userId, row.profilesId, row.entitiesId, row.isRecursive⟩

/-- The rows are those that the store holds for the user. -/
structure RowsOf (s : Store) (userId : Nat) (rows : List CurrentRow) : Prop where
  nodup : (rows.map CurrentRow.id).Nodup
  mem : ∀ row, row ∈ rows ↔ row.assignment userId ∈ s.assignments

def Assignment.row (a : Assignment) : CurrentRow := ⟨a.id, a.entitiesId, a.profilesId, a.isRecursive⟩

theorem Assignment.assignment_row (a : Assignment) : a.row.assignment a.usersId = a := rfl

theorem RowsOf.mem_row {userId : Nat} (h : RowsOf s userId rows) {a : Assignment} (hu : a.usersId = userId) :
    a.row ∈ rows ↔ a ∈ s.assignments := by
  rw [h.mem, ← hu, a.assignment_row]

/-! ## Resolved assignments -/

/-- The ids of the assignment are those of the names. -/
structure ResolvesTo (s : Store) (a : CanonicalAssignment) (d : DesiredAssignment) : Prop where
  entity : ⟨d.entitiesId, a.entity⟩ ∈ s.entities
  profile : ⟨d.profilesId, a.profile⟩ ∈ s.profiles
  recursive : d.recursive = a.recursive

/-- Distinct names have distinct ids. -/
theorem resolved_nodup {assignments : List CanonicalAssignment} (h : List.Forall₂ (ResolvesTo s) assignments desired)
    (hl : (assignments.map CanonicalAssignment.pair).Nodup) : (desired.map DesiredAssignment.pair).Nodup := by
  refine nodup_map_of_forall₂ h hl fun a d a' d' hd hd' hp => ?_
  have hids : d.entitiesId = d'.entitiesId ∧ d.profilesId = d'.profilesId := by
    simpa [DesiredAssignment.pair] using hp
  have he := List.inj_on_of_nodup_map s.entityKeys.1 hd.entity hd'.entity hids.1
  have hpr := List.inj_on_of_nodup_map s.profileKeys.1 hd.profile hd'.profile hids.2
  simp only [NamedItem.mk.injEq] at he hpr
  simp [CanonicalAssignment.pair, he.2, hpr.2]

theorem pair_eq_iff {p q : RawPermission} : q.pair = p.pair ↔ q.entity = p.entity ∧ q.profile = p.profile := by
  simp [RawPermission.pair]

theorem recursive_iff {permissions : List RawPermission} {a : CanonicalAssignment} (ha : a ∈ normalize permissions)
    {p : RawPermission} (hp : p.pair = a.pair) :
    a.recursive = true ↔
      ∃ q ∈ permissions, q.entity = p.entity ∧ q.profile = p.profile ∧ q.recursive = true := by
  simp [(mem_normalize.mp ha).2, ← hp, pair_eq_iff, and_assoc]

theorem Store.Names.pair_eq {p q : RawPermission} {x : Assignment} (hp : s.Names p x) (hq : s.Names q x) :
    q.pair = p.pair := by
  have he := List.inj_on_of_nodup_map s.entityKeys.1 hq.1 hp.1 rfl
  have hpr := List.inj_on_of_nodup_map s.profileKeys.1 hq.2 hp.2 rfl
  simp only [NamedItem.mk.injEq] at he hpr
  exact pair_eq_iff.mpr ⟨he.2, hpr.2⟩

theorem names_of_pair {a : CanonicalAssignment} {d : DesiredAssignment} (hd : ResolvesTo s a d) {p : RawPermission}
    (hpair : p.pair = a.pair) {x : Assignment} (h : x.row.pair = d.pair) : s.Names p x := by
  have hnames : p.entity = a.entity ∧ p.profile = a.profile := by
    simpa [RawPermission.pair, CanonicalAssignment.pair] using hpair
  have hids : x.entitiesId = d.entitiesId ∧ x.profilesId = d.profilesId := by
    simpa [Assignment.row, CurrentRow.pair, DesiredAssignment.pair] using h
  rw [Store.Names, hids.1, hids.2, hnames.1, hnames.2]
  exact ⟨hd.entity, hd.profile⟩

/-- With unambiguous names a row has the pair of a resolved assignment exactly when its permission names the row. -/
theorem row_pair_iff {permissions : List RawPermission} {username : String} (hs : s.Suits permissions username)
    {a : CanonicalAssignment} {d : DesiredAssignment} (hd : ResolvesTo s a d) {p : RawPermission}
    (hp : p ∈ permissions) (hpair : p.pair = a.pair) {x : Assignment} : x.row.pair = d.pair ↔ s.Names p x := by
  have hnames : p.entity = a.entity ∧ p.profile = a.profile := by
    simpa [RawPermission.pair, CanonicalAssignment.pair] using hpair
  refine ⟨names_of_pair hd hpair, fun h => ?_⟩
  have he := (hs.entities p hp).unique ⟨h.1, rfl⟩ ⟨hd.entity, hnames.1.symm⟩
  have hpr := (hs.profiles p hp).unique ⟨h.2, rfl⟩ ⟨hd.profile, hnames.2.symm⟩
  simp only [NamedItem.mk.injEq] at he hpr
  simp [Assignment.row, CurrentRow.pair, DesiredAssignment.pair, he.1, hpr.1]

section

variable {permissions : List RawPermission} {username : String} {userId : Nat}

/-- Every permission has its resolved assignment. -/
theorem exists_resolved (hresolved : List.Forall₂ (ResolvesTo s) (normalize permissions) desired) {p : RawPermission}
    (hp : p ∈ permissions) : ∃ a ∈ normalize permissions, p.pair = a.pair ∧ ∃ d ∈ desired, ResolvesTo s a d := by
  have ha : (⟨p.entity, p.profile, permissions.any fun q => q.pair = p.pair && q.recursive⟩ : CanonicalAssignment) ∈
      normalize permissions := mem_normalize.mpr ⟨⟨p, hp, rfl⟩, rfl⟩
  obtain ⟨d, hd, hr⟩ := exists_right_of_mem hresolved ha
  exact ⟨_, ha, rfl, d, hd, hr⟩

theorem canonical_of_rows (hrows : RowsOf s userId rows)
    (hresolved : List.Forall₂ (ResolvesTo s) (normalize permissions) desired) (h : CanonicalRows rows desired) :
    s.Canonical permissions userId := by
  obtain ⟨hgranted, hwanted, hone⟩ := (canonicalRows_iff hrows.nodup).mp h
  refine ⟨fun p hp => ?_, fun x hx hu => ?_, fun x hx y hy hxu hyu he hp => ?_⟩
  · obtain ⟨a, _, hpair, d, hd, hr⟩ := exists_resolved hresolved hp
    obtain ⟨row, hrow, hc⟩ := hgranted d hd
    exact ⟨row.assignment userId, (hrows.mem row).mp hrow, rfl, names_of_pair hr hpair hc.1⟩
  · obtain ⟨d, hd, hc⟩ := hwanted x.row ((hrows.mem_row hu).mpr hx)
    obtain ⟨a, ha, hr⟩ := exists_left_of_mem hresolved hd
    obtain ⟨⟨p, hp, hpair⟩, _⟩ := mem_normalize.mp ha
    refine ⟨p, hp, names_of_pair hr hpair hc.1, ?_⟩
    rw [← recursive_iff ha hpair, ← hr.recursive, ← hc.2]
    rfl
  · have hrow := hone x.row ((hrows.mem_row hxu).mpr hx) y.row ((hrows.mem_row hyu).mpr hy)
      (by simp [Assignment.row, CurrentRow.pair, he, hp])
    rw [← x.assignment_row, ← y.assignment_row, hrow, hxu, hyu]

theorem rows_of_canonical (hs : s.Suits permissions username) (hrows : RowsOf s userId rows)
    (hresolved : List.Forall₂ (ResolvesTo s) (normalize permissions) desired) (h : s.Canonical permissions userId) :
    CanonicalRows rows desired := by
  have hcarries {x : Assignment} (hx : x ∈ s.assignments) (hu : x.usersId = userId) {a : CanonicalAssignment}
      (ha : a ∈ normalize permissions) {d : DesiredAssignment} (hr : ResolvesTo s a d) {p : RawPermission}
      (hp : p ∈ permissions) (hpair : p.pair = a.pair) (hnames : s.Names p x) : x.row.Carries d := by
    obtain ⟨q, hq, hnames', hrec⟩ := h.wanted x hx hu
    refine ⟨(row_pair_iff hs hr hp hpair).mpr hnames, ?_⟩
    rw [hr.recursive, Bool.eq_iff_iff, recursive_iff ha ((hnames.pair_eq hnames').trans hpair)]
    exact hrec
  refine (canonicalRows_iff hrows.nodup).mpr ⟨fun d hd => ?_, fun row hrow => ?_, fun row hrow row' hrow' hp => ?_⟩
  · obtain ⟨a, ha, hr⟩ := exists_left_of_mem hresolved hd
    obtain ⟨⟨p, hp, hpair⟩, _⟩ := mem_normalize.mp ha
    obtain ⟨x, hx, hu, hnames⟩ := h.granted p hp
    exact ⟨x.row, (hrows.mem_row hu).mpr hx, hcarries hx hu ha hr hp hpair hnames⟩
  · have hx := (hrows.mem row).mp hrow
    obtain ⟨p, hp, hnames, _⟩ := h.wanted _ hx rfl
    obtain ⟨a, ha, hpair, d, hd, hr⟩ := exists_resolved hresolved hp
    exact ⟨d, hd, hcarries hx rfl ha hr hp hpair hnames⟩
  · have hids : row.entitiesId = row'.entitiesId ∧ row.profilesId = row'.profilesId := by
      simpa [CurrentRow.pair] using hp
    have := h.once _ ((hrows.mem row).mp hrow) _ ((hrows.mem row').mp hrow') rfl rfl hids.1 hids.2
    exact congrArg Assignment.row this

/-- The rows that the plan calls canonical are those that the payload asks for. -/
theorem canonicalRows_iff_canonical (hs : s.Suits permissions username) (hrows : RowsOf s userId rows)
    (hresolved : List.Forall₂ (ResolvesTo s) (normalize permissions) desired) :
    CanonicalRows rows desired ↔ s.Canonical permissions userId :=
  ⟨canonical_of_rows hrows hresolved, rows_of_canonical hs hrows hresolved⟩

end

end PermissionSync.Glpi
