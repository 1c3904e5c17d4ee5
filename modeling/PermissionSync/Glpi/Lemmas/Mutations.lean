import PermissionSync.Glpi.Lemmas.Plan

/-!
# Applying a plan

A plan is applied one mutation at a time: first its removals, then its additions, each added row under an id
that no present row has. One mutation turns the plan of the rows before it into the rest of that plan.
-/

namespace PermissionSync.Glpi

open PermissionSync.Base

variable {rows rows' : List CurrentRow} {desired : List DesiredAssignment}

/-- One mutation request on the assignments of the user. -/
inductive Mutation where
  | remove (id : Nat)
  | add (a : Addition)
deriving DecidableEq, Repr

/-- The mutation sequence of a plan: every removal in order, then every addition in order. -/
def Plan.mutations (p : Plan) : List Mutation := p.removals.map .remove ++ p.additions.map .add

/-- The row that an addition inserts under id `i`. -/
def Addition.row (a : Addition) (i : Nat) : CurrentRow :=
  { id := i, entitiesId := a.entitiesId, profilesId := a.profilesId, isRecursive := a.recursive }

@[simp] theorem Addition.row_id (a : Addition) (i : Nat) : (a.row i).id = i := rfl

@[simp] theorem Addition.row_pair (a : Addition) (i : Nat) : (a.row i).pair = a.pair := rfl

@[simp] theorem DesiredAssignment.addition_pair (d : DesiredAssignment) : d.addition.pair = d.pair := rfl

/-- The effect of one mutation on the rows. -/
inductive Mutates : List CurrentRow → Mutation → List CurrentRow → Prop where
  | remove {rows : List CurrentRow} {i : Nat} : Mutates rows (.remove i) (rows.filter fun r => r.id ≠ i)
  | add {rows : List CurrentRow} {a : Addition} {i : Nat} (fresh : i ∉ rows.map CurrentRow.id) :
      Mutates rows (.add a) (rows ++ [a.row i])

/-- The effect of a sequence of mutations on the rows. -/
inductive Applies : List CurrentRow → List Mutation → List CurrentRow → Prop where
  | nil {rows : List CurrentRow} : Applies rows [] rows
  | cons {rows rows' rows'' : List CurrentRow} {m : Mutation} {ms : List Mutation} :
      Mutates rows m rows' → Applies rows' ms rows'' → Applies rows (m :: ms) rows''

theorem Applies.append {rows'' : List CurrentRow} {ms ms' : List Mutation} (h : Applies rows ms rows')
    (h' : Applies rows' ms' rows'') : Applies rows (ms ++ ms') rows'' := by
  induction h with
  | nil => exact h'
  | cons hm _ ih => exact .cons hm (ih h')

/-- Deleting rows one by one leaves the rows whose id is not among the deleted ones. -/
theorem applies_removals (ids : List Nat) (rows : List CurrentRow) :
    Applies rows (ids.map .remove) (rows.filter fun r => r.id ∉ ids) := by
  induction ids generalizing rows with
  | nil => simpa using Applies.nil
  | cons i ids ih =>
      refine .cons .remove ?_
      have he : rows.filter (fun r => r.id ∉ i :: ids) =
          (rows.filter fun r => r.id ≠ i).filter fun r => r.id ∉ ids := by
        rw [List.filter_filter]
        refine List.filter_congr fun r _ => ?_
        simp [Bool.and_comm]
      rw [he]
      exact ih _

/-- Additions under distinct ids that no present row has. -/
theorem applies_additions (adds : List Addition) {ids : List Nat} {rows : List CurrentRow}
    (hlen : ids.length = adds.length) (hids : (rows.map CurrentRow.id ++ ids).Nodup) :
    Applies rows (adds.map .add) (rows ++ List.zipWith Addition.row adds ids) := by
  induction adds generalizing ids rows with
  | nil => simpa using Applies.nil
  | cons a adds ih =>
      cases ids with
      | nil => simp at hlen
      | cons i ids =>
          have hfresh : i ∉ rows.map CurrentRow.id := fun h =>
            (List.nodup_append.mp hids).2.2 i h i List.mem_cons_self rfl
          have h := @ih ids (rows ++ [a.row i]) (by simpa using hlen) (by simpa using hids)
          rw [List.append_assoc] at h
          exact .cons (.add hfresh) h

theorem Mutates.nodup {m : Mutation} (h : Mutates rows m rows') (hids : (rows.map CurrentRow.id).Nodup) :
    (rows'.map CurrentRow.id).Nodup := by
  cases h with
  | remove => exact hids.sublist (List.filter_sublist.map _)
  | add fresh =>
      rw [List.map_append, List.nodup_append]
      refine ⟨hids, by simp, fun i hi j hj hij => ?_⟩
      simp only [List.map_cons, List.map_nil, Addition.row_id, List.mem_singleton] at hj
      subst hij hj
      exact fresh hi

/-! ## Keepers and missing assignments -/

theorem exists_lowest {d : DesiredAssignment} {r : CurrentRow} (hr : r ∈ rows) (hc : r.Carries d) :
    ∃ r₀ ∈ rows, r₀.Carries d ∧ ∀ r' ∈ rows, r'.Carries d → r₀.id ≤ r'.id := by
  obtain ⟨r₀, h₀, hmin⟩ := (rows.filter fun r => r.Carries d).toFinset.exists_min_image CurrentRow.id
    ⟨r, by simp [hr, hc]⟩
  simp only [List.mem_toFinset, List.mem_filter, decide_eq_true_eq] at h₀ hmin
  exact ⟨r₀, h₀.1, h₀.2, fun r' hr' hc' => hmin r' ⟨hr', hc'⟩⟩

/-- Rows that are no keeper can be dropped without changing which of the others are keepers. -/
theorem keeper_of_subset (hsub : ∀ r ∈ rows', r ∈ rows)
    (hkeep : ∀ r ∈ rows, Keeper rows desired r → r ∈ rows') {r : CurrentRow} :
    Keeper rows' desired r ↔ Keeper rows desired r := by
  constructor
  · rintro ⟨d, hd, hc, hmin⟩
    refine ⟨d, hd, hc, fun r' hr' hc' => ?_⟩
    obtain ⟨r₀, hr₀, hc₀, hmin₀⟩ := exists_lowest hr' hc'
    exact le_trans (hmin r₀ (hkeep r₀ hr₀ ⟨d, hd, hc₀, hmin₀⟩) hc₀) (hmin₀ r' hr' hc')
  · rintro ⟨d, hd, hc, hmin⟩
    exact ⟨d, hd, hc, fun r' hr' => hmin r' (hsub r' hr')⟩

theorem missing_of_subset (hsub : ∀ r ∈ rows', r ∈ rows)
    (hkeep : ∀ r ∈ rows, Keeper rows desired r → r ∈ rows') {d : DesiredAssignment} (hd : d ∈ desired) :
    Missing rows' d ↔ Missing rows d := by
  constructor
  · intro h r hr hc
    obtain ⟨r₀, hr₀, hc₀, hmin₀⟩ := exists_lowest hr hc
    exact h r₀ (hkeep r₀ hr₀ ⟨d, hd, hc₀, hmin₀⟩) hc₀
  · intro h r hr
    exact h r (hsub r hr)

theorem carries_unique (hpairs : (desired.map DesiredAssignment.pair).Nodup) {r r' : CurrentRow}
    {d d' : DesiredAssignment} (hd : d ∈ desired) (hd' : d' ∈ desired) (hc : r.Carries d)
    (hc' : r'.Carries d') (h : r.pair = r'.pair) : d = d' :=
  List.inj_on_of_nodup_map hpairs hd hd' (hc.1.symm.trans (h.trans hc'.1))

theorem addition_row_carries_iff (hpairs : (desired.map DesiredAssignment.pair).Nodup)
    {d d' : DesiredAssignment} (hd : d ∈ desired) (hd' : d' ∈ desired) {i : Nat} :
    (d.addition.row i).Carries d' ↔ d' = d := by
  constructor
  · intro h
    exact (List.inj_on_of_nodup_map hpairs hd hd' h.1).symm
  · rintro rfl
    exact ⟨rfl, rfl⟩

/-! ## One mutation of the plan -/

theorem mutations_eq_remove_cons {p : Plan} {i : Nat} {rest : List Mutation}
    (h : p.mutations = .remove i :: rest) :
    ∃ is, p.removals = i :: is ∧ rest = (Plan.mk is p.additions).mutations := by
  cases hr : p.removals with
  | nil =>
      rw [Plan.mutations, hr, List.map_nil, List.nil_append] at h
      cases ha : p.additions <;> rw [ha] at h <;> simp at h
  | cons j js =>
      rw [Plan.mutations, hr, List.map_cons, List.cons_append, List.cons.injEq, Mutation.remove.injEq] at h
      obtain ⟨rfl, rfl⟩ := h
      exact ⟨js, rfl, rfl⟩

theorem mutations_eq_add_cons {p : Plan} {a : Addition} {rest : List Mutation}
    (h : p.mutations = .add a :: rest) :
    p.removals = [] ∧ ∃ as, p.additions = a :: as ∧ rest = (Plan.mk [] as).mutations := by
  cases hr : p.removals with
  | cons j js => rw [Plan.mutations, hr] at h; simp at h
  | nil =>
      rw [Plan.mutations, hr, List.map_nil, List.nil_append] at h
      cases ha : p.additions with
      | nil => rw [ha] at h; simp at h
      | cons b bs =>
          rw [ha, List.map_cons, List.cons.injEq, Mutation.add.injEq] at h
          obtain ⟨rfl, rfl⟩ := h
          exact ⟨rfl, bs, rfl, rfl⟩

theorem keeper_of_no_removal (hids : (rows.map CurrentRow.id).Nodup)
    (hpairs : (desired.map DesiredAssignment.pair).Nodup) (h : (compute rows desired).removals = [])
    {r : CurrentRow} (hr : r ∈ rows) : Keeper rows desired r := by
  by_contra hk
  have := (id_mem_removals hids hpairs hr).mpr hk
  rw [h] at this
  cases this

theorem compute_remove (hids : (rows.map CurrentRow.id).Nodup)
    (hpairs : (desired.map DesiredAssignment.pair).Nodup) {i : Nat} {is : List Nat}
    (h : (compute rows desired).removals = i :: is) :
    compute (rows.filter fun r => r.id ≠ i) desired =
      { removals := is, additions := (compute rows desired).additions } := by
  have hsort := removals_lt hids desired
  rw [h, List.pairwise_cons] at hsort
  have hsub : ∀ r ∈ rows.filter (fun r => r.id ≠ i), r ∈ rows := fun r hr => List.mem_of_mem_filter hr
  have hkeep : ∀ r ∈ rows, Keeper rows desired r → r ∈ rows.filter fun r => r.id ≠ i := by
    intro r hr hk
    refine List.mem_filter.mpr ⟨hr, decide_eq_true fun he => ?_⟩
    have hmem : r.id ∈ (compute rows desired).removals := by rw [h, he]; exact List.mem_cons_self
    exact (id_mem_removals hids hpairs hr).mp hmem hk
  have hids' : ((rows.filter fun r => r.id ≠ i).map CurrentRow.id).Nodup :=
    hids.sublist (List.filter_sublist.map _)
  refine compute_eq_of hids' hpairs hsort.2 (additions_lt hids hpairs) (fun j => ?_) (fun a => ?_)
  · constructor
    · intro hj
      have hmem : j ∈ (compute rows desired).removals := by rw [h]; exact List.mem_cons_of_mem _ hj
      obtain ⟨r, hr, hrj, hk⟩ := (mem_removals hids hpairs).mp hmem
      have hne : r.id ≠ i := by rw [hrj]; exact Nat.ne_of_gt (hsort.1 j hj)
      exact ⟨r, List.mem_filter.mpr ⟨hr, decide_eq_true hne⟩, hrj, by rwa [keeper_of_subset hsub hkeep]⟩
    · rintro ⟨r, hr, hrj, hk⟩
      obtain ⟨hr, hne⟩ := List.mem_filter.mp hr
      rw [keeper_of_subset hsub hkeep] at hk
      have hmem := (id_mem_removals hids hpairs hr).mpr hk
      rw [h, List.mem_cons] at hmem
      rw [← hrj]
      exact hmem.resolve_left (of_decide_eq_true hne)
  · rw [mem_additions hids hpairs]
    constructor
    · rintro ⟨d, hd, ha, hm⟩
      exact ⟨d, hd, ha, (missing_of_subset hsub hkeep hd).mpr hm⟩
    · rintro ⟨d, hd, ha, hm⟩
      exact ⟨d, hd, ha, (missing_of_subset hsub hkeep hd).mp hm⟩

theorem compute_add (hids : (rows.map CurrentRow.id).Nodup)
    (hpairs : (desired.map DesiredAssignment.pair).Nodup) {a : Addition} {as : List Addition} {i : Nat}
    (hr : (compute rows desired).removals = []) (ha : (compute rows desired).additions = a :: as)
    (fresh : i ∉ rows.map CurrentRow.id) :
    compute (rows ++ [a.row i]) desired = { removals := [], additions := as } := by
  have hmem : a ∈ (compute rows desired).additions := by rw [ha]; exact List.mem_cons_self
  obtain ⟨d, hd, rfl, hmiss⟩ := (mem_additions hids hpairs).mp hmem
  have hsort := additions_lt hids hpairs
  rw [ha, List.pairwise_cons] at hsort
  have hids' := Mutates.nodup (.add fresh (a := d.addition)) hids
  have hmiss' : ∀ d' ∈ desired, Missing (rows ++ [d.addition.row i]) d' ↔ Missing rows d' ∧ d' ≠ d := by
    intro d' hd'
    simp only [Missing, List.mem_append, List.mem_singleton, or_imp, forall_and, forall_eq,
      addition_row_carries_iff hpairs hd hd', ne_eq]
  refine compute_eq_of hids' hpairs List.Pairwise.nil hsort.2 (fun j => ?_) (fun b => ?_)
  · -- every row is the keeper of its assignment: the old ones were, and the new one is alone
    simp only [List.not_mem_nil, false_iff, not_exists, not_and, not_not, List.mem_append,
      List.mem_singleton]
    rintro r (hr' | rfl) _
    · obtain ⟨d', hd', hc, hmin⟩ := keeper_of_no_removal hids hpairs hr hr'
      refine ⟨d', hd', hc, fun r' hr'' hc' => ?_⟩
      rcases List.mem_append.mp hr'' with h | h
      · exact hmin r' h hc'
      · rw [List.mem_singleton.mp h, addition_row_carries_iff hpairs hd hd'] at hc'
        subst hc'
        exact absurd hc (hmiss r hr')
    · refine ⟨d, hd, ⟨rfl, rfl⟩, fun r' hr' hc' => ?_⟩
      rcases List.mem_append.mp hr' with h | h
      · exact absurd hc' (hmiss r' h)
      · rw [List.mem_singleton.mp h]
  · have hne : b ∈ as ↔ b ∈ (compute rows desired).additions ∧ b ≠ d.addition := by
      rw [ha, List.mem_cons]
      constructor
      · intro hb
        refine ⟨Or.inr hb, ?_⟩
        rintro rfl
        exact lt_irrefl _ (hsort.1 _ hb)
      · rintro ⟨hb, hne⟩
        exact hb.resolve_left hne
    rw [hne, mem_additions hids hpairs]
    constructor
    · rintro ⟨⟨d', hd', rfl, hm⟩, hne⟩
      exact ⟨d', hd', rfl, (hmiss' d' hd').mpr ⟨hm, fun h => hne (by rw [h])⟩⟩
    · rintro ⟨d', hd', rfl, hm⟩
      obtain ⟨hm, hne⟩ := (hmiss' d' hd').mp hm
      refine ⟨⟨d', hd', rfl, hm⟩, fun he => hne ?_⟩
      exact List.inj_on_of_nodup_map hpairs hd' hd (congrArg Addition.pair he)

/-- One mutation of a plan leaves rows whose plan is the rest. -/
theorem compute_step (hids : (rows.map CurrentRow.id).Nodup)
    (hpairs : (desired.map DesiredAssignment.pair).Nodup) {m : Mutation} {rest : List Mutation}
    (h : (compute rows desired).mutations = m :: rest) (hm : Mutates rows m rows') :
    (compute rows' desired).mutations = rest := by
  cases hm with
  | remove =>
      obtain ⟨is, hr, rfl⟩ := mutations_eq_remove_cons h
      rw [compute_remove hids hpairs hr]
  | add fresh =>
      obtain ⟨hr, as, ha, rfl⟩ := mutations_eq_add_cons h
      rw [compute_add hids hpairs hr ha fresh]

/-- A run of the plan, interrupted anywhere, leaves rows whose plan is the rest of the run. -/
theorem compute_applies {ms rest : List Mutation} (hids : (rows.map CurrentRow.id).Nodup)
    (hpairs : (desired.map DesiredAssignment.pair).Nodup) (ha : Applies rows ms rows')
    (h : (compute rows desired).mutations = ms ++ rest) :
    (rows'.map CurrentRow.id).Nodup ∧ (compute rows' desired).mutations = rest := by
  induction ha with
  | nil => exact ⟨hids, h⟩
  | cons hm _ ih => exact ih (hm.nodup hids) (compute_step hids hpairs h hm)

/-! ## The canonical state -/

/-- Exactly one row for each desired pair, with its recursive value, and no other row. -/
def CanonicalRows (rows : List CurrentRow) (desired : List DesiredAssignment) : Prop :=
  (∀ d ∈ desired, ∃ r, rows.filter (fun r => r.pair = d.pair) = [r] ∧ r.isRecursive = d.recursive) ∧
  ∀ r ∈ rows, ∃ d ∈ desired, r.pair = d.pair

theorem pair_nodup_of_no_removal (hids : (rows.map CurrentRow.id).Nodup)
    (hpairs : (desired.map DesiredAssignment.pair).Nodup) (h : (compute rows desired).removals = []) :
    (rows.map CurrentRow.pair).Nodup := by
  refine (List.nodup_map_iff_inj_on (List.Nodup.of_map _ hids)).mpr fun r hr r' hr' he => ?_
  obtain ⟨d, hd, hc, hmin⟩ := keeper_of_no_removal hids hpairs h hr
  obtain ⟨d', hd', hc', hmin'⟩ := keeper_of_no_removal hids hpairs h hr'
  obtain rfl := carries_unique hpairs hd hd' hc hc' he
  exact eq_of_id hids hr hr' (le_antisymm (hmin r' hr' hc') (hmin' r hr hc))

/-- `is_canonical` decides the canonical final state. -/
theorem isCanonical_iff (hids : (rows.map CurrentRow.id).Nodup)
    (hpairs : (desired.map DesiredAssignment.pair).Nodup) :
    isCanonical rows desired = true ↔ CanonicalRows rows desired := by
  rw [isCanonical, Plan.isEmpty, Bool.and_eq_true, List.isEmpty_iff, List.isEmpty_iff]
  constructor
  · rintro ⟨hr, ha⟩
    have hnd := pair_nodup_of_no_removal hids hpairs hr
    refine ⟨fun d hd => ?_, fun r hr' => ?_⟩
    · have hm : ¬ Missing rows d := fun hm => by
        have := (mem_additions hids hpairs).mpr ⟨d, hd, rfl, hm⟩
        rw [ha] at this
        cases this
      simp only [Missing, not_forall, not_not] at hm
      obtain ⟨r, hr', hc⟩ := hm
      exact ⟨r, hc.1 ▸ filter_key_eq_singleton hnd hr', hc.2⟩
    · obtain ⟨d, hd, hc, _⟩ := keeper_of_no_removal hids hpairs hr hr'
      exact ⟨d, hd, hc.1⟩
  · rintro ⟨hone, hall⟩
    have honly : ∀ d ∈ desired, ∀ r ∈ rows, r.pair = d.pair →
        r.Carries d ∧ ∀ r' ∈ rows, r'.pair = d.pair → r' = r := by
      intro d hd r hr hp
      obtain ⟨r₀, hf, hrec⟩ := hone d hd
      have hin : ∀ x ∈ rows, x.pair = d.pair → x = r₀ := fun x hx hxp => by
        have hmem : x ∈ rows.filter fun r => r.pair = d.pair := List.mem_filter.mpr ⟨hx, by simpa using hxp⟩
        rw [hf] at hmem
        exact List.mem_singleton.mp hmem
      obtain rfl := hin r hr hp
      exact ⟨⟨hp, hrec⟩, hin⟩
    constructor
    · refine List.eq_nil_iff_forall_not_mem.mpr fun i hi => ?_
      obtain ⟨r, hr, _, hk⟩ := (mem_removals hids hpairs).mp hi
      obtain ⟨d, hd, hp⟩ := hall r hr
      obtain ⟨hc, huniq⟩ := honly d hd r hr hp
      exact hk ⟨d, hd, hc, fun r' hr' hc' => le_of_eq (by rw [huniq r' hr' hc'.1])⟩
    · refine List.eq_nil_iff_forall_not_mem.mpr fun a ha => ?_
      obtain ⟨d, hd, _, hm⟩ := (mem_additions hids hpairs).mp ha
      obtain ⟨r, hf, _⟩ := hone d hd
      have hr : r ∈ rows.filter fun r => r.pair = d.pair := by rw [hf]; exact List.mem_singleton_self r
      obtain ⟨hr, hp⟩ := List.mem_filter.mp hr
      exact hm r hr (honly d hd r hr (by simpa using hp)).1

theorem canonicalRows_of_no_mutation (hids : (rows.map CurrentRow.id).Nodup)
    (hpairs : (desired.map DesiredAssignment.pair).Nodup) (h : (compute rows desired).mutations = []) :
    CanonicalRows rows desired := by
  refine (isCanonical_iff hids hpairs).mp ?_
  rw [Plan.mutations, List.append_eq_nil_iff, List.map_eq_nil_iff, List.map_eq_nil_iff] at h
  simp [isCanonical, Plan.isEmpty, h]

end PermissionSync.Glpi
