import PermissionSync.Glpi.Theorems.Planning

/-!
# No plan is shorter

A plan that establishes the desired state keeps at most one row for each desired assignment that some row carries. The
computed plan keeps one for each of them, so it removes and adds no more than any other.
-/

namespace PermissionSync.Glpi

open PermissionSync.Base

variable {current : List CurrentRow} {desired : List DesiredAssignment} {R : Finset Nat} {A : Multiset Addition}

/-! ## Alternative plans -/

/-- The assignment that a row makes, without the id. -/
def CurrentRow.held (r : CurrentRow) : Addition := ⟨r.entitiesId, r.profilesId, r.isRecursive⟩

/-- The rows whose ids are not removed. -/
def survivors (current : List CurrentRow) (R : Finset Nat) : List CurrentRow := current.filter fun r => r.id ∉ R

/-- Removing the ids and inserting the assignments leaves exactly the desired ones. -/
structure Establishes (current : List CurrentRow) (desired : List DesiredAssignment) (R : Finset Nat)
    (A : Multiset Addition) : Prop where
  removals : ∀ i ∈ R, i ∈ current.map CurrentRow.id
  result : ((survivors current R).map CurrentRow.held : Multiset Addition) + A =
    (desired.map DesiredAssignment.addition : Multiset Addition)

theorem carries_iff {r : CurrentRow} {d : DesiredAssignment} : r.Carries d ↔ r.held = d.addition := by
  obtain ⟨id, entity, profile, recursive⟩ := r
  obtain ⟨entity', profile', recursive'⟩ := d
  simp [CurrentRow.Carries, CurrentRow.held, DesiredAssignment.addition, CurrentRow.pair, DesiredAssignment.pair,
    and_assoc]

theorem addition_nodup (hpairs : (desired.map DesiredAssignment.pair).Nodup) :
    (desired.map DesiredAssignment.addition).Nodup := by
  refine List.Nodup.of_map Addition.pair ?_
  rw [List.map_map]
  exact hpairs

/-- The desired assignments that some row carries. -/
def carried (current : List CurrentRow) (desired : List DesiredAssignment) : List DesiredAssignment :=
  desired.filter fun d => ¬ Missing current d

theorem exists_carries {d : DesiredAssignment} (h : ¬ Missing current d) : ∃ r ∈ current, r.Carries d := by
  simpa [Missing] using h

/-- The rows that stay are at most as many as the carried assignments. -/
theorem Establishes.survivors_le (h : Establishes current desired R A)
    (hpairs : (desired.map DesiredAssignment.pair).Nodup) :
    (survivors current R).length ≤ (carried current desired).length := by
  have hle : ((survivors current R).map CurrentRow.held : Multiset Addition) ≤
      (desired.map DesiredAssignment.addition : Multiset Addition) := h.result ▸ Multiset.le_add_right _ _
  have hnodup : ((survivors current R).map CurrentRow.held).Nodup :=
    Multiset.coe_nodup.mp (Multiset.nodup_of_le hle (Multiset.coe_nodup.mpr (addition_nodup hpairs)))
  have hsub : (survivors current R).map CurrentRow.held ⊆
      (carried current desired).map DesiredAssignment.addition := by
    intro a ha
    obtain ⟨r, hr, rfl⟩ := List.mem_map.mp ha
    obtain ⟨d, hd, hrd⟩ := List.mem_map.mp (Multiset.mem_coe.mp (Multiset.mem_of_le hle (Multiset.mem_coe.mpr ha)))
    refine List.mem_map.mpr ⟨d, List.mem_filter.mpr ⟨hd, ?_⟩, hrd⟩
    simpa [Missing] using ⟨r, (List.mem_filter.mp hr).1, carries_iff.mpr hrd.symm⟩
  simpa using (List.subperm_of_subset hnodup hsub).length_le

/-- Every row stays or is removed. -/
theorem length_survivors_add (hids : (current.map CurrentRow.id).Nodup) (hR : ∀ i ∈ R, i ∈ current.map CurrentRow.id) :
    (survivors current R).length + R.card = current.length := by
  have hnodup : ((current.filter fun r => r.id ∈ R).map CurrentRow.id).Nodup :=
    hids.sublist (List.filter_sublist.map _)
  have hremoved : ((current.filter fun r => r.id ∈ R).map CurrentRow.id).toFinset = R := by
    ext i
    simp only [List.mem_toFinset, List.mem_map, List.mem_filter, decide_eq_true_eq]
    constructor
    · rintro ⟨r, ⟨_, hr⟩, rfl⟩
      exact hr
    · intro hi
      obtain ⟨r, hr, rfl⟩ := List.mem_map.mp (hR i hi)
      exact ⟨r, ⟨hr, hi⟩, rfl⟩
  have hcard : (current.filter fun r => r.id ∈ R).length = R.card := by
    rw [← hremoved, List.toFinset_card_of_nodup hnodup, List.length_map, hremoved]
  have hsplit := List.length_eq_length_filter_add (l := current) fun r => decide (r.id ∈ R)
  have hrest : (current.filter fun r => !decide (r.id ∈ R)) = survivors current R := by
    simp [survivors]
  rw [hrest] at hsplit
  omega

/-! ## The computed plan -/

theorem additions_perm (hids : (current.map CurrentRow.id).Nodup)
    (hpairs : (desired.map DesiredAssignment.pair).Nodup) :
    (compute current desired).additions.Perm
      ((desired.filter fun d => Missing current d).map DesiredAssignment.addition) := by
  rw [compute]
  refine (sortByKey_perm _ _).trans ?_
  rw [draft_additions hids hpairs]
  exact ((sortByKey_perm _ _).filter _).map _

theorem mem_survivors (hids : (current.map CurrentRow.id).Nodup) (hpairs : (desired.map DesiredAssignment.pair).Nodup)
    {r : CurrentRow} : r ∈ survivors current (compute current desired).removals.toFinset ↔
      r ∈ current ∧ Keeper current desired r := by
  simp only [survivors, List.mem_filter, List.mem_toFinset, decide_eq_true_eq]
  refine and_congr_right fun hr => ?_
  rw [id_mem_removals hids hpairs hr, not_not]

/-- One row is the keeper of an assignment. -/
theorem keeper_unique (hids : (current.map CurrentRow.id).Nodup) {r r' : CurrentRow}
    (hr : r ∈ current) (hr' : r' ∈ current) (hk : Keeper current desired r) (hk' : Keeper current desired r')
    (h : r.held = r'.held) : r = r' := by
  obtain ⟨d, _, hc, hmin⟩ := hk
  obtain ⟨d', _, hc', hmin'⟩ := hk'
  have hle : r.id ≤ r'.id := hmin r' hr' (carries_iff.mpr (h.symm.trans (carries_iff.mp hc)))
  have hge : r'.id ≤ r.id := hmin' r hr (carries_iff.mpr (h.trans (carries_iff.mp hc')))
  exact eq_of_id hids hr hr' (le_antisymm hle hge)

/-- The plan keeps one row for each assignment that is carried. -/
theorem survivors_perm (hids : (current.map CurrentRow.id).Nodup)
    (hpairs : (desired.map DesiredAssignment.pair).Nodup) :
    ((survivors current (compute current desired).removals.toFinset).map CurrentRow.held).Perm
      ((carried current desired).map DesiredAssignment.addition) := by
  have hsurvivors {r : CurrentRow} := mem_survivors hids hpairs (r := r)
  refine (List.perm_ext_iff_of_nodup ?_ ?_).mpr fun a => ?_
  · refine List.Nodup.map_on (fun r hr r' hr' h => ?_) ((List.Nodup.of_map _ hids).filter _)
    obtain ⟨hr, hk⟩ := hsurvivors.mp hr
    obtain ⟨hr', hk'⟩ := hsurvivors.mp hr'
    exact keeper_unique hids hr hr' hk hk' h
  · exact (addition_nodup hpairs).sublist (List.filter_sublist.map _)
  · simp only [List.mem_map, hsurvivors, carried, List.mem_filter, decide_eq_true_eq]
    constructor
    · rintro ⟨r, ⟨hr, d, hd, hc, _⟩, rfl⟩
      exact ⟨d, ⟨hd, fun hmissing => hmissing r hr hc⟩, (carries_iff.mp hc).symm⟩
    · rintro ⟨d, ⟨hd, hcarried⟩, rfl⟩
      obtain ⟨r, hr, hc⟩ := exists_carries hcarried
      obtain ⟨r₀, hr₀, hc₀, hmin⟩ := exists_lowest hr hc
      exact ⟨r₀, ⟨hr₀, d, hd, hc₀, hmin⟩, carries_iff.mp hc₀⟩

theorem establishes_compute (hids : (current.map CurrentRow.id).Nodup)
    (hpairs : (desired.map DesiredAssignment.pair).Nodup) :
    Establishes current desired (compute current desired).removals.toFinset (compute current desired).additions where
  removals i hi := removals_subset hids desired (List.mem_toFinset.mp hi)
  result := by
    rw [Multiset.coe_add, Multiset.coe_eq_coe]
    refine ((survivors_perm hids hpairs).append (additions_perm hids hpairs)).trans ?_
    rw [← List.map_append]
    refine List.Perm.map _ (List.perm_append_comm.trans ?_)
    simpa [carried] using List.filter_append_perm (fun d => decide (Missing current d)) desired

/-- An establishing plan inserts what no row that stays carries. -/
theorem Establishes.card (h : Establishes current desired R A) :
    (survivors current R).length + A.card = desired.length := by
  have hcard := congrArg Multiset.card h.result
  simpa using hcard

/-- The numbers of the computed plan. -/
theorem compute_lengths (hids : (current.map CurrentRow.id).Nodup)
    (hpairs : (desired.map DesiredAssignment.pair).Nodup) :
    (compute current desired).removals.length + (carried current desired).length = current.length ∧
      (compute current desired).additions.length + (carried current desired).length = desired.length := by
  have hkept : (survivors current (compute current desired).removals.toFinset).length =
      (carried current desired).length := by
    simpa using (survivors_perm hids hpairs).length_eq
  have hcard := (establishes_compute hids hpairs).card
  have hrows := length_survivors_add hids (establishes_compute hids hpairs).removals
  rw [hkept, List.toFinset_card_of_nodup ((removals_lt hids desired).imp ne_of_lt)] at hrows
  rw [hkept, Multiset.coe_card] at hcard
  omega

/-- No plan that establishes the desired assignments has fewer removals or fewer additions than the computed one, and
the computed one is empty exactly when the rows already are the desired assignments. -/
theorem compute_minimal (hids : (current.map CurrentRow.id).Nodup)
    (hpairs : (desired.map DesiredAssignment.pair).Nodup) :
    (∀ R A, Establishes current desired R A →
      (compute current desired).removals.length ≤ R.card ∧ (compute current desired).additions.length ≤ A.card) ∧
      (isCanonical current desired = true ↔ (current.map CurrentRow.held : Multiset Addition) =
        (desired.map DesiredAssignment.addition : Multiset Addition)) := by
  obtain ⟨hremovals, hadditions⟩ := compute_lengths hids hpairs
  have hminimal (R : Finset Nat) (A : Multiset Addition) (h : Establishes current desired R A) :
      (compute current desired).removals.length ≤ R.card ∧ (compute current desired).additions.length ≤ A.card := by
    have hkept := h.survivors_le hpairs
    have hrows := length_survivors_add hids h.removals
    have hcard := h.card
    omega
  refine ⟨hminimal, ?_⟩
  rw [isCanonical, Plan.isEmpty, Bool.and_eq_true, List.isEmpty_iff, List.isEmpty_iff]
  constructor
  · rintro ⟨hnone, hnone'⟩
    have hresult := (establishes_compute hids hpairs).result
    rw [hnone, hnone'] at hresult
    simpa [survivors] using hresult
  · intro hsame
    have hnothing : Establishes current desired ∅ 0 := ⟨by simp, by simpa [survivors] using hsame⟩
    obtain ⟨hr, ha⟩ := hminimal ∅ 0 hnothing
    exact ⟨List.length_eq_zero_iff.mp (Nat.le_zero.mp hr), List.length_eq_zero_iff.mp (Nat.le_zero.mp ha)⟩

/-- The plan of the sample removes three of its four rows, as every plan that establishes the desired state. -/
theorem compute_minimal_sample : 3 ≤ ({4, 5, 2} : Finset Nat).card ∧
    isCanonical [⟨9, 1, 1, true⟩, ⟨3, 2, 7, false⟩] sampleDesired = true := by
  have hplan : Establishes sampleRows sampleDesired {4, 5, 2} {⟨2, 7, false⟩} := ⟨by decide, by decide⟩
  have hlength : (compute sampleRows sampleDesired).removals.length = 3 := by decide
  refine ⟨?_, (compute_minimal (by decide) (by decide)).2.mpr (by decide)⟩
  exact hlength ▸ ((compute_minimal (by decide) (by decide)).1 _ _ hplan).1

end PermissionSync.Glpi
