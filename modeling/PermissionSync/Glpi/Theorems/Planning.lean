import PermissionSync.Glpi.Lemmas.Mutations

/-!
# The plan and its application

Applying a plan establishes the canonical state, and an application that is interrupted anywhere is completed
by the plan of the rows it left.
-/

namespace PermissionSync.Glpi

open PermissionSync.Base

variable {current : List CurrentRow} {desired : List DesiredAssignment}

/-! ## The plan establishes the desired state -/

theorem survivors_canonical (hids : (current.map CurrentRow.id).Nodup)
    (hpairs : (desired.map DesiredAssignment.pair).Nodup) {fresh : List Nat}
    (hlen : fresh.length = (compute current desired).additions.length)
    (hfresh : (((current.filter fun r => r.id ∉ (compute current desired).removals).map CurrentRow.id) ++
      fresh).Nodup) :
    CanonicalRows ((current.filter fun r => r.id ∉ (compute current desired).removals) ++
      List.zipWith Addition.row (compute current desired).additions fresh) desired := by
  have happ := (applies_removals (compute current desired).removals current).append
    (applies_additions (compute current desired).additions hlen hfresh)
  have hall : (compute current desired).mutations = ((compute current desired).removals.map .remove ++
      (compute current desired).additions.map .add) ++ [] := by simp [Plan.mutations]
  obtain ⟨hids', hdone⟩ := compute_applies hids hpairs happ hall
  exact canonicalRows_of_no_mutation hids' hpairs hdone

theorem compute_perm {current' : List CurrentRow} {desired' : List DesiredAssignment}
    (hids : (current.map CurrentRow.id).Nodup) (hpairs : (desired.map DesiredAssignment.pair).Nodup)
    (hc : current'.Perm current) (hd : desired'.Perm desired) :
    compute current' desired' = compute current desired := by
  have hids' := (hc.map CurrentRow.id).nodup_iff.mpr hids
  have hpairs' := (hd.map DesiredAssignment.pair).nodup_iff.mpr hpairs
  refine compute_eq_of hids' hpairs' (removals_lt hids desired) (additions_lt hids hpairs)
    (fun i => ?_) (fun a => ?_)
  · refine (mem_removals hids hpairs).trans ?_
    simp only [Keeper, hc.mem_iff, hd.mem_iff]
  · refine (mem_additions hids hpairs).trans ?_
    simp only [Missing, hc.mem_iff, hd.mem_iff]

/-- Deleting the rows a plan removes and inserting a row under a fresh id for each addition leaves exactly one
row for each desired pair, with its recursive value. The old rows that survive are the rows of lowest id that
carry a desired assignment, removals and additions are strictly ascending, and the plan does not depend on the
order of its inputs. -/
theorem compute_establishes_desired (hids : (current.map CurrentRow.id).Nodup)
    (hpairs : (desired.map DesiredAssignment.pair).Nodup) :
    (∀ fresh : List Nat, fresh.length = (compute current desired).additions.length →
      (((current.filter fun r => r.id ∉ (compute current desired).removals).map CurrentRow.id) ++ fresh).Nodup →
      CanonicalRows ((current.filter fun r => r.id ∉ (compute current desired).removals) ++
        List.zipWith Addition.row (compute current desired).additions fresh) desired) ∧
    (∀ r ∈ current, r.id ∉ (compute current desired).removals ↔
      ∃ d ∈ desired, r.Carries d ∧ ∀ r' ∈ current, r'.Carries d → r.id ≤ r'.id) ∧
    (compute current desired).removals.Pairwise (· < ·) ∧
    (∀ i ∈ (compute current desired).removals, i ∈ current.map CurrentRow.id) ∧
    (compute current desired).additions.Pairwise (fun a b => a.pair < b.pair) ∧
    ∀ current' desired', current'.Perm current → desired'.Perm desired →
      compute current' desired' = compute current desired := by
  refine ⟨fun fresh hlen hfresh => survivors_canonical hids hpairs hlen hfresh, fun r hr => ?_,
    removals_lt hids desired, fun i hi => removals_subset hids desired hi, additions_lt hids hpairs,
    fun _ _ hc hd => compute_perm hids hpairs hc hd⟩
  rw [id_mem_removals hids hpairs hr, not_not, Keeper]

/-- Rows with a duplicate, a wrong recursive value and an undesired pair, and a desired pair that is missing. -/
def sampleRows : List CurrentRow :=
  [⟨5, 1, 1, false⟩, ⟨9, 1, 1, true⟩, ⟨2, 1, 1, true⟩, ⟨4, 3, 3, false⟩]

def sampleDesired : List DesiredAssignment := [⟨2, 7, false⟩, ⟨1, 1, true⟩]

theorem compute_establishes_desired_sample :
    compute sampleRows sampleDesired = { removals := [4, 5, 9], additions := [⟨2, 7, false⟩] } ∧
      CanonicalRows [⟨2, 1, 1, true⟩, ⟨10, 2, 7, false⟩] sampleDesired :=
  ⟨by decide, (@compute_establishes_desired sampleRows sampleDesired (by decide)
    (by decide)).1 [10] (by decide) (by decide)⟩

/-! ## Interrupted application -/

theorem subset_of_applies_removals {ids : List Nat} {rows : List CurrentRow}
    (h : Applies current (ids.map .remove) rows) : ∀ r ∈ rows, r ∈ current := by
  induction ids generalizing current with
  | nil => cases h; exact fun r hr => hr
  | cons i ids ih =>
      cases h with
      | cons hm h =>
          cases hm
          exact fun r hr => List.mem_of_mem_filter (ih h r hr)

theorem removals_eq_nil_of_mutations_eq {p : Plan} {adds : List Addition} (h : p.mutations = adds.map .add) :
    p.removals = [] := by
  cases hr : p.removals with
  | nil => rfl
  | cons i is =>
      rw [Plan.mutations, hr] at h
      cases adds <;> simp at h

/-- After any number of mutations of a plan, the plan of the rows left is the rest of the sequence. Before the
first addition only rows of `current` are left; after it every row carries a desired assignment and no pair has
two rows. -/
theorem compute_resumes (hids : (current.map CurrentRow.id).Nodup)
    (hpairs : (desired.map DesiredAssignment.pair).Nodup) {k : Nat} {rows : List CurrentRow}
    (happ : Applies current ((compute current desired).mutations.take k) rows) :
    (compute rows desired).mutations = (compute current desired).mutations.drop k ∧
    (k ≤ (compute current desired).removals.length → ∀ r ∈ rows, r ∈ current) ∧
    ((compute current desired).removals.length < k →
      (∀ r ∈ rows, ∃ d ∈ desired, r.Carries d) ∧ (rows.map CurrentRow.pair).Nodup) := by
  obtain ⟨hids', hrest⟩ := compute_applies hids hpairs happ (List.take_append_drop k _).symm
  refine ⟨hrest, fun hle => ?_, fun hlt => ?_⟩
  · rw [Plan.mutations, List.take_append_of_le_length (by simpa using hle), ← List.map_take] at happ
    exact subset_of_applies_removals happ
  · have hdrop : (compute current desired).mutations.drop k =
        ((compute current desired).additions.drop (k - (compute current desired).removals.length)).map .add := by
      rw [Plan.mutations, List.drop_append, List.drop_eq_nil_of_le (by simpa using hlt.le), List.nil_append,
        List.length_map, ← List.map_drop]
    rw [hdrop] at hrest
    have hnone := removals_eq_nil_of_mutations_eq hrest
    refine ⟨fun r hr => ?_, pair_nodup_of_no_removal hids' hpairs hnone⟩
    obtain ⟨d, hd, hc, _⟩ := keeper_of_no_removal hids' hpairs hnone hr
    exact ⟨d, hd, hc⟩

theorem compute_resumes_sample :
    (compute [⟨5, 1, 1, false⟩, ⟨9, 1, 1, true⟩, ⟨2, 1, 1, true⟩] sampleDesired).mutations =
      [.remove 5, .remove 9, .add ⟨2, 7, false⟩] :=
  (@compute_resumes sampleRows sampleDesired (by decide) (by decide) 1 _
    (.cons .remove .nil)).1

end PermissionSync.Glpi
