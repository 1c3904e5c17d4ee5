import PermissionSync.Glpi.Plan

/-!
# What the planner computes

The groups of `by_pair`, the invariant of the loop over the desired assignments, and from it which rows a
plan keeps, removes and adds.
-/

namespace PermissionSync.Glpi

open PermissionSync.Base

variable {current : List CurrentRow} {desired done : List DesiredAssignment}

/-! ## The groups -/

/-- The rows of one pair, by ascending id. -/
def group (current : List CurrentRow) (k : Pair) : List CurrentRow :=
  sortByKey CurrentRow.id (current.filter fun r => r.pair = k)

@[simp] theorem mem_group {k : Pair} {r : CurrentRow} : r ∈ group current k ↔ r ∈ current ∧ r.pair = k := by
  simp [group]

theorem groupByPair_foldl (l : List CurrentRow) (m : Std.TreeMap Pair (List CurrentRow)) (k : Pair) :
    (l.foldl (fun m row => m.alter row.pair fun rows => some (rows.getD [] ++ [row])) m)[k]? =
      if l.filter (fun r => r.pair = k) = [] then m[k]?
      else some (m[k]?.getD [] ++ l.filter fun r => r.pair = k) := by
  induction l generalizing m with
  | nil => simp
  | cons r rs ih =>
      rw [List.foldl_cons, ih, Std.TreeMap.getElem?_alter]
      by_cases hr : r.pair = k
      · subst hr
        by_cases hrs : rs.filter (fun x => x.pair = r.pair) = [] <;> simp [hrs]
      · have hc : compare r.pair k ≠ Ordering.eq := fun h => hr (Std.LawfulEqCmp.eq_of_compare h)
        simp [hr, hc]

theorem sortedGroups_getElem? (k : Pair) :
    (sortedGroups current)[k]? = if group current k = [] then none else some (group current k) := by
  rw [sortedGroups, Std.TreeMap.getElem?_map, groupByPair, groupByPair_foldl]
  simp only [group, sortByKey_eq_nil, Std.TreeMap.getElem?_emptyc, Option.getD_none, List.nil_append]
  split <;> rfl

/-! ## The rows a plan keeps -/

/-- The row carries the desired assignment: its pair and its recursive value. -/
def CurrentRow.Carries (r : CurrentRow) (d : DesiredAssignment) : Prop :=
  r.pair = d.pair ∧ r.isRecursive = d.recursive

instance (r : CurrentRow) (d : DesiredAssignment) : Decidable (r.Carries d) :=
  inferInstanceAs (Decidable (_ ∧ _))

/-- The loop keeps `r`: the first desired assignment of its pair chooses it in its group. -/
def Kept (current : List CurrentRow) (done : List DesiredAssignment) (r : CurrentRow) : Prop :=
  ∃ d, done.find? (fun d => d.pair = r.pair) = some d ∧
    (group current r.pair).find? (fun row => row.isRecursive == d.recursive) = some r

theorem Kept.pair_mem {r : CurrentRow} (h : Kept current done r) : r.pair ∈ done.map DesiredAssignment.pair := by
  obtain ⟨d, hd, _⟩ := h
  have hp := List.find?_some hd
  exact List.mem_map.mpr ⟨d, List.mem_of_find?_eq_some hd, by simpa using hp⟩

theorem eq_of_id (hids : (current.map CurrentRow.id).Nodup) {r r' : CurrentRow} (hr : r ∈ current)
    (hr' : r' ∈ current) (h : r.id = r'.id) : r = r' :=
  List.inj_on_of_nodup_map hids hr hr' h

theorem find?_append_of_mem {d : DesiredAssignment} {k : Pair} (h : k ∈ done.map DesiredAssignment.pair) :
    (done ++ [d]).find? (fun d => d.pair = k) = done.find? (fun d => d.pair = k) := by
  obtain ⟨d', hd', hk⟩ := List.mem_map.mp h
  rw [List.find?_append]
  cases hf : done.find? (fun d => d.pair = k) with
  | some _ => rfl
  | none => exact absurd (by simpa using hk) (List.find?_eq_none.mp hf d' hd')

theorem find?_append_of_notMem {d : DesiredAssignment} (h : d.pair ∉ done.map DesiredAssignment.pair) :
    (done ++ [d]).find? (fun x => x.pair = d.pair) = some d := by
  have hf : done.find? (fun x => x.pair = d.pair) = none := by
    refine List.find?_eq_none.mpr fun x hx => ?_
    simpa using fun he => h (List.mem_map.mpr ⟨x, hx, he⟩)
  simp [List.find?_append, hf]

/-- Later assignments do not change which rows of an already consumed pair are kept. -/
theorem kept_append_of_mem {d : DesiredAssignment} {r : CurrentRow}
    (h : r.pair ∈ done.map DesiredAssignment.pair) : Kept current (done ++ [d]) r ↔ Kept current done r := by
  simp only [Kept, find?_append_of_mem h]

theorem kept_append_of_notMem {d : DesiredAssignment} {r : CurrentRow}
    (h : d.pair ∉ done.map DesiredAssignment.pair) (hr : r.pair = d.pair) :
    Kept current (done ++ [d]) r ↔
      (group current d.pair).find? (fun row => row.isRecursive == d.recursive) = some r := by
  simp only [Kept, hr, find?_append_of_notMem h, Option.some.injEq, exists_eq_left']

/-! ## The loop over the desired assignments -/

/-- What holds of the draft once the assignments `done` have been processed. -/
structure DraftInv (current : List CurrentRow) (done : List DesiredAssignment) (s : Draft) : Prop where
  lookup : ∀ k : Pair, s.byPair[k]? =
    if k ∈ done.map DesiredAssignment.pair ∨ group current k = [] then none else some (group current k)
  mem_removals : ∀ i, i ∈ s.removals ↔ ∃ r ∈ current, r.id = i ∧
    r.pair ∈ done.map DesiredAssignment.pair ∧ ¬ Kept current done r
  nodup : s.removals.Nodup
  additions : ∀ a ∈ s.additions, ∃ d ∈ done, a = d.addition

theorem DraftInv.init (current : List CurrentRow) :
    DraftInv current [] { byPair := sortedGroups current, removals := [], additions := [] } where
  lookup k := by simp [sortedGroups_getElem?]
  mem_removals i := by simp
  nodup := List.nodup_nil
  additions a h := by simp at h

theorem not_mem_of_lookup_some {s : Draft} {d : DesiredAssignment} {rows : List CurrentRow}
    (hs : DraftInv current done s) (h : s.byPair[d.pair]? = some rows) :
    d.pair ∉ done.map DesiredAssignment.pair ∧ rows = group current d.pair := by
  rw [hs.lookup] at h
  split at h
  · cases h
  · rename_i hc
    exact ⟨fun hm => hc (Or.inl hm), (Option.some.inj h).symm⟩

theorem group_eq_nil_of_lookup_none {s : Draft} {d : DesiredAssignment} (hs : DraftInv current done s)
    (h : s.byPair[d.pair]? = none) (hd : d.pair ∉ done.map DesiredAssignment.pair) :
    group current d.pair = [] := by
  rw [hs.lookup] at h
  split at h
  · rename_i hc
    exact hc.resolve_left hd
  · cases h

theorem mem_pairs_append {d : DesiredAssignment} {k : Pair} :
    k ∈ (done ++ [d]).map DesiredAssignment.pair ↔ k ∈ done.map DesiredAssignment.pair ∨ k = d.pair := by
  simp

/-- Consuming a group: the rows of `d`'s pair that are not kept join the removals. -/
theorem DraftInv.consume {s : Draft} {d : DesiredAssignment} {ids : List Nat} {adds : List Addition}
    (hids : (current.map CurrentRow.id).Nodup) (hs : DraftInv current done s)
    (hd : d.pair ∉ done.map DesiredAssignment.pair)
    (hmem : ∀ i, i ∈ ids ↔ ∃ r ∈ current, r.id = i ∧ r.pair = d.pair ∧ ¬ Kept current (done ++ [d]) r)
    (hnd : ids.Nodup) (hadds : ∀ a ∈ adds, a = d.addition) :
    DraftInv current (done ++ [d])
      { byPair := s.byPair.erase d.pair, removals := s.removals ++ ids, additions := s.additions ++ adds } where
  lookup k := by
    rw [Std.TreeMap.getElem?_erase, hs.lookup]
    by_cases hk : d.pair = k
    · subst hk; simp
    · have hc : compare d.pair k ≠ Ordering.eq := fun h => hk (Std.LawfulEqCmp.eq_of_compare h)
      have hk' : k ≠ d.pair := fun h => hk h.symm
      simp only [hc, ↓reduceIte, mem_pairs_append, hk', or_false]
  mem_removals i := by
    simp only [List.mem_append, hs.mem_removals, hmem, mem_pairs_append]
    constructor
    · rintro (⟨r, hr, hi, hp, hk⟩ | ⟨r, hr, hi, hp, hk⟩)
      · exact ⟨r, hr, hi, Or.inl hp, by rwa [kept_append_of_mem hp]⟩
      · exact ⟨r, hr, hi, Or.inr hp, hk⟩
    · rintro ⟨r, hr, hi, hp | hp, hk⟩
      · exact Or.inl ⟨r, hr, hi, hp, by rwa [kept_append_of_mem hp] at hk⟩
      · exact Or.inr ⟨r, hr, hi, hp, hk⟩
  nodup := by
    refine List.nodup_append.mpr ⟨hs.nodup, hnd, fun i hi j hj hij => ?_⟩
    subst hij
    -- a row removed before belongs to an earlier pair, so the same id cannot occur in this group
    obtain ⟨r, hr, hri, hp, _⟩ := (hs.mem_removals i).mp hi
    obtain ⟨r', hr', hri', hp', _⟩ := (hmem i).mp hj
    have he : r = r' := eq_of_id hids hr hr' (hri.trans hri'.symm)
    subst he
    exact hd (hp' ▸ hp)
  additions a ha := by
    rcases List.mem_append.mp ha with h | h
    · obtain ⟨x, hx, he⟩ := hs.additions a h
      exact ⟨x, List.mem_append_left _ hx, he⟩
    · exact ⟨d, by simp, hadds a h⟩

theorem DraftInv.step {s : Draft} (hids : (current.map CurrentRow.id).Nodup) (hs : DraftInv current done s)
    (d : DesiredAssignment) : DraftInv current (done ++ [d]) (planAssignment s d) := by
  unfold planAssignment
  cases hl : s.byPair[d.pair]? with
  | none =>
      -- no group: either the pair was consumed before or it has no row, so nothing is removed
      have hrow : ∀ r ∈ current, r.pair = d.pair → r.pair ∈ done.map DesiredAssignment.pair := by
        intro r hr hp
        by_contra hn
        rw [hp] at hn
        have : r ∈ group current d.pair := mem_group.mpr ⟨hr, hp⟩
        rw [group_eq_nil_of_lookup_none hs hl hn] at this
        cases this
      refine ⟨fun k => ?_, fun i => ?_, hs.nodup, fun a ha => ?_⟩
      · simp only [hs.lookup, mem_pairs_append]
        by_cases hk : k = d.pair
        · subst hk
          have := hl; rw [hs.lookup] at this
          simpa using this
        · simp [hk]
      · simp only [hs.mem_removals, mem_pairs_append]
        constructor
        · rintro ⟨r, hr, hi, hp, hk⟩
          exact ⟨r, hr, hi, Or.inl hp, by rwa [kept_append_of_mem hp]⟩
        · rintro ⟨r, hr, hi, hp, hk⟩
          have hp' := hp.elim id (hrow r hr)
          exact ⟨r, hr, hi, hp', by rwa [kept_append_of_mem hp'] at hk⟩
      · rcases List.mem_append.mp ha with h | h
        · obtain ⟨x, hx, he⟩ := hs.additions a h
          exact ⟨x, List.mem_append_left _ hx, he⟩
        · exact ⟨d, by simp, by simpa using h⟩
  | some rows =>
      obtain ⟨hd, rfl⟩ := not_mem_of_lookup_some hs hl
      have hnd : ((group current d.pair).map CurrentRow.id).Nodup :=
        ((sortByKey_perm _ _).map _).nodup_iff.mpr (hids.sublist (List.filter_sublist.map _))
      simp only
      cases hf : (group current d.pair).find? (fun row => row.isRecursive == d.recursive) with
      | some keeper =>
          have hk := List.mem_of_find?_eq_some hf
          have hadd := @DraftInv.consume current done s d (((group current d.pair).filter
              fun row => row.id != keeper.id).map CurrentRow.id) [] hids hs hd (fun i => ?_)
            (hnd.sublist (List.filter_sublist.map _)) (by simp)
          · simpa using hadd
          · simp only [List.mem_map, List.mem_filter, mem_group, bne_iff_ne, ne_eq]
            constructor
            · rintro ⟨r, ⟨⟨hr, hp⟩, hne⟩, hi⟩
              refine ⟨r, hr, hi, hp, ?_⟩
              rw [kept_append_of_notMem hd hp, hf]
              rintro ⟨⟩
              exact hne rfl
            · rintro ⟨r, hr, hi, hp, hn⟩
              rw [kept_append_of_notMem hd hp, hf] at hn
              refine ⟨r, ⟨⟨hr, hp⟩, fun he => hn ?_⟩, hi⟩
              rw [eq_of_id hids hr (mem_group.mp hk).1 he]
      | none =>
          refine hs.consume hids hd (fun i => ?_) hnd (by simp)
          simp only [List.mem_map, mem_group]
          constructor
          · rintro ⟨r, ⟨hr, hp⟩, hi⟩
            exact ⟨r, hr, hi, hp, by rw [kept_append_of_notMem hd hp, hf]; simp⟩
          · rintro ⟨r, hr, hi, hp, _⟩
            exact ⟨r, ⟨hr, hp⟩, hi⟩

theorem DraftInv.foldl (hids : (current.map CurrentRow.id).Nodup) (ds : List DesiredAssignment) {s : Draft}
    (hs : DraftInv current done s) : DraftInv current (done ++ ds) (ds.foldl planAssignment s) := by
  induction ds generalizing done s with
  | nil => simpa using hs
  | cons d ds ih => simpa using ih (hs.step hids d)

theorem draft_inv (hids : (current.map CurrentRow.id).Nodup) (desired : List DesiredAssignment) :
    DraftInv current (sortByKey DesiredAssignment.pair desired) (draft current desired) := by
  have h := DraftInv.foldl hids (sortByKey DesiredAssignment.pair desired) (DraftInv.init current)
  rwa [List.nil_append] at h

/-! ## The plan -/

theorem mem_leftover {s : Draft} (hs : DraftInv current done s) {i : Nat} :
    i ∈ s.leftover ↔ ∃ r ∈ current, r.id = i ∧ r.pair ∉ done.map DesiredAssignment.pair := by
  rw [Draft.leftover, List.flatMap_map, List.mem_flatMap]
  constructor
  · rintro ⟨⟨k, rows⟩, hk, hi⟩
    rw [Std.TreeMap.mem_toList_iff_getElem?_eq_some, hs.lookup] at hk
    split at hk
    · cases hk
    · rename_i hc
      cases hk
      obtain ⟨r, hg, hid⟩ := List.mem_map.mp hi
      obtain ⟨hr, rfl⟩ := mem_group.mp hg
      exact ⟨r, hr, hid, fun h => hc (Or.inl h)⟩
  · rintro ⟨r, hr, hi, hp⟩
    have hg : r ∈ group current r.pair := mem_group.mpr ⟨hr, rfl⟩
    refine ⟨(r.pair, group current r.pair), ?_, List.mem_map.mpr ⟨r, hg, hi⟩⟩
    rw [Std.TreeMap.mem_toList_iff_getElem?_eq_some, hs.lookup, if_neg]
    rintro (h | h)
    · exact hp h
    · rw [h] at hg; cases hg

theorem leftover_nodup {s : Draft} (hids : (current.map CurrentRow.id).Nodup) (hs : DraftInv current done s) :
    s.leftover.Nodup := by
  have hval : ∀ p ∈ s.byPair.toList, p.2 = group current p.1 := by
    rintro ⟨k, rows⟩ hp
    rw [Std.TreeMap.mem_toList_iff_getElem?_eq_some, hs.lookup] at hp
    split at hp
    · cases hp
    · exact (Option.some.inj hp).symm
  rw [Draft.leftover, List.flatMap_map, List.nodup_flatMap]
  refine ⟨fun p hp => ?_, ?_⟩
  · rw [hval p hp]
    exact ((sortByKey_perm _ _).map _).nodup_iff.mpr (hids.sublist (List.filter_sublist.map _))
  · -- groups of different pairs share no id
    refine (List.pairwise_iff_forall_sublist.mpr fun {p q} hpq => ?_ : s.byPair.toList.Pairwise _)
    have hne := List.pairwise_iff_forall_sublist.mp Std.TreeMap.distinct_keys_toList hpq
    have hp := hval p (hpq.subset (by simp))
    have hq := hval q (hpq.subset (by simp))
    simp only [Function.onFun, hp, hq, List.disjoint_left, List.mem_map, not_exists, not_and]
    rintro i ⟨r, hr, rfl⟩ r' hr' hi
    obtain ⟨hr, hk⟩ := mem_group.mp hr
    obtain ⟨hr', hk'⟩ := mem_group.mp hr'
    rw [eq_of_id hids hr hr' hi.symm] at hk
    exact hne (compare_eq_iff_eq.mpr (hk.symm.trans hk'))

/-- A row is removed exactly when the loop does not keep it. -/
theorem mem_removals_iff (hids : (current.map CurrentRow.id).Nodup) (desired : List DesiredAssignment)
    {i : Nat} : i ∈ (compute current desired).removals ↔
      ∃ r ∈ current, r.id = i ∧ ¬ Kept current (sortByKey DesiredAssignment.pair desired) r := by
  have hs := draft_inv hids desired
  simp only [compute, mem_sortByKey, List.mem_append, hs.mem_removals, mem_leftover hs]
  constructor
  · rintro (⟨r, hr, hi, _, hk⟩ | ⟨r, hr, hi, hp⟩)
    · exact ⟨r, hr, hi, hk⟩
    · exact ⟨r, hr, hi, fun hk => hp hk.pair_mem⟩
  · rintro ⟨r, hr, hi, hk⟩
    by_cases hp : r.pair ∈ (sortByKey DesiredAssignment.pair desired).map DesiredAssignment.pair
    · exact Or.inl ⟨r, hr, hi, hp, hk⟩
    · exact Or.inr ⟨r, hr, hi, hp⟩

theorem removals_lt (hids : (current.map CurrentRow.id).Nodup) (desired : List DesiredAssignment) :
    (compute current desired).removals.Pairwise (· < ·) := by
  have hs := draft_inv hids desired
  refine sortByKey_lt id ?_
  rw [List.map_id, List.nodup_append]
  refine ⟨hs.nodup, leftover_nodup hids hs, fun i hi j hj hij => ?_⟩
  subst hij
  obtain ⟨r, hr, hri, hp, _⟩ := (hs.mem_removals i).mp hi
  obtain ⟨r', hr', hri', hp'⟩ := (mem_leftover hs).mp hj
  exact hp' (eq_of_id hids hr hr' (hri.trans hri'.symm) ▸ hp)

theorem removals_subset (hids : (current.map CurrentRow.id).Nodup) (desired : List DesiredAssignment)
    {i : Nat} (h : i ∈ (compute current desired).removals) : i ∈ current.map CurrentRow.id := by
  obtain ⟨r, hr, hi, _⟩ := (mem_removals_iff hids desired).mp h
  exact List.mem_map.mpr ⟨r, hr, hi⟩

theorem additions_subset (hids : (current.map CurrentRow.id).Nodup) (desired : List DesiredAssignment)
    {a : Addition} (h : a ∈ (compute current desired).additions) : ∃ d ∈ desired, a = d.addition := by
  obtain ⟨d, hd, ha⟩ := (draft_inv hids desired).additions a (mem_sortByKey.mp h)
  exact ⟨d, mem_sortByKey.mp hd, ha⟩

/-! ## The plan for distinct desired pairs -/

/-- The row of lowest id among those that carry one desired assignment. -/
def Keeper (current : List CurrentRow) (desired : List DesiredAssignment) (r : CurrentRow) : Prop :=
  ∃ d ∈ desired, r.Carries d ∧ ∀ r' ∈ current, r'.Carries d → r.id ≤ r'.id

theorem find?_pair_eq_some_iff (hpairs : (done.map DesiredAssignment.pair).Nodup) {k : Pair}
    {d : DesiredAssignment} : done.find? (fun d => d.pair = k) = some d ↔ d ∈ done ∧ d.pair = k := by
  constructor
  · intro h
    exact ⟨List.mem_of_find?_eq_some h, by simpa using List.find?_some h⟩
  · rintro ⟨hd, rfl⟩
    cases hf : done.find? (fun x => x.pair = d.pair) with
    | none => exact absurd (by simp) (List.find?_eq_none.mp hf d hd)
    | some x =>
        have hx : x.pair = d.pair := by simpa using List.find?_some hf
        rw [List.inj_on_of_nodup_map hpairs (List.mem_of_find?_eq_some hf) hd hx]

theorem find?_group_eq_some_iff (hids : (current.map CurrentRow.id).Nodup) {d : DesiredAssignment}
    {r : CurrentRow} : (group current d.pair).find? (fun row => row.isRecursive == d.recursive) = some r ↔
      r ∈ current ∧ r.Carries d ∧ ∀ r' ∈ current, r'.Carries d → r.id ≤ r'.id := by
  rw [group, find?_sortByKey_eq_some_iff (hids.sublist (List.filter_sublist.map _))]
  simp only [List.mem_filter, decide_eq_true_eq, beq_iff_eq, CurrentRow.Carries]
  constructor
  · rintro ⟨⟨hr, hp⟩, hrec, hmin⟩
    exact ⟨hr, ⟨hp, hrec⟩, fun r' hr' hc => hmin r' ⟨hr', hc.1⟩ hc.2⟩
  · rintro ⟨hr, ⟨hp, hrec⟩, hmin⟩
    exact ⟨⟨hr, hp⟩, hrec, fun r' hr' hrec' => hmin r' hr'.1 ⟨hr'.2, hrec'⟩⟩

theorem kept_iff_keeper (hids : (current.map CurrentRow.id).Nodup)
    (hpairs : (desired.map DesiredAssignment.pair).Nodup) {r : CurrentRow} (hr : r ∈ current) :
    Kept current (sortByKey DesiredAssignment.pair desired) r ↔ Keeper current desired r := by
  have hpairs' : ((sortByKey DesiredAssignment.pair desired).map DesiredAssignment.pair).Nodup :=
    ((sortByKey_perm _ _).map _).nodup_iff.mpr hpairs
  constructor
  · rintro ⟨d, hd, hf⟩
    obtain ⟨hd, hp⟩ := (find?_pair_eq_some_iff hpairs').mp hd
    rw [← hp] at hf
    exact ⟨d, mem_sortByKey.mp hd, ((find?_group_eq_some_iff hids).mp hf).2⟩
  · rintro ⟨d, hd, hc, hmin⟩
    refine ⟨d, (find?_pair_eq_some_iff hpairs').mpr ⟨mem_sortByKey.mpr hd, hc.1.symm⟩, ?_⟩
    rw [hc.1]
    exact (find?_group_eq_some_iff hids).mpr ⟨hr, hc, hmin⟩

/-- For distinct pairs the removed rows are those that are the keeper of no desired assignment. -/
theorem mem_removals (hids : (current.map CurrentRow.id).Nodup)
    (hpairs : (desired.map DesiredAssignment.pair).Nodup) {i : Nat} :
    i ∈ (compute current desired).removals ↔ ∃ r ∈ current, r.id = i ∧ ¬ Keeper current desired r := by
  rw [mem_removals_iff hids]
  constructor
  · rintro ⟨r, hr, hi, hk⟩
    exact ⟨r, hr, hi, by rwa [kept_iff_keeper hids hpairs hr] at hk⟩
  · rintro ⟨r, hr, hi, hk⟩
    exact ⟨r, hr, hi, by rwa [kept_iff_keeper hids hpairs hr]⟩

theorem id_mem_removals (hids : (current.map CurrentRow.id).Nodup)
    (hpairs : (desired.map DesiredAssignment.pair).Nodup) {r : CurrentRow} (hr : r ∈ current) :
    r.id ∈ (compute current desired).removals ↔ ¬ Keeper current desired r := by
  rw [mem_removals hids hpairs]
  constructor
  · rintro ⟨r', hr', hi, hk⟩
    rwa [eq_of_id hids hr' hr hi] at hk
  · intro hk
    exact ⟨r, hr, rfl, hk⟩

/-- No row carries the desired assignment. -/
def Missing (current : List CurrentRow) (d : DesiredAssignment) : Prop := ∀ r ∈ current, ¬ r.Carries d

instance (current : List CurrentRow) (d : DesiredAssignment) : Decidable (Missing current d) :=
  inferInstanceAs (Decidable (∀ r ∈ current, ¬ r.Carries d))

theorem planAssignment_additions {s : Draft} (hids : (current.map CurrentRow.id).Nodup)
    (hs : DraftInv current done s) {d : DesiredAssignment} (hd : d.pair ∉ done.map DesiredAssignment.pair) :
    (planAssignment s d).additions = s.additions ++ if Missing current d then [d.addition] else [] := by
  unfold planAssignment
  cases hl : s.byPair[d.pair]? with
  | none =>
      have hm : Missing current d := by
        intro r hr hc
        have : r ∈ group current d.pair := mem_group.mpr ⟨hr, hc.1⟩
        rw [group_eq_nil_of_lookup_none hs hl hd] at this
        cases this
      simp [hm]
  | some rows =>
      obtain ⟨_, rfl⟩ := not_mem_of_lookup_some hs hl
      simp only
      cases hf : (group current d.pair).find? (fun row => row.isRecursive == d.recursive) with
      | some keeper =>
          have hm : ¬ Missing current d := fun hm => by
            obtain ⟨hk, hc, _⟩ := (find?_group_eq_some_iff hids).mp hf
            exact hm keeper hk hc
          simp [hm]
      | none =>
          have hm : Missing current d := by
            intro r hr hc
            have := List.find?_eq_none.mp hf r (mem_group.mpr ⟨hr, hc.1⟩)
            simp [hc.2] at this
          simp [hm]

theorem foldl_additions (hids : (current.map CurrentRow.id).Nodup) (ds : List DesiredAssignment) {s : Draft}
    (hs : DraftInv current done s) (hpairs : ((done ++ ds).map DesiredAssignment.pair).Nodup) :
    (ds.foldl planAssignment s).additions =
      s.additions ++ (ds.filter fun d => Missing current d).map DesiredAssignment.addition := by
  induction ds generalizing done s with
  | nil => simp
  | cons d ds ih =>
      have hd : d.pair ∉ done.map DesiredAssignment.pair := by
        rw [List.map_append, List.map_cons] at hpairs
        exact fun h => (List.nodup_append.mp hpairs).2.2 _ h _ List.mem_cons_self rfl
      rw [List.foldl_cons, ih (hs.step hids d) (by simpa using hpairs), planAssignment_additions hids hs hd]
      by_cases hm : Missing current d <;> simp [hm]

theorem draft_additions (hids : (current.map CurrentRow.id).Nodup)
    (hpairs : (desired.map DesiredAssignment.pair).Nodup) :
    (draft current desired).additions =
      ((sortByKey DesiredAssignment.pair desired).filter fun d => Missing current d).map
        DesiredAssignment.addition := by
  have hpairs' : ((sortByKey DesiredAssignment.pair desired).map DesiredAssignment.pair).Nodup :=
    ((sortByKey_perm _ _).map _).nodup_iff.mpr hpairs
  have h := foldl_additions hids _ (DraftInv.init current) (by simpa using hpairs')
  rwa [List.nil_append] at h

theorem length_additions_le (current : List CurrentRow) (desired : List DesiredAssignment) :
    (compute current desired).additions.length ≤ desired.length := by
  have hturn (s : Draft) (d : DesiredAssignment) : (planAssignment s d).additions.length ≤ s.additions.length + 1 := by
    unfold planAssignment
    split
    · simp
    · dsimp only
      split <;> simp
  have hloop : ∀ (ds : List DesiredAssignment) (s : Draft),
      (ds.foldl planAssignment s).additions.length ≤ s.additions.length + ds.length := by
    intro ds
    induction ds with
    | nil => exact fun s => le_rfl
    | cons d ds ih =>
        intro s
        have := ih (planAssignment s d)
        have := hturn s d
        rw [List.foldl_cons, List.length_cons]
        omega
  have hdraft :=
    hloop (sortByKey DesiredAssignment.pair desired) { byPair := sortedGroups current, removals := [], additions := [] }
  rw [(sortByKey_perm _ _).length_eq, List.length_nil, Nat.zero_add] at hdraft
  exact (sortByKey_perm _ _).length_eq.trans_le hdraft

/-- For distinct pairs the additions are the desired assignments that no current row carries. -/
theorem mem_additions (hids : (current.map CurrentRow.id).Nodup)
    (hpairs : (desired.map DesiredAssignment.pair).Nodup) {a : Addition} :
    a ∈ (compute current desired).additions ↔ ∃ d ∈ desired, a = d.addition ∧ Missing current d := by
  simp only [compute, mem_sortByKey, draft_additions hids hpairs, List.mem_map, List.mem_filter,
    decide_eq_true_eq]
  constructor
  · rintro ⟨d, ⟨hd, hm⟩, rfl⟩
    exact ⟨d, hd, rfl, hm⟩
  · rintro ⟨d, hd, rfl, hm⟩
    exact ⟨d, ⟨hd, hm⟩, rfl⟩

theorem additions_lt (hids : (current.map CurrentRow.id).Nodup)
    (hpairs : (desired.map DesiredAssignment.pair).Nodup) :
    (compute current desired).additions.Pairwise (fun a b => a.pair < b.pair) := by
  refine sortByKey_lt Addition.pair ?_
  rw [draft_additions hids hpairs, List.map_map]
  have hpairs' : ((sortByKey DesiredAssignment.pair desired).map DesiredAssignment.pair).Nodup :=
    ((sortByKey_perm _ _).map _).nodup_iff.mpr hpairs
  exact hpairs'.sublist (List.filter_sublist.map _)

/-- A plan is determined by the rows it removes and the assignments it adds. -/
theorem compute_eq_of (hids : (current.map CurrentRow.id).Nodup)
    (hpairs : (desired.map DesiredAssignment.pair).Nodup) {removals : List Nat} {additions : List Addition}
    (hr : removals.Pairwise (· < ·)) (ha : additions.Pairwise (fun a b => a.pair < b.pair))
    (hmr : ∀ i, i ∈ removals ↔ ∃ r ∈ current, r.id = i ∧ ¬ Keeper current desired r)
    (hma : ∀ a, a ∈ additions ↔ ∃ d ∈ desired, a = d.addition ∧ Missing current d) :
    compute current desired = { removals := removals, additions := additions } := by
  have h₁ : (compute current desired).removals = removals :=
    eq_of_sorted_of_mem_iff id (removals_lt hids desired) hr
      fun i => (mem_removals hids hpairs).trans (hmr i).symm
  have h₂ : (compute current desired).additions = additions :=
    eq_of_sorted_of_mem_iff Addition.pair (additions_lt hids hpairs) ha
      fun a => (mem_additions hids hpairs).trans (hma a).symm
  rw [← h₁, ← h₂]

end PermissionSync.Glpi
