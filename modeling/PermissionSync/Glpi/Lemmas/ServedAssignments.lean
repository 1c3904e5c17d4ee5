import PermissionSync.Glpi.Lemmas.ServedLookups

/-!
# Assignments on a documented server
-/

namespace PermissionSync.Glpi

open PermissionSync.Base PermissionSync.Wire

variable {config : ValidatedConfig} {context : SynchronizationContext} {session : GlpiSession}
variable {server : Server} {s : Store} {hs : Headers}
variable {permissions : List RawPermission} {username : String} {userId : Nat}

/-! ## Reading -/

theorem ownerName_iff (hsuits : s.Suits permissions username) (haccount : s.HasAccount username userId)
    {a : Assignment} (ha : a ∈ s.assignments) : s.ownerName a = username ↔ a.usersId = userId := by
  obtain ⟨account, hmem, hname, rfl⟩ := haccount
  obtain ⟨owner, howner, hid⟩ := s.owned a ha
  rw [Store.ownerName_eq howner hid, ← hid]
  constructor
  · intro h
    rw [hsuits.account owner howner account hmem h hname]
  · intro h
    rw [List.inj_on_of_nodup_map s.accountKeys.1 howner hmem h, hname]

theorem mem_candidates (hsuits : s.Suits permissions username) (haccount : s.HasAccount username userId) {i : Nat} :
    i ∈ idsNamed (server.hits s .profileUser username none) username ↔
      ∃ a ∈ s.assignments, a.usersId = userId ∧ a.id = i := by
  rw [mem_idsNamed_hits]
  simp only [Store.listed, List.mem_map, Prod.mk.injEq]
  constructor
  · intro h
    obtain ⟨a, ha, hi, hn⟩ := h
    exact ⟨a, ha, (ownerName_iff hsuits haccount ha).mp hn, hi⟩
  · intro h
    obtain ⟨a, ha, hu, hi⟩ := h
    exact ⟨a, ha, hi, (ownerName_iff hsuits haccount ha).mpr hu⟩

theorem served_readCandidate {a : Assignment} {current : List CurrentRow}
    (hh : sessionHeaders session config = .ok hs) (ha : a ∈ s.assignments) (hu : a.usersId = userId) :
    Served (server.step context.deadline) s (readCandidate config session userId context current a.id)
      fun out s' => s' = s ∧ out = current ++ [a.row] := by
  have hkey := s.assignmentKeys.2 a.id (List.mem_map_of_mem ha)
  obtain ⟨owner, howner, hid⟩ := s.owned a ha
  have howner := hid ▸ s.accountKeys.2 owner.id (List.mem_map_of_mem howner)
  obtain ⟨hprofile, hentity⟩ := s.granted a ha
  refine .bind (Served.mono (Q := fun item s' => s' = s ∧ item = a.row.item a.usersId) (.bind ?_) ?_)
  · refine served_fetch hh fun response s' hanswer => .lift ?_ ⟨hanswer.1, rfl⟩
    exact readItem_of (hanswer.2.1 a ha rfl) hkey howner hprofile hentity
  · intro item s' h
    obtain ⟨rfl, rfl⟩ := h
    exact .bind (.lift (row_eq_ok.mpr ⟨rfl, by rw [hu]⟩) (.pure ⟨rfl, rfl⟩))

/-- A read of the assignments returns the rows that the store holds for the user. -/
theorem served_readCurrentAssignments {options : SearchOptions} (hh : sessionHeaders session config = .ok hs)
    (ho : OptionsOf server .profileUser options) (hsuits : s.Suits permissions username)
    (haccount : s.HasAccount username userId) :
    Served (server.step context.deadline) s
      (readCurrentAssignments config session options username userId context)
      fun current s' => s' = s ∧ RowsOf s userId current := by
  refine .bind (.lift ho.1 (.bind (.lift ho.2 (.bind ?_))))
  refine (served_exactIds false hh (Or.inr (by simp))).mono fun rows s₁ h₁ => ?_
  obtain ⟨rfl, hids⟩ := h₁
  refine .bind (.lift hids ?_)
  have hnodup := idsNamed_nodup username (server.hits_nodup s₁ .profileUser username none)
  have hcandidates (i : Nat) : i ∈ idsNamed (server.hits s₁ .profileUser username none) username ↔ _ :=
    mem_candidates hsuits haccount
  generalize idsNamed (server.hits s₁ .profileUser username none) username = ids at hnodup hcandidates
  refine Served.mono (Served.foldlM (J := fun current rest s' => s' = s₁ ∧
    current.map CurrentRow.id ++ rest = ids ∧ ∀ row ∈ current, row.assignment userId ∈ s₁.assignments) ?_ ?_) ?_
  · intro current i rest s' h
    obtain ⟨rfl, hsplit, hcurrent⟩ := h
    obtain ⟨a, ha, hu, rfl⟩ := (hcandidates i).mp (by simp [← hsplit])
    refine (served_readCandidate hh ha hu).mono fun out s'' h => ?_
    obtain ⟨rfl, rfl⟩ := h
    refine ⟨rfl, by simp [← hsplit, Assignment.row], fun row hrow => ?_⟩
    rcases List.mem_append.mp hrow with hrow | hrow
    · exact hcurrent row hrow
    · rw [List.mem_singleton.mp hrow, ← hu]
      exact ha
  · exact ⟨rfl, by simp, by simp⟩
  · intro current s' h
    obtain ⟨rfl, hsplit, hcurrent⟩ := h
    rw [List.append_nil] at hsplit
    refine ⟨rfl, hsplit ▸ hnodup, fun row => ⟨hcurrent row, fun hrow => ?_⟩⟩
    have hmem : row.id ∈ current.map CurrentRow.id := by
      rw [hsplit, hcandidates]
      exact ⟨_, hrow, rfl, rfl⟩
    obtain ⟨row', hrow', hid⟩ := List.mem_map.mp hmem
    have := List.inj_on_of_nodup_map s'.assignmentKeys.1 (hcurrent row' hrow') hrow hid
    rwa [← show row' = row from congrArg Assignment.row this]

/-! ## Applying a plan -/

/-- Only the rows of the user differ. -/
structure Keeps (s : Store) (userId : Nat) (s' : Store) : Prop where
  entities : s'.entities = s.entities
  profiles : s'.profiles = s.profiles
  accounts : s'.accounts = s.accounts
  others : ∀ a, a.usersId ≠ userId → (a ∈ s'.assignments ↔ a ∈ s.assignments)

theorem Keeps.refl (s : Store) (userId : Nat) : Keeps s userId s := ⟨rfl, rfl, rfl, fun _ _ => Iff.rfl⟩

theorem Keeps.trans {s' s'' : Store} (h : Keeps s userId s') (h' : Keeps s' userId s'') : Keeps s userId s'' :=
  ⟨h'.entities.trans h.entities, h'.profiles.trans h.profiles, h'.accounts.trans h.accounts,
    fun a ha => (h'.others a ha).trans (h.others a ha)⟩

theorem Keeps.suits {s' : Store} (h : Keeps s userId s') (hsuits : s.Suits permissions username) :
    s'.Suits permissions username where
  entities p hp := by simpa [h.entities] using hsuits.entities p hp
  profiles p hp := by simpa [h.profiles] using hsuits.profiles p hp
  account := by simpa [h.accounts] using hsuits.account
  active := by simpa [h.accounts] using hsuits.active

theorem Keeps.hasAccount {s' : Store} (h : Keeps s userId s') {u : Nat} (ha : s.HasAccount username u) :
    s'.HasAccount username u := by
  simpa [Store.HasAccount, h.accounts] using ha

theorem Keeps.resolvesTo {s' : Store} (h : Keeps s userId s') {a : CanonicalAssignment} {d : DesiredAssignment}
    (hd : ResolvesTo s a d) : ResolvesTo s' a d :=
  ⟨h.entities ▸ hd.entity, h.profiles ▸ hd.profile, hd.recursive⟩

theorem RowsOf.remove {s' : Store} {rows : List CurrentRow} {i : Nat} (h : RowsOf s userId rows)
    (hi : i ∈ rows.map CurrentRow.id) (hr : s.RemovesAssignment i s') :
    Keeps s userId s' ∧ RowsOf s' userId (rows.filter fun r => r.id ≠ i) := by
  obtain ⟨row, hrow, rfl⟩ := List.mem_map.mp hi
  refine ⟨⟨hr.entities, hr.profiles, hr.accounts, fun a ha => ?_⟩, ?_, fun r => ?_⟩
  · rw [hr.assignments, and_iff_left_iff_imp]
    intro hmem hid
    rw [List.inj_on_of_nodup_map s.assignmentKeys.1 hmem ((h.mem row).mp hrow) hid] at ha
    exact ha rfl
  · exact h.nodup.sublist (List.filter_sublist.map _)
  · rw [List.mem_filter, h.mem, hr.assignments]
    simp [CurrentRow.assignment]

theorem RowsOf.add {s' : Store} {rows : List CurrentRow} {a : Addition} {i : Nat} (h : RowsOf s userId rows)
    (ha : s.AddsAssignment ⟨i, userId, a.profilesId, a.entitiesId, a.recursive⟩ s') :
    Keeps s userId s' ∧ i ∉ rows.map CurrentRow.id ∧ RowsOf s' userId (rows ++ [a.row i]) := by
  have hfresh : i ∉ rows.map CurrentRow.id := by
    intro hi
    obtain ⟨row, hrow, rfl⟩ := List.mem_map.mp hi
    exact ha.fresh (List.mem_map.mpr ⟨_, (h.mem row).mp hrow, rfl⟩)
  refine ⟨⟨ha.entities, ha.profiles, ha.accounts, fun x hx => ?_⟩, hfresh, ?_, fun r => ?_⟩
  · rw [ha.assignments, or_iff_left_iff_imp]
    intro he
    rw [he] at hx
    exact absurd rfl hx
  · rw [List.map_append, List.nodup_append]
    refine ⟨h.nodup, List.nodup_singleton _, ?_⟩
    intro x hx y hy hxy
    rw [List.mem_map] at hy
    obtain ⟨r, hr, rfl⟩ := hy
    rw [List.mem_singleton.mp hr, Addition.row_id] at hxy
    exact hfresh (hxy ▸ hx)
  · rw [List.mem_append, h.mem, ha.assignments, List.mem_singleton]
    refine or_congr_right ⟨fun he => by rw [he]; rfl, fun he => ?_⟩
    exact congrArg Assignment.row he

/-- What is left of the plan is the plan for the rows that the store holds now. -/
structure Remaining (s : Store) (desired : List DesiredAssignment) (userId : Nat) (rest : List Mutation) (s' : Store) :
    Prop where
  keeps : Keeps s userId s'
  rows : ∃ rows, RowsOf s' userId rows ∧ (compute rows desired).mutations = rest

theorem Remaining.step {s' s'' : Store} {desired : List DesiredAssignment} {m : Mutation} {rest : List Mutation}
    {rows rows' : List CurrentRow} (hpairs : (desired.map DesiredAssignment.pair).Nodup) (hk : Keeps s userId s')
    (hrows : RowsOf s' userId rows) (hplan : (compute rows desired).mutations = m :: rest)
    (hm : Mutates rows m rows') (hk' : Keeps s' userId s'') (hrows' : RowsOf s'' userId rows') :
    Remaining s desired userId rest s'' :=
  ⟨hk.trans hk', rows', hrows', compute_step hrows.nodup hpairs hplan hm⟩

theorem served_removeAssignment {desired : List DesiredAssignment} {i n : Nat} {rest : List Mutation} {s' : Store}
    (hh : sessionHeaders session config = .ok hs) (hpairs : (desired.map DesiredAssignment.pair).Nodup)
    (h : Remaining s desired userId (.remove i :: rest) s') :
    Served (server.step context.deadline) s' (removeAssignment config session context n i)
      fun m s'' => m = n + 1 ∧ Remaining s desired userId rest s'' := by
  obtain ⟨hk, rows, hrows, hplan⟩ := h
  obtain ⟨is, his, _⟩ := mutations_eq_remove_cons hplan
  have hi := removals_subset hrows.nodup desired (his ▸ List.mem_cons_self : i ∈ (compute rows desired).removals)
  refine .bind (Served.mono (Q := fun _ s'' => Remaining s desired userId rest s'') (served_timed hh ?_)
    fun _ s'' h'' => .pure ⟨rfl, h''⟩)
  intro response s'' hanswer
  obtain ⟨row, hrow, rfl⟩ := List.mem_map.mp hi
  obtain ⟨hdoc, hremoves⟩ := hanswer ⟨_, (hrows.mem row).mp hrow, rfl⟩
  obtain ⟨hk', hrows'⟩ := hrows.remove hi hremoves
  exact ⟨(), readDeletedAssignment_of hdoc, .step hpairs hk hrows hplan .remove hk' hrows'⟩

theorem served_addAssignment {desired : List DesiredAssignment} {a : Addition} {n : Nat} {rest : List Mutation}
    {s' : Store} (hh : sessionHeaders session config = .ok hs) (hpairs : (desired.map DesiredAssignment.pair).Nodup)
    (hresolved : ∀ d ∈ desired, ∃ c, ResolvesTo s c d) (haccount : s.HasAccount username userId)
    (h : Remaining s desired userId (.add a :: rest) s') :
    Served (server.step context.deadline) s' (addAssignment config session userId context n a)
      fun m s'' => m = n + 1 ∧ Remaining s desired userId rest s'' := by
  obtain ⟨hk, rows, hrows, hplan⟩ := h
  obtain ⟨_, as, has, _⟩ := mutations_eq_add_cons hplan
  obtain ⟨d, hd, rfl⟩ := additions_subset hrows.nodup desired
    (has ▸ List.mem_cons_self : a ∈ (compute rows desired).additions)
  obtain ⟨c, hc⟩ := hresolved d hd
  have hc := hk.resolvesTo hc
  obtain ⟨account, hmem, _, hid⟩ := hk.hasAccount haccount
  refine .bind (Served.mono (Q := fun _ s'' => Remaining s desired userId rest s'') (served_timed hh ?_)
    fun _ s'' h'' => .pure ⟨rfl, h''⟩)
  intro response s'' hanswer
  obtain ⟨i, hdoc, hadds⟩ := hanswer ⟨account, hmem, hid⟩ ⟨_, hc.profile, rfl⟩ ⟨_, hc.entity, rfl⟩
  obtain ⟨hk', hfresh, hrows'⟩ := hrows.add hadds
  have hkey := s''.assignmentKeys.2 i (List.mem_map.mpr ⟨_, (hadds.assignments _).mpr (Or.inr rfl), rfl⟩)
  exact ⟨i, readCreatedAssignment_of hdoc hkey, .step hpairs hk hrows hplan (.add hfresh) hk' hrows'⟩

/-- Applying the plan for the rows of the user leaves nothing to do, and counts its mutations. -/
theorem served_applyPlan {desired : List DesiredAssignment} {rows : List CurrentRow} {n : Nat}
    (hh : sessionHeaders session config = .ok hs) (hpairs : (desired.map DesiredAssignment.pair).Nodup)
    (hresolved : ∀ d ∈ desired, ∃ c, ResolvesTo s c d) (haccount : s.HasAccount username userId)
    (hrows : RowsOf s userId rows) :
    Served (server.step context.deadline) s (applyPlan config session userId context (compute rows desired) n)
      fun total s' => total = n + (compute rows desired).mutations.length ∧ Remaining s desired userId [] s' := by
  have hlen : (compute rows desired).mutations.length =
      (compute rows desired).removals.length + (compute rows desired).additions.length := by
    simp [Plan.mutations]
  refine .bind (Served.mono (Served.foldlM (J := fun k rest s' =>
    k + rest.length = n + (compute rows desired).removals.length ∧
      Remaining s desired userId (rest.map .remove ++ (compute rows desired).additions.map .add) s') ?_ ?_) ?_)
  · intro k i rest s' h
    refine (served_removeAssignment hh hpairs h.2).mono fun m s'' h' => ⟨?_, h'.2⟩
    have := h.1
    simp only [List.length_cons] at this
    omega
  · exact ⟨rfl, .refl s userId, rows, hrows, rfl⟩
  · intro removed s₁ h₁
    refine Served.mono (Served.foldlM (J := fun k rest s' =>
      k + rest.length = removed + (compute rows desired).additions.length ∧
        Remaining s desired userId (rest.map .add) s') ?_ ?_) ?_
    · intro k a rest s' h
      refine (served_addAssignment hh hpairs hresolved haccount h.2).mono fun m s'' h' => ⟨?_, h'.2⟩
      have := h.1
      simp only [List.length_cons] at this
      omega
    · exact ⟨rfl, h₁.2⟩
    · intro total s₂ h₂
      have hremoved := h₁.1
      have htotal := h₂.1
      simp only [List.length_nil, Nat.add_zero] at hremoved htotal
      exact ⟨by omega, h₂.2⟩

end PermissionSync.Glpi
