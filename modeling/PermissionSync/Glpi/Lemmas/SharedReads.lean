import PermissionSync.Glpi.Lemmas.ServedAssignments
import PermissionSync.Glpi.Lemmas.SharedLookups

/-!
# Reading the assignments while others change them
-/

namespace PermissionSync.Glpi

open PermissionSync.Base PermissionSync.Wire

variable {config : ValidatedConfig} {context : SynchronizationContext} {session : GlpiSession} {server : Server}
variable {request : AdapterRequest} {username : String} {userId : Nat} {s s' m : Shared}

/-! ## The environment -/

theorem informs_among (server : Server) : server.Informs Shared.store Request.readsTables server.among where
  grows _ _ _ h := h.1.accounts
  answers _ _ response _ h hreads := h.2 response rfl hreads

theorem fixed_among (server : Server) : Fixed Shared.store server.among :=
  fun _ _ _ h => ⟨h.1.entities, h.1.profiles⟩

theorem informs_amongRetaining (server : Server) (username : String) :
    server.Informs Shared.store Request.readsTables (server.amongRetaining username) where
  grows s e s' h := (informs_among server).grows s e s' h.1
  answers s call response s' h := (informs_among server).answers s call response s' h.1

theorem evolves_of_path {t : Trace} (h : Path server.among s t s') : s.Evolves s' :=
  h.invariant (P := fun m => s.Evolves m) (.refl s) fun _ _ _ hm hstep => hm.trans hstep.1

/-- A row of an earlier instant that is still there is the same row. -/
theorem Shared.Evolves.mem_of_mem (h : m.Evolves s) {a : Assignment} (ha : a ∈ s.store.assignments) {b : Assignment}
    (hb : b ∈ m.store.assignments) (hid : a.id = b.id) : a = b := by
  rcases h.rows a ha with ha | hle
  · exact List.inj_on_of_nodup_map m.store.assignmentKeys.1 ha hb hid
  · have := m.below b hb
    omega

theorem Store.AccountsGrow.ownerName {s s' : Store} (h : s.AccountsGrow s') {a : Assignment} (ha : a ∈ s.assignments) :
    s'.ownerName a = s.ownerName a := by
  obtain ⟨owner, howner, hid⟩ := s.owned a ha
  rw [Store.ownerName_eq howner hid, Store.ownerName_eq (h.kept owner howner) hid]

theorem Store.AccountsGrow.hasAccount {s s' : Store} (h : s.AccountsGrow s') {id : Nat}
    (ha : s.HasAccount username id) : s'.HasAccount username id := by
  obtain ⟨a, ha, hn, hid⟩ := ha
  exact ⟨a, h.kept a ha, hn, hid⟩

/-! ## The search for the rows of the user -/

/-- A row that was shown with the exact name no longer exists, and its id is not used again. -/
def Gone (username : String) (xs : List (Nat × String)) (s : Shared) : Prop :=
  ∃ x ∈ xs, x.1 ≠ 0 ∧ x.2 = username ∧ x.1 < s.issued ∧ ∀ a ∈ s.store.assignments, a.id ≠ x.1

theorem mem_hits_rows {selector : String} {s : Store} {x : Nat × String} :
    x ∈ server.hits s .profileUser selector none ↔ ∃ a ∈ s.assignments, x = (a.id, s.ownerName a) ∧
      server.finds .profileUser (exactSearchQueryValue selector) a.id (s.ownerName a) = true := by
  rw [Server.mem_hits_iff]
  simp only [Store.listed, List.mem_map]
  constructor
  · intro h
    obtain ⟨⟨a, ha, rfl⟩, hfinds⟩ := h
    exact ⟨a, ha, rfl, hfinds⟩
  · intro h
    obtain ⟨a, ha, rfl, hfinds⟩ := h
    exact ⟨⟨a, ha, rfl⟩, hfinds⟩

theorem Gone.stays {xs : List (Nat × String)} (h : Gone username xs s) (hev : s.Evolves s') : Gone username xs s' := by
  obtain ⟨x, hx, hpos, hname, hlt, hnone⟩ := h
  refine ⟨x, hx, hpos, hname, hlt.trans_le hev.issued, fun a ha hid => ?_⟩
  rcases hev.rows a ha with ha | hle
  · exact hnone a ha hid
  · omega

/-- Rows that were listed stay in front of the list, unless one of the user has gone. -/
theorem steady_rows (server : Server) (username : String) :
    Steady (server.amongRetaining username) (fun s => server.hits s.store .profileUser username none)
      (Gone username) where
  front xs s e s' henv hfront := by
    obtain ⟨⟨hev, _⟩, hretains⟩ := henv
    have hrow {x : Nat × String} (hx : x ∈ xs) := mem_hits_rows.mp (hfront.subset hx)
    by_cases hthere : ∀ x ∈ xs, x.2 = username → ∃ a ∈ s'.store.assignments, a.id = x.1
    · refine Or.inl (prefix_of_sorted (server.hits_sorted _ _ _ _) (server.hits_sorted _ _ _ _) hfront ?_ ?_)
      · intro x hx
        obtain ⟨a, ha, rfl, hfinds⟩ := hrow hx
        have hkept : a ∈ s'.store.assignments := by
          by_cases hname : s.store.ownerName a = username
          · obtain ⟨b, hb, hid⟩ := hthere _ hx hname
            rwa [← hev.mem_of_mem hb ha hid]
          · exact hretains a ha hfinds hname
        exact mem_hits_rows.mpr ⟨a, hkept, by rw [hev.accounts.ownerName ha], by rwa [hev.accounts.ownerName ha]⟩
      · intro y hy
        obtain ⟨b, hb, rfl, hfinds⟩ := mem_hits_rows.mp hy
        rcases hev.rows b hb with hold | hle
        · rw [hev.accounts.ownerName hold] at hfinds ⊢
          exact Or.inl (mem_hits_rows.mpr ⟨b, hold, rfl, hfinds⟩)
        · refine Or.inr fun x hx => ?_
          obtain ⟨a, ha, rfl, _⟩ := hrow hx
          exact (s.below a ha).trans_le hle
    · simp only [not_forall, not_exists, not_and] at hthere
      obtain ⟨x, hx, hname, hnone⟩ := hthere
      obtain ⟨a, ha, rfl, _⟩ := hrow hx
      have hpos := (s.store.assignmentKeys.2 a.id (List.mem_map_of_mem ha)).1
      exact Or.inr ⟨_, hx, hpos.ne', hname, (s.below a ha).trans_le hev.issued, hnone⟩
  stays xs s e s' henv hgone := hgone.stays henv.1.1
  more xs ys s hgone := by
    obtain ⟨x, hx, hrest⟩ := hgone
    exact ⟨x, List.mem_append_left _ hx, hrest⟩

/-! ## The rows -/

/-- A row that was read is in the table at that instant, with the owner that was asked for. -/
theorem mem_of_readItem {id : Nat} {response : RawResponse} {row : CurrentRow} {s : Store}
    (hanswer : server.Answers s (.getProfileUser id) response s) (hid : row.id = id)
    (hread : readItem id response = .ok (row.item userId)) : row.assignment userId ∈ s.assignments := by
  have hstatus : response.status = 200 := by
    obtain ⟨_, hs, _⟩ := bind_eq_ok.mp hread
    exact ensure_eq_ok.mp hs
  obtain ⟨a, ha, rfl⟩ : ∃ a ∈ s.assignments, a.id = id := by
    by_contra hnone
    exact hanswer.2.2 (fun a ha he => hnone ⟨a, ha, he⟩) hstatus
  have hkey := s.assignmentKeys.2 a.id (List.mem_map_of_mem ha)
  obtain ⟨owner, howner, howned⟩ := s.owned a ha
  have hownerKey := howned ▸ s.accountKeys.2 owner.id (List.mem_map_of_mem howner)
  obtain ⟨hprofile, hentity⟩ := s.granted a ha
  have hitem := readItem_of (hanswer.2.1 a ha rfl) hkey hownerKey hprofile hentity
  rw [hread] at hitem
  simp only [Except.ok.injEq, CurrentRow.item, ProfileUserItem.mk.injEq] at hitem
  have : row.assignment userId = a := by
    simp [CurrentRow.assignment, hid, hitem]
  rwa [this]

theorem ensures_readCandidates {ids : List Nat} (hm : m.Evolves s) :
    Ensures server.among s (ids.foldlM (readCandidate config session userId context) []) fun current _ =>
      current.map CurrentRow.id = ids ∧
        ∀ row ∈ current, ∃ m', m.Evolves m' ∧ row.assignment userId ∈ m'.store.assignments := by
  refine Ensures.mono (Ensures.foldlM (J := fun current rest s' => m.Evolves s' ∧
    current.map CurrentRow.id ++ rest = ids ∧
      ∀ row ∈ current, ∃ m', m.Evolves m' ∧ row.assignment userId ∈ m'.store.assignments) ?_ ⟨hm, by simp, by simp⟩) ?_
  · intro current id rest s h t out s' hrun hpath
    obtain ⟨hs, hsplit, hcurrent⟩ := h
    obtain ⟨row, rfl, hid, hread⟩ := run_readCandidate_ok.mp hrun
    obtain ⟨n, hs', response, _, _, hitem, rfl⟩ := run_readProfileUserItem_ok.mp hread
    obtain ⟨m', call, hcall, _, hm', henv⟩ := path_callTrace (P := fun s => m.Evolves s)
      (fun _ _ _ h hstep => h.trans hstep.1) hs hpath
    have hanswer := henv.2 response rfl (by rw [hcall]; rfl)
    rw [hcall] at hanswer
    refine ⟨hm', by simp [← hsplit, hid], fun r hr => ?_⟩
    rcases List.mem_append.mp hr with hr | hr
    · exact hcurrent r hr
    · rw [List.mem_singleton.mp hr]
      exact ⟨s', hm', mem_of_readItem hanswer hid hitem⟩
  · intro current s' h
    exact ⟨by simpa using h.2.1, h.2.2⟩

/-- The candidates of a search that shows something are all read. -/
theorem mem_exactIds_of_shows {idField nameField : Nat} {ys : List (Nat × String)} {rows : List Row} {ids : List Nat}
    (hrows : List.Forall₂ (Shows idField nameField) ys rows)
    (hids : exactIds rows idField nameField username false = .ok ids) {x : Nat × String} (hx : x ∈ ys)
    (hname : x.2 = username) (hpos : x.1 ≠ 0) : x.1 ∈ ids := by
  obtain ⟨row, hrow, hshows⟩ := exists_right_of_mem hrows hx
  exact ((exactIds_eq_ok hids).mem x.1).mpr ⟨row, hrow, hname ▸ hshows.name, hshows.id false (Or.inr hpos)⟩

/-- If the rows read later were those of the search, and the search was complete at an instant, they are the rows of the
user at that instant. -/
theorem rowsOf_of_read {current : List CurrentRow} (haccount : m.store.HasAccount username userId)
    (hids : current.map CurrentRow.id = idsNamed (server.hits m.store .profileUser username none) username)
    (hcurrent : ∀ row ∈ current, ∃ m', m.Evolves m' ∧ row.assignment userId ∈ m'.store.assignments) :
    RowsOf m.store userId current := by
  have hlisted (i : Nat) : i ∈ current.map CurrentRow.id ↔
      ∃ a ∈ m.store.assignments, a.id = i ∧ m.store.ownerName a = username := by
    rw [hids, mem_idsNamed_hits]
    simp [Store.listed]
  have hmem : ∀ row ∈ current, row.assignment userId ∈ m.store.assignments := by
    intro row hrow
    obtain ⟨m', hev, hthere⟩ := hcurrent row hrow
    obtain ⟨a, ha, hid, _⟩ := (hlisted row.id).mp (List.mem_map_of_mem hrow)
    rwa [hev.mem_of_mem hthere ha hid.symm]
  refine ⟨hids ▸ idsNamed_nodup username (server.hits_nodup _ _ _ _), fun row => ⟨hmem row, fun hrow => ?_⟩⟩
  obtain ⟨account, haccount, hname, rfl⟩ := haccount
  have howner : m.store.ownerName (row.assignment account.id) = username := by
    rw [Store.ownerName_eq haccount rfl, hname]
  obtain ⟨row', hrow', hid⟩ := List.mem_map.mp ((hlisted row.id).mpr ⟨_, hrow, rfl, howner⟩)
  have := List.inj_on_of_nodup_map m.store.assignmentKeys.1 (hmem row' hrow') hrow hid
  rwa [← show row' = row from congrArg Assignment.row this]

/-- A search of which others delete no row of another user, and the reads of the rows that it showed, return the rows
that the user has at the instant of its last page. What others do during the reads of the rows does not matter. -/
theorem instant_of_read {options : SearchOptions} {idField nameField : Nat} {rows : List Row} {ids : List Nat}
    {t₁ t₂ : Trace} {current : List CurrentRow} (ho : OptionsOf server .profileUser options)
    (haccount : s.store.HasAccount username userId) (hid : options.require "Profile_User.id" = .ok idField)
    (hname : options.require "Profile_User.User.name" = .ok nameField)
    (hsearch : Run (searchAllPages config session (narrowing .profileUser idField nameField username none) context) t₁
      (.ok rows))
    (hids : exactIds rows idField nameField username false = .ok ids)
    (hitems : Run (ids.foldlM (readCandidate config session userId context) []) t₂ (.ok current))
    (h₁ : Path (server.amongRetaining username) s t₁ m) (h₂ : Path server.among m t₂ s') :
    RowsOf m.store userId current := by
  cases hid.symm.trans ho.1
  cases hname.symm.trans ho.2
  have hevolves : s.Evolves m := evolves_of_path (h₁.mono fun _ _ _ h => h.1)
  obtain ⟨ys, hshows, hys⟩ := ensures_searchAllPages (informs_amongRetaining server username) (fun _ _ => rfl)
    (steady_rows server username) t₁ rows m hsearch h₁
  obtain ⟨hmap, hcurrent⟩ := ensures_readCandidates (.refl m) t₂ current s' hitems h₂
  rcases hys with rfl | hgone
  · have hids' : exactIds rows (server.idOption .profileUser) (server.nameOption .profileUser) username false = _ :=
      exactIds_of_shows hshows (fun x hx => Or.inr (m.store.listed_pos (Server.mem_hits hx) (by simp)))
        (server.hits_nodup _ _ _ _)
    cases hids.symm.trans hids'
    exact rowsOf_of_read (hevolves.accounts.hasAccount haccount) hmap hcurrent
  · -- The row that has gone was shown, so it was asked for and its read has failed.
    obtain ⟨x, hx, hpos, hxname, hlt, hnone⟩ := hgone
    have hmem := mem_exactIds_of_shows hshows hids hx hxname hpos
    rw [← hmap] at hmem
    obtain ⟨row, hrow, hrowid⟩ := List.mem_map.mp hmem
    obtain ⟨m', hev, hthere⟩ := hcurrent row hrow
    rcases hev.rows _ hthere with hold | hle
    · exact absurd hrowid (hnone _ hold)
    · exact absurd hlt (not_lt.mpr (hrowid ▸ hle))

/-! ## The plan -/

/-- What a reconciliation has established when it has planned. -/
structure PlannedIn (server : Server) (request : AdapterRequest) (p : Planned) (s : Store) : Prop where
  payload : parseAndNormalize request.payload = .ok p.desired
  options : OptionsOf server .profileUser p.references.profileUserOptions
  account : s.HasAccount request.username p.userId
  references : ReferencesOf server s p.desired p.references
  resolved : resolveDesired p.references.resolved p.desired = .ok p.desiredResolved

theorem ReferencesOf.congr {s s' : Store} {desired : List CanonicalAssignment} {references : References}
    (h : ReferencesOf server s desired references) (he : s'.entities = s.entities) (hp : s'.profiles = s.profiles) :
    ReferencesOf server s' desired references :=
  ⟨h.resolved.congr he hp, h.userOptions, h.profileUserOptions⟩

theorem PlannedIn.evolve {p : Planned} (h : PlannedIn server request p s.store) (hev : s.Evolves s') :
    PlannedIn server request p s'.store :=
  ⟨h.payload, h.options, hev.accounts.hasAccount h.account, h.references.congr hev.entities hev.profiles, h.resolved⟩

theorem ensures_plan : Ensures server.among s (Glpi.plan config request) fun p s' =>
    PlannedIn server request p s'.store := by
  have hinf := informs_among server
  refine .bind (Ensures.mono (Q := fun desired _ => parseAndNormalize request.payload = .ok desired) ?_ ?_)
  · exact .bind ((Ensures.any _).mono fun _ _ _ => .bind ((Ensures.any _).mono fun _ _ _ => .lift fun _ h => h))
  intro desired s₁ hpayload
  refine .bind ((Ensures.any _).mono fun session s₂ _ => ?_)
  refine .bind ((ensures_prepare hinf (fun _ => rfl) (fun _ => rfl) (fixed_among server)).mono
    fun references s₃ h₃ => ?_)
  have hkeep {α : Type} (p : Io α) {s : Shared} (h : ReferencesOf server s.store desired references) :
      Ensures server.among s p fun _ s' => ReferencesOf server s'.store desired references :=
    .invariant (P := fun s : Shared => ReferencesOf server s.store desired references)
      (fun _ _ _ h hstep => h.congr hstep.1.entities hstep.1.profiles) h p
  refine .bind (((ensures_synchronizedUser hinf (fun _ _ _ => rfl) h₃.userOptions).and (hkeep _ h₃)).mono
    fun user s₄ h₄ => ?_)
  have hkeepAccount {α : Type} (p : Io α) : Ensures server.among s₄ p fun _ s' =>
      s'.store.HasAccount request.username user.1 :=
    .invariant (P := fun s : Shared => s.store.HasAccount request.username user.1)
      (fun _ _ _ h hstep => hstep.1.accounts.hasAccount h) h₄.1.hasAccount p
  refine .bind (((hkeep _ h₄.2).and (hkeepAccount _)).mono fun current s₅ h₅ => ?_)
  exact .bind (.lift fun desiredResolved hresolved => .pure
    ⟨hpayload, h₅.1.profileUserOptions, h₅.2, h₅.1, hresolved⟩)

end PermissionSync.Glpi
