import PermissionSync.Glpi.Lemmas.Scans
import PermissionSync.Glpi.Lemmas.ServedLookups

/-!
# References and users while the tables change
-/

namespace PermissionSync.Glpi

open PermissionSync.Base PermissionSync.Wire

variable {config : ValidatedConfig} {context : SynchronizationContext} {session : GlpiSession} {server : Server}
variable {σ : Type} {env : σ → Event glpi → σ → Prop} {tables : σ → Store} {answered : Request → Bool} {s : σ}
variable {username : String}

/-! ## The user -/

/-- The oldest active account with the name. -/
structure Store.First (s : Store) (username : String) (id : Nat) : Prop where
  account : ∃ a ∈ s.accounts, a.isDeleted = false ∧ a.name = username ∧ a.id = id
  least : ∀ a ∈ s.accounts, a.isDeleted = false → a.name = username → id ≤ a.id

theorem Store.First.unique {s : Store} {i j : Nat} (hi : s.First username i) (hj : s.First username j) : i = j := by
  obtain ⟨a, ha, had, han, rfl⟩ := hi.account
  obtain ⟨b, hb, hbd, hbn, rfl⟩ := hj.account
  exact le_antisymm (hi.least b hb hbd hbn) (hj.least a ha had han)

theorem Store.First.hasAccount {s : Store} {i : Nat} (h : s.First username i) : s.HasAccount username i := by
  obtain ⟨a, ha, _, hn, hi⟩ := h.account
  exact ⟨a, ha, hn, hi⟩

/-- Accounts that are added later leave the oldest one the oldest. -/
theorem Store.First.grow {s s' : Store} {i : Nat} (h : s.First username i) (hgrow : s.AccountsGrow s') :
    s'.First username i := by
  obtain ⟨a, ha, had, han, rfl⟩ := h.account
  refine ⟨⟨a, hgrow.kept a ha, had, han, rfl⟩, fun b hb hbd hbn => ?_⟩
  rcases hgrow.later b hb with hold | hlater
  · exact h.least b hold hbd hbn
  · exact (hlater a ha).le

theorem steady_users (hinf : server.Informs tables answered env) :
    Steady env (fun s => server.hits (tables s) .user username (some false)) fun _ _ => False where
  front xs s e s' henv hfront := by
    have hgrow := hinf.grows s e s' henv
    have hlisted {x : Nat × String} (hx : x ∈ xs) := Server.mem_hits_iff.mp (hfront.subset hx)
    refine Or.inl (prefix_of_sorted (server.hits_sorted _ _ _ _) (server.hits_sorted _ _ _ _) hfront ?_ ?_)
    · intro x hx
      obtain ⟨hmem, hfinds⟩ := hlisted hx
      obtain ⟨a, ha, hd, hn, hi⟩ := mem_listed_user.mp hmem
      exact Server.mem_hits_iff.mpr ⟨mem_listed_user.mpr ⟨a, hgrow.kept a ha, hd, hn, hi⟩, hfinds⟩
    · intro y hy
      obtain ⟨hmem, hfinds⟩ := Server.mem_hits_iff.mp hy
      obtain ⟨b, hb, hd, hn, hi⟩ := mem_listed_user.mp hmem
      rcases hgrow.later b hb with hold | hlater
      · exact Or.inl (Server.mem_hits_iff.mpr ⟨mem_listed_user.mpr ⟨b, hold, hd, hn, hi⟩, hfinds⟩)
      · refine Or.inr fun x hx => ?_
        obtain ⟨a, ha, _, _, hi'⟩ := mem_listed_user.mp (hlisted hx).1
        rw [← hi, ← hi']
        exact hlater a ha
  stays _ _ _ _ _ h := h
  more _ _ _ h := h

theorem first_of_idsNamed {s : Store} {id : Nat}
    (h : idsNamed (server.hits s .user username (some false)) username = [id]) : s.First username id := by
  have hmem (i : Nat) : i = id ↔ ∃ a ∈ s.accounts, a.isDeleted = false ∧ a.name = username ∧ a.id = i := by
    have hnamed : i ∈ idsNamed (server.hits s .user username (some false)) username ↔ _ := mem_idsNamed_hits
    rw [← mem_listed_user, ← hnamed, h, List.mem_singleton]
  exact ⟨(hmem id).mp rfl, fun a ha hd hn => ((hmem a.id).mpr ⟨a, ha, hd, hn, rfl⟩).ge⟩

theorem ensures_activeMatches (hinf : server.Informs tables answered env)
    (hanswered : ∀ q : SearchQuery, q.itemtype = .user → q.isDeleted = some false → answered (.search q) = true) :
    Ensures env s (searchAllPages config session (server.narrowed .user username (some false)) context) fun rows s' =>
      ∀ id, exactPositiveIds rows (server.idOption .user) (server.nameOption .user) username = .ok [id] →
        (tables s').First username id := by
  refine (ensures_searchAllPages hinf (fun _ _ => hanswered _ rfl rfl) (steady_users hinf)).mono ?_
  intro rows s' h id hid
  obtain ⟨ys, hrows, rfl | hgone⟩ := h
  · have hids : exactPositiveIds rows (server.idOption .user) (server.nameOption .user) username = _ :=
      exactIds_of_shows hrows (fun x hx => Or.inr ((tables s').listed_pos (Server.mem_hits hx) (by simp)))
        (server.hits_nodup _ _ _ _)
    rw [hid] at hids
    exact first_of_idsNamed (Except.ok.inj hids).symm
  · exact hgone.elim

/-- A lookup that finds an account finds the oldest one. -/
theorem ensures_resolveUserId (hinf : server.Informs tables answered env)
    (hanswered : ∀ q : SearchQuery, q.itemtype = .user → q.isDeleted = some false → answered (.search q) = true)
    {options : SearchOptions} (ho : OptionsOf server .user options) :
    Ensures env s (resolveUserId config session options username context) fun found s' =>
      ∀ id, found = some id → (tables s').First username id := by
  refine .bind (.lift fun idField hid => .bind (.lift fun nameField hname => ?_))
  cases hid.symm.trans ho.1
  cases hname.symm.trans ho.2
  refine .bind ((ensures_activeMatches hinf hanswered).mono fun active s₁ h₁ => ?_)
  refine .bind ((Ensures.invariant (P := fun s => ∀ id, exactPositiveIds active (server.idOption .user)
    (server.nameOption .user) username = .ok [id] → (tables s).First username id)
    (fun s e s' hP henv id hid => (hP id hid).grow (hinf.grows s e s' henv)) h₁ _).mono fun deleted s₂ h₂ => ?_)
  refine .bind (.lift fun activeIds hactive => .bind (.lift fun deletedIds _ => .lift fun found hselect => ?_))
  intro id hfound
  obtain ⟨_, rfl⟩ := selectUser_eq_ok.mp hselect
  exact h₂ id (by rw [hactive, hfound]; rfl)

theorem ensures_synchronizedUser (hinf : server.Informs tables answered env)
    (hanswered : ∀ q : SearchQuery, q.itemtype = .user → q.isDeleted = some false → answered (.search q) = true)
    {options : SearchOptions} (ho : OptionsOf server .user options) :
    Ensures env s (synchronizedUser config session options username context) fun user s' =>
      (tables s').First username user.1 := by
  refine .bind ((ensures_resolveUserId hinf hanswered ho).mono fun found s₁ h₁ => ?_)
  cases found with
  | some id => exact .pure (h₁ id rfl)
  | none =>
      refine .bind ((Ensures.any _).mono fun createdId s₂ _ => .bind ((ensures_resolveUserId hinf hanswered ho).mono
        fun resolved s₃ h₃ => ?_))
      refine .bind (.lift fun _ hresolved => .pure ?_)
      exact h₃ createdId (ensure_eq_ok.mp hresolved)

/-! ## References -/

theorem steady_of_eq {l : σ → List (Nat × String)} (h : ∀ s e s', env s e s' → l s' = l s) :
    Steady env l fun _ _ => False where
  front _ s e s' henv hfront := Or.inl (h s e s' henv ▸ hfront)
  stays _ _ _ _ _ h := h
  more _ _ _ h := h

/-- The tables of entities and profiles do not change. -/
def Fixed (tables : σ → Store) (env : σ → Event glpi → σ → Prop) : Prop :=
  ∀ s e s', env s e s' → (tables s').entities = (tables s).entities ∧ (tables s').profiles = (tables s).profiles

theorem ensures_resolveExactId (hinf : server.Informs tables answered env)
    (hanswered : ∀ q : SearchQuery, answered (.search q) = true) {itemtype : Itemtype} {selector : String}
    {allowZero : Bool} (hzero : allowZero = true ∨ itemtype ≠ .entity)
    (hfixed : ∀ s e s', env s e s' → (tables s').listed itemtype none = (tables s).listed itemtype none) :
    Ensures env s (resolveExactId config session itemtype (server.idOption itemtype) (server.nameOption itemtype)
      selector allowZero context) fun id s' => (id, selector) ∈ (tables s').listed itemtype none := by
  have hsteady : Steady env (fun s => server.hits (tables s) itemtype selector none) fun _ _ => False :=
    steady_of_eq fun s e s' henv => by simp only [Server.hits, hfixed s e s' henv]
  refine .bind ((ensures_searchAllPages hinf (fun _ _ => hanswered _) hsteady).mono fun rows s' h => ?_)
  obtain ⟨ys, hrows, rfl | hgone⟩ := h
  · refine .bind (.lift fun ids hids => .lift fun id hid => ?_)
    have hids' : exactIds rows (server.idOption itemtype) (server.nameOption itemtype) selector allowZero = _ :=
      exactIds_of_shows hrows (fun x hx => hzero.imp_right ((tables s').listed_pos (Server.mem_hits hx)))
        (server.hits_nodup _ _ _ _)
    cases hids.symm.trans hids'
    have hnamed : id ∈ idsNamed (server.hits (tables s') itemtype selector none) selector ↔ _ := mem_idsNamed_hits
    rw [← hnamed]
    revert hid
    cases idsNamed (server.hits (tables s') itemtype selector none) selector with
    | nil => rintro ⟨⟩
    | cons only rest =>
        cases rest with
        | nil =>
            rintro ⟨⟩
            exact List.mem_singleton_self _
        | cons => rintro ⟨⟩
  · exact hgone.elim

theorem mem_listed_items {items : List NamedItem} {id : Nat} {name : String} :
    (id, name) ∈ items.map (fun e => (e.id, e.name)) ↔ ⟨id, name⟩ ∈ items := by
  rw [List.mem_map]
  constructor
  · intro h
    obtain ⟨e, he, hp⟩ := h
    cases hp
    exact he
  · intro h
    exact ⟨_, h, rfl⟩

theorem ensures_resolveEntityId (hinf : server.Informs tables answered env)
    (hanswered : ∀ q : SearchQuery, answered (.search q) = true) (hfixed : Fixed tables env) {options : SearchOptions}
    (ho : OptionsOf server .entity options) (selector : String) :
    Ensures env s (resolveEntityId config session options selector context) fun id s' =>
      ⟨id, selector⟩ ∈ (tables s').entities := by
  refine .bind (.lift fun idField hid => .bind (.lift fun nameField hname => ?_))
  cases hid.symm.trans ho.1
  cases hname.symm.trans ho.2
  refine (ensures_resolveExactId hinf hanswered (Or.inl rfl) fun s e s' henv => ?_).mono fun id s' h =>
    mem_listed_items.mp h
  simp only [Store.listed, (hfixed s e s' henv).1]

theorem ensures_resolveProfileId (hinf : server.Informs tables answered env)
    (hanswered : ∀ q : SearchQuery, answered (.search q) = true) (hfixed : Fixed tables env) {options : SearchOptions}
    (ho : OptionsOf server .profile options) (selector : String) :
    Ensures env s (resolveProfileId config session options selector context) fun id s' =>
      ⟨id, selector⟩ ∈ (tables s').profiles := by
  refine .bind (.lift fun idField hid => .bind (.lift fun nameField hname => ?_))
  cases hid.symm.trans ho.1
  cases hname.symm.trans ho.2
  refine (ensures_resolveExactId hinf hanswered (Or.inr (by simp)) fun s e s' henv => ?_).mono fun id s' h =>
    mem_listed_items.mp h
  simp only [Store.listed, (hfixed s e s' henv).2]

theorem ensures_resolveOnce (items : Store → List NamedItem)
    (hfixed : ∀ s e s', env s e s' → items (tables s') = items (tables s)) {known : Std.TreeMap String Nat}
    {selector : String} {resolve : String → Io Nat} (hknown : KnownIn (items (tables s)) known)
    (hresolve : Ensures env s (resolve selector) fun id s' => ⟨id, selector⟩ ∈ items (tables s')) :
    Ensures env s (resolveOnce known selector resolve) fun out s' =>
      KnownIn (items (tables s')) out ∧ selector ∈ out ∧ ∀ x ∈ known, x ∈ out := by
  unfold resolveOnce
  split
  · rename_i hmem
    exact .pure ⟨hknown, hmem, fun _ => id⟩
  · have hkeep : Ensures env s (resolve selector) fun _ s' => KnownIn (items (tables s')) known :=
      .invariant (P := fun s => KnownIn (items (tables s)) known)
        (fun s e s' hP henv => hfixed s e s' henv ▸ hP) hknown _
    refine .bind ((hresolve.and hkeep).mono fun id s' h => .pure ⟨fun x i hx => ?_, by simp, by simp +contextual⟩)
    rw [Std.TreeMap.getElem?_insert] at hx
    split at hx
    · rename_i he
      cases Std.LawfulEqCmp.eq_of_compare he
      cases hx
      exact h.1
    · exact h.2 x i hx

theorem ResolvedBefore.congr {s s' : Store} {desired rest : List CanonicalAssignment} {resolved : Resolved}
    (h : ResolvedBefore s desired resolved rest) (he : s'.entities = s.entities) (hp : s'.profiles = s.profiles) :
    ResolvedBefore s' desired resolved rest :=
  ⟨he ▸ h.entities, hp ▸ h.profiles, h.pending, h.done⟩

theorem ensures_resolveAssignment (hinf : server.Informs tables answered env)
    (hanswered : ∀ q : SearchQuery, answered (.search q) = true) (hfixed : Fixed tables env)
    {entityOptions profileOptions : SearchOptions} (he : OptionsOf server .entity entityOptions)
    (hp : OptionsOf server .profile profileOptions) {desired rest : List CanonicalAssignment} {resolved : Resolved}
    {a : CanonicalAssignment} (h : ResolvedBefore (tables s) desired resolved (a :: rest)) :
    Ensures env s (resolveAssignment config session entityOptions profileOptions context resolved a) fun out s' =>
      ResolvedBefore (tables s') desired out rest := by
  have hkeepE {α : Type} (p : Io α) {s : σ} {known : Std.TreeMap String Nat} (hk : KnownIn (tables s).entities known) :
      Ensures env s p fun _ s' => KnownIn (tables s').entities known :=
    .invariant (P := fun s => KnownIn (tables s).entities known)
      (fun s e s' hP henv => (hfixed s e s' henv).1 ▸ hP) hk p
  have hkeepP {α : Type} (p : Io α) {s : σ} {known : Std.TreeMap String Nat} (hk : KnownIn (tables s).profiles known) :
      Ensures env s p fun _ s' => KnownIn (tables s').profiles known :=
    .invariant (P := fun s => KnownIn (tables s).profiles known)
      (fun s e s' hP henv => (hfixed s e s' henv).2 ▸ hP) hk p
  refine .bind (((hkeepE _ h.entities).and (hkeepP _ h.profiles)).mono fun _ s₁ h₁ => ?_)
  refine .bind (((ensures_resolveOnce Store.entities (fun s e s' henv => (hfixed s e s' henv).1) h₁.1
    (ensures_resolveEntityId hinf hanswered hfixed he a.entity)).and (hkeepP _ h₁.2)).mono fun entities s₂ h₂ => ?_)
  obtain ⟨⟨hknownE, hselE, hsubE⟩, hprofiles⟩ := h₂
  refine .bind (((hkeepE _ hknownE).and (hkeepP _ hprofiles)).mono fun _ s₃ h₃ => ?_)
  refine .bind (((ensures_resolveOnce Store.profiles (fun s e s' henv => (hfixed s e s' henv).2) h₃.2
    (ensures_resolveProfileId hinf hanswered hfixed hp a.profile)).and (hkeepE _ h₃.1)).mono fun profiles s₄ h₄ => ?_)
  obtain ⟨⟨hknownP, hselP, hsubP⟩, hentities⟩ := h₄
  refine .pure ⟨hentities, hknownP, fun x hx => h.pending x (List.mem_cons_of_mem _ hx), fun x hx => ?_⟩
  rcases h.done x hx with hmem | hdone
  · rcases List.mem_cons.mp hmem with rfl | hmem
    · exact Or.inr ⟨hselE, hselP⟩
    · exact Or.inl hmem
  · exact Or.inr ⟨hsubE _ hdone.1, hsubP _ hdone.2⟩

theorem ensures_resolveReferences (hinf : server.Informs tables answered env)
    (hoptions : ∀ itemtype, answered (.listSearchOptions itemtype) = true)
    (hanswered : ∀ q : SearchQuery, answered (.search q) = true) (hfixed : Fixed tables env)
    {desired : List CanonicalAssignment} :
    Ensures env s (resolveReferences config session desired context) fun references s' =>
      ReferencesOf server (tables s') desired references := by
  have huser {s : σ} : Ensures env s (userSearchOptions config session context) fun options _ =>
      OptionsOf server .user options.1 ∧ OptionsOf server .profileUser options.2 := by
    refine .bind ((ensures_resolveSearchOptions hinf .user (hoptions _)).mono fun userOptions s₁ hu => ?_)
    refine .bind ((ensures_resolveSearchOptions hinf .profileUser (hoptions _)).mono fun options s₂ hp => ?_)
    exact .pure ⟨hu, hp⟩
  have hnothing {s : Store} {rest : List CanonicalAssignment} (hrest : ∀ a ∈ rest, a ∈ desired)
      (hall : ∀ a ∈ desired, a ∈ rest) : ResolvedBefore s desired ⟨∅, ∅⟩ rest :=
    ⟨by simp [KnownIn], by simp [KnownIn], hrest, fun a ha => Or.inl (hall a ha)⟩
  unfold resolveReferences
  split
  · rename_i hnil
    exact .bind (huser.mono fun options s₁ h₁ => .pure ⟨hnothing (by simp) (by simp [hnil]), h₁.1, h₁.2⟩)
  · refine .bind ((ensures_resolveSearchOptions hinf .entity (hoptions _)).mono fun entityOptions s₁ he => ?_)
    refine .bind ((ensures_resolveSearchOptions hinf .profile (hoptions _)).mono fun profileOptions s₂ hp => ?_)
    refine .bind (huser.mono fun options s₃ hu => ?_)
    refine .bind (Ensures.mono (Ensures.foldlM (J := fun resolved rest s => ResolvedBefore (tables s) desired resolved
      rest) ?_ ?_) fun resolved s₄ h₄ => .pure ⟨h₄, hu.1, hu.2⟩)
    · intro resolved a rest s h
      exact ensures_resolveAssignment hinf hanswered hfixed he hp h
    · exact hnothing (fun _ => id) fun _ => id

theorem ensures_prepare (hinf : server.Informs tables answered env)
    (hoptions : ∀ itemtype, answered (.listSearchOptions itemtype) = true)
    (hanswered : ∀ q : SearchQuery, answered (.search q) = true) (hfixed : Fixed tables env)
    {desired : List CanonicalAssignment} :
    Ensures env s (prepare config session desired context) fun references s' =>
      ReferencesOf server (tables s') desired references :=
  .bind ((Ensures.any _).mono fun _ _ _ => .bind ((Ensures.any _).mono fun _ _ _ =>
    ensures_resolveReferences hinf hoptions hanswered hfixed))

end PermissionSync.Glpi
