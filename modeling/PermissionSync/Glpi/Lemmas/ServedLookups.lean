import PermissionSync.Glpi.Lemmas.Canonical
import PermissionSync.Glpi.Lemmas.Lookups
import PermissionSync.Glpi.Lemmas.Served

/-!
# References and users on a documented server
-/

namespace PermissionSync.Glpi

open PermissionSync.Base PermissionSync.Wire

variable {config : ValidatedConfig} {context : SynchronizationContext} {session : GlpiSession}
variable {server : Server} {s : Store} {hs : Headers}
variable {permissions : List RawPermission} {username : String}

/-! ## References -/

theorem onlyNamed_of_unique {items : List NamedItem} {name : String} (h : ∃! e, e ∈ items ∧ e.name = name) :
    ∃ id, OnlyNamed (items.map fun e => (e.id, e.name)) name id ∧ ⟨id, name⟩ ∈ items := by
  obtain ⟨e, ⟨he, rfl⟩, huniq⟩ := h
  refine ⟨e.id, fun i => ?_, he⟩
  rw [List.mem_map]
  constructor
  · intro hi
    obtain ⟨e', he', hp⟩ := hi
    simp only [Prod.mk.injEq] at hp
    rw [← hp.1, huniq e' ⟨he', hp.2⟩]
  · intro hi
    exact ⟨e, he, by rw [hi]⟩

/-- Every resolved selector has its id in the table. -/
def KnownIn (items : List NamedItem) (known : Std.TreeMap String Nat) : Prop :=
  ∀ selector id, known[selector]? = some id → ⟨id, selector⟩ ∈ items

theorem served_resolveOnce {items : List NamedItem} {known : Std.TreeMap String Nat} {selector : String}
    {resolve : String → Io Nat} (hknown : KnownIn items known)
    (hresolve : Served (server.step context.deadline) s (resolve selector)
      fun id s' => s' = s ∧ ⟨id, selector⟩ ∈ items) :
    Served (server.step context.deadline) s (resolveOnce known selector resolve) fun out s' =>
      s' = s ∧ KnownIn items out ∧ selector ∈ out ∧ ∀ x ∈ known, x ∈ out := by
  unfold resolveOnce
  split
  · rename_i hmem
    exact .pure ⟨rfl, hknown, hmem, fun _ => id⟩
  · refine .bind (hresolve.mono fun id s' h => .pure ⟨h.1, fun x i hx => ?_, by simp, by simp +contextual⟩)
    rw [Std.TreeMap.getElem?_insert] at hx
    split at hx
    · rename_i he
      cases Std.LawfulEqCmp.eq_of_compare he
      cases hx
      exact h.2
    · exact hknown x i hx

/-- What is resolved before the rest of the desired assignments. -/
structure ResolvedBefore (s : Store) (desired : List CanonicalAssignment) (resolved : Resolved)
    (rest : List CanonicalAssignment) : Prop where
  entities : KnownIn s.entities resolved.entities
  profiles : KnownIn s.profiles resolved.profiles
  pending : ∀ a ∈ rest, a ∈ desired
  done : ∀ a ∈ desired, a ∈ rest ∨ (a.entity ∈ resolved.entities ∧ a.profile ∈ resolved.profiles)

theorem exists_permission {a : CanonicalAssignment} (ha : a ∈ normalize permissions) :
    ∃ p ∈ permissions, p.entity = a.entity ∧ p.profile = a.profile := by
  obtain ⟨⟨p, hp, hpair⟩, _⟩ := mem_normalize.mp ha
  exact ⟨p, hp, by simpa [RawPermission.pair, CanonicalAssignment.pair] using hpair⟩

theorem served_resolveAssignment {entityOptions profileOptions : SearchOptions} {resolved : Resolved}
    {a : CanonicalAssignment} {rest : List CanonicalAssignment} (hh : sessionHeaders session config = .ok hs)
    (hsuits : s.Suits permissions username) (he : OptionsOf server .entity entityOptions)
    (hp : OptionsOf server .profile profileOptions)
    (h : ResolvedBefore s (normalize permissions) resolved (a :: rest)) :
    Served (server.step context.deadline) s
      (resolveAssignment config session entityOptions profileOptions context resolved a) fun out s' =>
        s' = s ∧ ResolvedBefore s (normalize permissions) out rest := by
  obtain ⟨p, hperm, hentity, hprofile⟩ := exists_permission (h.pending a List.mem_cons_self)
  obtain ⟨entityId, honlyE, hmemE⟩ := onlyNamed_of_unique (hentity ▸ hsuits.entities p hperm)
  obtain ⟨profileId, honlyP, hmemP⟩ := onlyNamed_of_unique (hprofile ▸ hsuits.profiles p hperm)
  refine .bind (served_checkContext.mono fun _ s₁ h₁ => ?_)
  subst h₁
  refine .bind ((served_resolveOnce h.entities ((served_resolveEntityId hh he honlyE).mono ?_)).mono ?_)
  · intro id s' hid
    exact ⟨hid.1, hid.2 ▸ hmemE⟩
  intro entities s₂ h₂
  obtain ⟨rfl, hknownE, hselE, hkeepE⟩ := h₂
  refine .bind (served_checkContext.mono fun _ s₃ h₃ => ?_)
  subst h₃
  refine .bind ((served_resolveOnce h.profiles ((served_resolveProfileId hh hp honlyP).mono ?_)).mono ?_)
  · intro id s' hid
    exact ⟨hid.1, hid.2 ▸ hmemP⟩
  intro profiles s₄ h₄
  obtain ⟨rfl, hknownP, hselP, hkeepP⟩ := h₄
  refine .pure ⟨rfl, hknownE, hknownP, fun x hx => h.pending x (List.mem_cons_of_mem _ hx), fun x hx => ?_⟩
  rcases h.done x hx with hmem | hdone
  · rcases List.mem_cons.mp hmem with rfl | hmem
    · exact Or.inr ⟨hselE, hselP⟩
    · exact Or.inl hmem
  · exact Or.inr ⟨hkeepE _ hdone.1, hkeepP _ hdone.2⟩

/-- What the references of a payload are on the store. -/
structure ReferencesOf (server : Server) (s : Store) (desired : List CanonicalAssignment) (references : References) :
    Prop where
  resolved : ResolvedBefore s desired references.resolved []
  userOptions : OptionsOf server .user references.userOptions
  profileUserOptions : OptionsOf server .profileUser references.profileUserOptions

theorem served_userSearchOptions (hh : sessionHeaders session config = .ok hs) :
    Served (server.step context.deadline) s (userSearchOptions config session context) fun options s' =>
      s' = s ∧ OptionsOf server .user options.1 ∧ OptionsOf server .profileUser options.2 := by
  refine .bind ((served_resolveSearchOptions .user hh).mono fun userOptions s₁ h₁ => ?_)
  obtain ⟨rfl, hu⟩ := h₁
  refine .bind ((served_resolveSearchOptions .profileUser hh).mono fun options s₂ h₂ => ?_)
  exact .pure ⟨h₂.1, hu, h₂.2⟩

theorem served_resolveReferences (hh : sessionHeaders session config = .ok hs) (hsuits : s.Suits permissions username) :
    Served (server.step context.deadline) s (resolveReferences config session (normalize permissions) context)
      fun references s' => s' = s ∧ ReferencesOf server s (normalize permissions) references := by
  unfold resolveReferences
  have hnothing (rest : List CanonicalAssignment) (hrest : ∀ a ∈ rest, a ∈ normalize permissions)
      (hall : ∀ a ∈ normalize permissions, a ∈ rest) :
      ResolvedBefore s (normalize permissions) ⟨∅, ∅⟩ rest :=
    ⟨by simp [KnownIn], by simp [KnownIn], hrest, fun a ha => Or.inl (hall a ha)⟩
  split
  · rename_i hnil
    refine .bind ((served_userSearchOptions hh).mono fun options s₁ h₁ => ?_)
    obtain ⟨rfl, hu, hpu⟩ := h₁
    exact .pure ⟨rfl, hnothing [] (by simp) (by simp [hnil]), hu, hpu⟩
  · refine .bind ((served_resolveSearchOptions .entity hh).mono fun entityOptions s₁ h₁ => ?_)
    obtain ⟨rfl, he⟩ := h₁
    refine .bind ((served_resolveSearchOptions .profile hh).mono fun profileOptions s₂ h₂ => ?_)
    obtain ⟨rfl, hp⟩ := h₂
    refine .bind ((served_userSearchOptions hh).mono fun options s₃ h₃ => ?_)
    obtain ⟨rfl, hu, hpu⟩ := h₃
    refine .bind (Served.mono (Served.foldlM (J := fun resolved rest s' =>
      s' = s₃ ∧ ResolvedBefore s₃ (normalize permissions) resolved rest) ?_ ?_) fun resolved s₄ h₄ => ?_)
    · intro resolved a rest s' h
      obtain ⟨rfl, hbefore⟩ := h
      exact served_resolveAssignment hh hsuits he hp hbefore
    · exact ⟨rfl, hnothing _ (fun _ => id) fun _ => id⟩
    · exact .pure ⟨h₄.1, h₄.2, hu, hpu⟩

theorem served_prepare (hh : sessionHeaders session config = .ok hs) (hsuits : s.Suits permissions username) :
    Served (server.step context.deadline) s (prepare config session (normalize permissions) context)
      fun references s' => s' = s ∧ ReferencesOf server s (normalize permissions) references := by
  refine .bind (Served.mono (Q := fun _ s' => s' = s) (served_timed hh ?_) fun _ s₁ h₁ => ?_)
  · intro response s' h
    exact ⟨(), readTrue_of h.2, h.1⟩
  subst h₁
  refine .bind (Served.mono (Q := fun _ s' => s' = s₁) (served_timed hh ?_) fun _ s₂ h₂ => ?_)
  · intro response s' h
    exact ⟨(), readVisibility_of h.2, h.1⟩
  subst h₂
  exact served_resolveReferences hh hsuits

/-- The resolved payload. -/
theorem resolveDesired_of {references : References} (h : ReferencesOf server s (normalize permissions) references) :
    ∃ resolved, resolveDesired references.resolved (normalize permissions) = .ok resolved ∧
      List.Forall₂ (ResolvesTo s) (normalize permissions) resolved := by
  have hall : ∀ a ∈ normalize permissions, ∃ d, ResolvesTo s a d ∧
      (do
        let entitiesId ← okOr references.resolved.entities[a.entity]? GlpiFailure.missingReference
        let profilesId ← okOr references.resolved.profiles[a.profile]? GlpiFailure.missingReference
        return ({ entitiesId := entitiesId, profilesId := profilesId, recursive := a.recursive } :
          DesiredAssignment)) = .ok d := by
    intro a ha
    rcases h.resolved.done a ha with hnil | ⟨he, hp⟩
    · cases hnil
    · obtain ⟨e, he⟩ := getElem?_of_mem he
      obtain ⟨p, hp⟩ := getElem?_of_mem hp
      refine ⟨⟨e, p, a.recursive⟩, ⟨h.resolved.entities _ _ he, h.resolved.profiles _ _ hp, rfl⟩, ?_⟩
      simp [he, hp]
  rw [resolveDesired]
  generalize normalize permissions = desired at hall
  induction desired with
  | nil => exact ⟨[], rfl, .nil⟩
  | cons a rest ih =>
      obtain ⟨d, hd, hok⟩ := hall a List.mem_cons_self
      obtain ⟨ds, hds, hrest⟩ := ih fun x hx => hall x (List.mem_cons_of_mem _ hx)
      exact ⟨d :: ds, by rw [List.mapM_cons, hok, ok_bind, hds]; rfl, .cons hd hrest⟩

/-! ## The user -/

/-- An account of the store has the username and the id. -/
def Store.HasAccount (s : Store) (username : String) (id : Nat) : Prop :=
  ∃ a ∈ s.accounts, a.name = username ∧ a.id = id

theorem mem_listed_user {isDeleted : Bool} {i : Nat} :
    (i, username) ∈ s.listed .user (some isDeleted) ↔
      ∃ a ∈ s.accounts, a.isDeleted = isDeleted ∧ a.name = username ∧ a.id = i := by
  simp only [Store.listed, List.mem_map, List.mem_filter, Option.getD_some, decide_eq_true_eq, Prod.mk.injEq]
  constructor
  · intro h
    obtain ⟨a, ⟨ha, hd⟩, hi, hn⟩ := h
    exact ⟨a, ha, hd, hn, hi⟩
  · intro h
    obtain ⟨a, ha, hd, hn, hi⟩ := h
    exact ⟨a, ⟨ha, hd⟩, hi, hn⟩

theorem eq_toList_of_subsingleton {l : List Nat} (hnodup : l.Nodup) (h : ∀ i ∈ l, ∀ j ∈ l, i = j) :
    ∃ found : Option Nat, l = found.toList := by
  match l with
  | [] => exact ⟨none, rfl⟩
  | [i] => exact ⟨some i, rfl⟩
  | i :: j :: l =>
      have hij := h i List.mem_cons_self j (by simp)
      simp [hij] at hnodup

/-- A lookup of the username finds its account, if there is one. -/
theorem served_resolveUserId {options : SearchOptions} (hh : sessionHeaders session config = .ok hs)
    (ho : OptionsOf server .user options) (hsuits : s.Suits permissions username) :
    Served (server.step context.deadline) s (resolveUserId config session options username context)
      fun found s' => s' = s ∧ ∀ i, found = some i ↔ s.HasAccount username i := by
  refine .bind (.lift ho.1 (.bind (.lift ho.2 (.bind ?_))))
  refine (served_exactIds false hh (Or.inr (by simp))).mono fun active s₁ h₁ => ?_
  obtain ⟨rfl, hactive⟩ := h₁
  refine .bind ((served_exactIds false hh (Or.inr (by simp))).mono fun deleted s₂ h₂ => ?_)
  obtain ⟨rfl, hdeleted⟩ := h₂
  have hmem (i : Nat) : i ∈ idsNamed (server.hits s₂ .user username (some false)) username ↔
      s₂.HasAccount username i := by
    rw [mem_idsNamed_hits, mem_listed_user]
    constructor
    · intro h
      obtain ⟨a, ha, _, hn, hi⟩ := h
      exact ⟨a, ha, hn, hi⟩
    · intro h
      obtain ⟨a, ha, hn, hi⟩ := h
      exact ⟨a, ha, hsuits.active a ha hn, hn, hi⟩
  have hnone : idsNamed (server.hits s₂ .user username (some true)) username = [] := by
    rw [List.eq_nil_iff_forall_not_mem]
    intro i hi
    obtain ⟨a, ha, hd, hn, _⟩ := mem_listed_user.mp (mem_idsNamed_hits.mp hi)
    rw [hsuits.active a ha hn] at hd
    cases hd
  obtain ⟨found, hfound⟩ := eq_toList_of_subsingleton
    (idsNamed_nodup username (server.hits_nodup s₂ .user username (some false))) (by
      intro i hi j hj
      obtain ⟨a, ha, hn, rfl⟩ := (hmem i).mp hi
      obtain ⟨b, hb, hn', rfl⟩ := (hmem j).mp hj
      rw [hsuits.account a ha b hb hn hn'])
  refine .bind (.lift hactive (.bind (.lift hdeleted (.lift (a := found) ?_ ⟨rfl, fun i => ?_⟩))))
  · exact selectUser_eq_ok.mpr ⟨hnone, hfound⟩
  · rw [← hmem, hfound]
    simp

theorem Store.AddsAccount.suits {s' : Store} {id : Nat} (h : s.AddsAccount id username s')
    (hsuits : s.Suits permissions username) (hnone : ∀ a ∈ s.accounts, a.name ≠ username) :
    s'.Suits permissions username where
  entities p hp := by simpa [h.entities] using hsuits.entities p hp
  profiles p hp := by simpa [h.profiles] using hsuits.profiles p hp
  account a ha b hb hn hn' := by
    rcases (h.accounts a).mp ha with ha | rfl
    · exact absurd hn (hnone a ha)
    · rcases (h.accounts b).mp hb with hb | rfl
      · exact absurd hn' (hnone b hb)
      · rfl
  active a ha hn := by
    rcases (h.accounts a).mp ha with ha | rfl
    · exact absurd hn (hnone a ha)
    · rfl

/-- What the synchronized user is, and what its creation changed. -/
structure UserOf (s : Store) (permissions : List RawPermission) (username : String) (userId created : Nat)
    (s' : Store) : Prop where
  suits : s'.Suits permissions username
  account : s'.HasAccount username userId
  entities : s'.entities = s.entities
  profiles : s'.profiles = s.profiles
  others : ∀ a, a.usersId ≠ userId → (a ∈ s'.assignments ↔ a ∈ s.assignments)
  existed : (created = 0 ∧ s' = s) ∨ (created = 1 ∧ ∀ a ∈ s.accounts, a.name ≠ username)

theorem served_createUser {options : SearchOptions} (hh : sessionHeaders session config = .ok hs)
    (ho : OptionsOf server .user options) (hsuits : s.Suits permissions username)
    (hnone : ∀ a ∈ s.accounts, a.name ≠ username) :
    Served (server.step context.deadline) s (createUserAndResolveOutcome config session options username context)
      fun user s' => UserOf s permissions username user.1 user.2 s' := by
  refine .bind (Served.mono (Q := fun id s' => s.AddsAccount id username s') (served_timed hh ?_) fun id s₁ h₁ => ?_)
  · intro response s' hanswer
    obtain ⟨id, hdoc, hadds⟩ := hanswer hnone
    have hkey := s'.accountKeys.2 id (List.mem_map.mpr ⟨_, (hadds.accounts _).mpr (Or.inr rfl), rfl⟩)
    exact ⟨id, readCreatedUser_of hdoc hkey, hadds⟩
  have hsuits' := h₁.suits hsuits hnone
  have haccount : s₁.HasAccount username id := ⟨_, (h₁.accounts _).mpr (Or.inr rfl), rfl, rfl⟩
  refine .bind ((served_resolveUserId hh ho hsuits').mono fun found s₂ h₂ => ?_)
  obtain ⟨rfl, hfound⟩ := h₂
  refine .bind (.lift (ensure_of ((hfound id).mpr haccount) _) (.pure ?_))
  exact ⟨hsuits', haccount, h₁.entities, h₁.profiles, h₁.assignments, Or.inr ⟨rfl, hnone⟩⟩

theorem served_synchronizedUser {options : SearchOptions} (hh : sessionHeaders session config = .ok hs)
    (ho : OptionsOf server .user options) (hsuits : s.Suits permissions username) :
    Served (server.step context.deadline) s (synchronizedUser config session options username context)
      fun user s' => UserOf s permissions username user.1 user.2 s' := by
  refine .bind ((served_resolveUserId hh ho hsuits).mono fun found s₁ h₁ => ?_)
  obtain ⟨rfl, hfound⟩ := h₁
  cases found with
  | some id => exact .pure ⟨hsuits, (hfound id).mp rfl, rfl, rfl, fun _ _ => Iff.rfl, Or.inl ⟨rfl, rfl⟩⟩
  | none =>
      refine served_createUser hh ho hsuits fun a ha hn => ?_
      have := (hfound a.id).mpr ⟨a, ha, hn, rfl⟩
      cases this

end PermissionSync.Glpi
