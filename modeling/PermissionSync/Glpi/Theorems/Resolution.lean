import PermissionSync.Glpi.Lemmas.Lookups
import PermissionSync.Glpi.Theorems.Targets

/-!
# What the rows of a search resolve to

The resolutions read the rows in order and stop at the first malformed one. Whether they succeed, and with which id,
is nevertheless a property of the set of rows: it is said here without the loops.
-/

namespace PermissionSync.Glpi

open PermissionSync.Base PermissionSync.Wire

variable {idField nameField : Nat} {selector : String} {allowZero : Bool} {rows rows' : List Row}

/-! ## Rows -/

def Named (nameField : Nat) (rows : List Row) : Prop :=
  ∀ row ∈ rows, ∃ name, requiredStringField row nameField = .ok name

def ValidIds (idField nameField : Nat) (selector : String) (allowZero : Bool) (rows : List Row) : Prop :=
  ∀ row ∈ rows, row.Matches nameField selector → ∃ id, numericId row idField allowZero = some id

def NoMatch (nameField : Nat) (selector : String) (rows : List Row) : Prop :=
  ∀ row ∈ rows, ¬ row.Matches nameField selector

/-- There is an exact match, and every exact match has this id. -/
def OnlyId (idField nameField : Nat) (selector : String) (allowZero : Bool) (rows : List Row) (id : Nat) : Prop :=
  (∃ row ∈ rows, row.Matches nameField selector) ∧
    ∀ row ∈ rows, row.Matches nameField selector → numericId row idField allowZero = some id

/-- The rows differ in order, in repetitions and in rows that have another name. -/
inductive Alike (nameField : Nat) (selector : String) : List Row → List Row → Prop
  | reorder {rows rows' : List Row} (h : rows.Perm rows') : Alike nameField selector rows rows'
  | repeated {row : Row} {rows : List Row} (h : row ∈ rows) : Alike nameField selector rows (row :: rows)
  | other {row : Row} {rows : List Row} {name : String} (h : requiredStringField row nameField = .ok name)
      (hne : name ≠ selector) : Alike nameField selector rows (row :: rows)
  | symm {rows rows' : List Row} (h : Alike nameField selector rows rows') : Alike nameField selector rows' rows
  | trans {rows₁ rows₂ rows₃ : List Row} (h₁ : Alike nameField selector rows₁ rows₂)
      (h₂ : Alike nameField selector rows₂ rows₃) : Alike nameField selector rows₁ rows₃

/-- Only rows that have another name are in one of the lists alone. -/
theorem Alike.mem_iff (h : Alike nameField selector rows rows') {row : Row}
    (hrow : row.Matches nameField selector ∨ ∀ name, requiredStringField row nameField ≠ .ok name) :
    row ∈ rows ↔ row ∈ rows' := by
  induction h with
  | reorder h => exact h.mem_iff
  | repeated h =>
      rw [List.mem_cons]
      exact ⟨Or.inr, fun h' => h'.elim (fun he => he ▸ h) id⟩
  | other h hne =>
      rw [List.mem_cons]
      refine ⟨Or.inr, fun h' => h'.elim ?_ id⟩
      rintro rfl
      rcases hrow with hmatch | hunnamed
      · cases h.symm.trans hmatch
        exact absurd rfl hne
      · exact absurd h (hunnamed _)
  | symm _ ih => exact ih.symm
  | trans _ _ ih₁ ih₂ => exact ih₁.trans ih₂

theorem Alike.named (h : Alike nameField selector rows rows') (hn : Named nameField rows) : Named nameField rows' := by
  intro row hrow
  by_contra hno
  have hunnamed : ∀ name, requiredStringField row nameField ≠ .ok name := fun name he => hno ⟨name, he⟩
  exact hno (hn row ((h.mem_iff (Or.inr hunnamed)).mpr hrow))

theorem Alike.noMatch (h : Alike nameField selector rows rows') (hn : NoMatch nameField selector rows) :
    NoMatch nameField selector rows' :=
  fun row hrow hmatch => hn row ((h.mem_iff (Or.inl hmatch)).mpr hrow) hmatch

theorem Alike.validIds (h : Alike nameField selector rows rows')
    (hv : ValidIds idField nameField selector allowZero rows) :
    ValidIds idField nameField selector allowZero rows' :=
  fun row hrow hmatch => hv row ((h.mem_iff (Or.inl hmatch)).mpr hrow) hmatch

theorem Alike.onlyId {id : Nat} (h : Alike nameField selector rows rows')
    (ho : OnlyId idField nameField selector allowZero rows id) :
    OnlyId idField nameField selector allowZero rows' id := by
  obtain ⟨⟨row, hrow, hmatch⟩, hall⟩ := ho
  exact ⟨⟨row, (h.mem_iff (Or.inl hmatch)).mp hrow, hmatch⟩,
    fun row hrow hmatch => hall row ((h.mem_iff (Or.inl hmatch)).mpr hrow) hmatch⟩

/-! ## The collected ids -/

theorem exists_foldlM_exactId (hn : Named nameField rows) (hv : ValidIds idField nameField selector allowZero rows)
    (ids : List Nat) : ∃ out, rows.foldlM (exactId idField nameField selector allowZero) ids = .ok out := by
  induction rows generalizing ids with
  | nil => exact ⟨ids, rfl⟩
  | cons row rows ih =>
      have hrest := ih (fun r hr => hn r (List.mem_cons_of_mem _ hr)) fun r hr => hv r (List.mem_cons_of_mem _ hr)
      obtain ⟨name, hname⟩ := hn row List.mem_cons_self
      by_cases hsel : name = selector
      · obtain ⟨id, hid⟩ := hv row List.mem_cons_self (hsel ▸ hname)
        obtain ⟨out, hout⟩ := hrest (if id ∈ ids then ids else ids ++ [id])
        exact ⟨out, by simp [exactId, hname, hsel, hid, hout]⟩
      · obtain ⟨out, hout⟩ := hrest ids
        exact ⟨out, by simp [exactId, hname, hsel, hout]⟩

theorem exists_exactIds (hn : Named nameField rows) (hv : ValidIds idField nameField selector allowZero rows) :
    ∃ ids, exactIds rows idField nameField selector allowZero = .ok ids ∧
      ExactIds rows idField nameField selector allowZero ids := by
  obtain ⟨ids, hids⟩ := exists_foldlM_exactId hn hv []
  exact ⟨ids, hids, exactIds_eq_ok hids⟩

theorem ExactIds.nil_iff {ids : List Nat} (h : ExactIds rows idField nameField selector allowZero ids) :
    ids = [] ↔ NoMatch nameField selector rows := by
  rw [List.eq_nil_iff_forall_not_mem]
  constructor
  · intro hnone row hrow hmatch
    obtain ⟨id, hid⟩ := h.valid row hrow hmatch
    exact hnone id ((h.mem id).mpr ⟨row, hrow, hmatch, hid⟩)
  · intro hnone id hid
    obtain ⟨row, hrow, hmatch, _⟩ := (h.mem id).mp hid
    exact hnone row hrow hmatch

theorem ExactIds.singleton_iff {ids : List Nat} {id : Nat}
    (h : ExactIds rows idField nameField selector allowZero ids) :
    ids = [id] ↔ OnlyId idField nameField selector allowZero rows id := by
  constructor
  · rintro rfl
    have hid : id ∈ [id] := List.mem_singleton_self id
    obtain ⟨row, hrow, hmatch, _⟩ := (h.mem id).mp hid
    refine ⟨⟨row, hrow, hmatch⟩, fun r hr hm => ?_⟩
    obtain ⟨i, hi⟩ := h.valid r hr hm
    have : i ∈ [id] := (h.mem i).mpr ⟨r, hr, hm, hi⟩
    rwa [List.mem_singleton.mp this] at hi
  · rintro ⟨⟨row, hrow, hmatch⟩, hall⟩
    have hmem : id ∈ ids := (h.mem id).mpr ⟨row, hrow, hmatch, hall row hrow hmatch⟩
    have honly : ∀ i ∈ ids, i = id := by
      intro i hi
      obtain ⟨r, hr, hm, hri⟩ := (h.mem i).mp hi
      exact Option.some.inj (hri.symm.trans (hall r hr hm))
    exact (List.perm_singleton.mp ((List.perm_ext_iff_of_nodup h.nodup (List.nodup_singleton id)).mpr fun i => by
      rw [List.mem_singleton]
      exact ⟨honly i, fun he => he ▸ hmem⟩))

/-! ## One id -/

/-- What `resolve_exact_id` makes of the complete rows. -/
def exactMatch (rows : List Row) (idField nameField : Nat) (selector : String) (allowZero : Bool) :
    Except GlpiFailure Nat := do
  let ids ← exactIds rows idField nameField selector allowZero
  onlyMatch ids

theorem onlyMatch_eq_ok {ids : List Nat} {id : Nat} : onlyMatch ids = .ok id ↔ ids = [id] := by
  match ids with
  | [] => simp [onlyMatch]
  | [only] => simp [onlyMatch]
  | _ :: _ :: _ => simp [onlyMatch]

theorem exactMatch_eq_ok {id : Nat} : exactMatch rows idField nameField selector allowZero = .ok id ↔
    Named nameField rows ∧ ValidIds idField nameField selector allowZero rows ∧
      OnlyId idField nameField selector allowZero rows id := by
  rw [exactMatch, bind_eq_ok]
  constructor
  · rintro ⟨ids, hids, honly⟩
    have h := exactIds_eq_ok hids
    exact ⟨h.named, h.valid, h.singleton_iff.mp (onlyMatch_eq_ok.mp honly)⟩
  · rintro ⟨hn, hv, ho⟩
    obtain ⟨ids, hids, h⟩ := exists_exactIds hn hv
    exact ⟨ids, hids, onlyMatch_eq_ok.mpr (h.singleton_iff.mpr ho)⟩

theorem Alike.exactMatch_eq_ok {id : Nat} (h : Alike nameField selector rows rows')
    (hid : exactMatch rows idField nameField selector allowZero = .ok id) :
    exactMatch rows' idField nameField selector allowZero = .ok id := by
  obtain ⟨hn, hv, ho⟩ := PermissionSync.Glpi.exactMatch_eq_ok.mp hid
  exact PermissionSync.Glpi.exactMatch_eq_ok.mpr ⟨h.named hn, h.validIds hv, h.onlyId ho⟩

/-! ## A user -/

/-- What `resolve_user_id` makes of the complete rows. -/
def userMatch (active deleted : List Row) (idField nameField : Nat) (username : String) :
    Except GlpiFailure (Option Nat) := do
  let activeMatches ← exactPositiveIds active idField nameField username
  let deletedMatches ← exactPositiveIds deleted idField nameField username
  selectUser activeMatches deletedMatches

/-- The active rows show this user, or no user. -/
def ShowsUser (idField nameField : Nat) (username : String) (active : List Row) : Option Nat → Prop
  | none => NoMatch nameField username active
  | some id => OnlyId idField nameField username false active id

theorem ExactIds.toList_iff {active : List Row} {ids : List Nat} {found : Option Nat} {username : String}
    (h : ExactIds active idField nameField username false ids) :
    ids = found.toList ↔ ShowsUser idField nameField username active found := by
  cases found with
  | none => exact h.nil_iff
  | some id => exact h.singleton_iff

theorem userMatch_eq_ok {active deleted : List Row} {username : String} {found : Option Nat} :
    userMatch active deleted idField nameField username = .ok found ↔
      (Named nameField active ∧ ValidIds idField nameField username false active) ∧
      (Named nameField deleted ∧ ValidIds idField nameField username false deleted) ∧
      NoMatch nameField username deleted ∧ ShowsUser idField nameField username active found := by
  simp only [userMatch, bind_eq_ok, exactPositiveIds]
  constructor
  · rintro ⟨activeIds, hactive, deletedIds, hdeleted, hselect⟩
    have ha := exactIds_eq_ok hactive
    have hd := exactIds_eq_ok hdeleted
    obtain ⟨hnone, hfound⟩ := selectUser_eq_ok.mp hselect
    exact ⟨⟨ha.named, ha.valid⟩, ⟨hd.named, hd.valid⟩, hd.nil_iff.mp hnone, ha.toList_iff.mp hfound⟩
  · rintro ⟨⟨han, hav⟩, ⟨hdn, hdv⟩, hnone, hshows⟩
    obtain ⟨activeIds, hactive, ha⟩ := exists_exactIds han hav
    obtain ⟨deletedIds, hdeleted, hd⟩ := exists_exactIds hdn hdv
    exact ⟨activeIds, hactive, deletedIds, hdeleted,
      selectUser_eq_ok.mpr ⟨hd.nil_iff.mpr hnone, ha.toList_iff.mpr hshows⟩⟩

theorem Alike.userMatch_eq_ok {active active' deleted deleted' : List Row} {username : String} {found : Option Nat}
    (ha : Alike nameField username active active') (hd : Alike nameField username deleted deleted')
    (h : userMatch active deleted idField nameField username = .ok found) :
    userMatch active' deleted' idField nameField username = .ok found := by
  obtain ⟨⟨han, hav⟩, ⟨hdn, hdv⟩, hnone, hshows⟩ := PermissionSync.Glpi.userMatch_eq_ok.mp h
  refine PermissionSync.Glpi.userMatch_eq_ok.mpr
    ⟨⟨ha.named han, ha.validIds hav⟩, ⟨hd.named hdn, hd.validIds hdv⟩, hd.noMatch hnone, ?_⟩
  cases found with
  | none => exact ha.noMatch hshows
  | some id => exact ha.onlyId hshows

/-! ## Runs -/

section

variable {config : ValidatedConfig} {session : GlpiSession} {itemtype : Itemtype} {context : SynchronizationContext}

theorem run_resolveExactId_of_rows {t : Trace} {r : Except GlpiFailure Nat}
    (h : Run (searchAllPages config session (narrowing itemtype idField nameField selector none) context) t
      (.ok rows)) :
    Run (resolveExactId config session itemtype idField nameField selector allowZero context) t r ↔
      r = exactMatch rows idField nameField selector allowZero := by
  have hbind := h.bind_iff (f := fun rows => do
    let ids ← .lift (exactIds rows idField nameField selector allowZero)
    .lift (onlyMatch ids)) (u := []) (r := r)
  rw [List.append_nil] at hbind
  rw [resolveExactId, hbind, exactMatch]
  cases exactIds rows idField nameField selector allowZero with
  | error e => simp [run_lift_bind]
  | ok ids => simp [run_lift_bind]

theorem run_resolveUserId_of_rows {options : SearchOptions} {username : String} {active deleted : List Row}
    {t₁ t₂ : Trace} {r : Except GlpiFailure (Option Nat)} (hid : options.require "User.id" = .ok idField)
    (hname : options.require "User.name" = .ok nameField)
    (hactive : Run (searchAllPages config session (narrowing .user idField nameField username (some false)) context) t₁
      (.ok active))
    (hdeleted : Run (searchAllPages config session (narrowing .user idField nameField username (some true)) context) t₂
      (.ok deleted)) :
    Run (resolveUserId config session options username context) (t₁ ++ t₂) r ↔
      r = userMatch active deleted idField nameField username := by
  have hsecond := hdeleted.bind_iff (f := fun deletedRows => do
    let activeMatches ← .lift (exactPositiveIds active idField nameField username)
    let deletedMatches ← .lift (exactPositiveIds deletedRows idField nameField username)
    .lift (selectUser activeMatches deletedMatches)) (u := []) (r := r)
  rw [List.append_nil] at hsecond
  have hlift (x : Except GlpiFailure Nat) (y : Nat) (f : Nat → Io (Option Nat)) (hx : x = .ok y) :
      (Prog.lift x >>= f) = f y := by
    rw [hx]
    rfl
  rw [resolveUserId, hlift _ _ _ hid, hlift _ _ _ hname, hactive.bind_iff, hsecond, userMatch]
  cases exactPositiveIds active idField nameField username with
  | error e => simp [run_lift_bind]
  | ok activeIds =>
      cases exactPositiveIds deleted idField nameField username with
      | error e => simp [run_lift_bind]
      | ok deletedIds => simp [run_lift_bind]

/-- Complete searches of the accounts that are in use and of the deleted ones. -/
structure Searched (config : ValidatedConfig) (session : GlpiSession) (options : SearchOptions) (username : String)
    (context : SynchronizationContext) (idField nameField : Nat) (active deleted : List Row) (t : Trace) : Prop where
  id : options.require "User.id" = .ok idField
  name : options.require "User.name" = .ok nameField
  rows : ∃ t₁ t₂, t = t₁ ++ t₂ ∧
    Run (searchAllPages config session (narrowing .user idField nameField username (some false)) context) t₁
      (.ok active) ∧
    Run (searchAllPages config session (narrowing .user idField nameField username (some true)) context) t₂
      (.ok deleted)

theorem Searched.run_iff {options : SearchOptions} {username : String} {active deleted : List Row} {t : Trace}
    {r : Except GlpiFailure (Option Nat)}
    (h : Searched config session options username context idField nameField active deleted t) :
    Run (resolveUserId config session options username context) t r ↔
      r = userMatch active deleted idField nameField username := by
  obtain ⟨t₁, t₂, rfl, hactive, hdeleted⟩ := h.rows
  exact run_resolveUserId_of_rows h.id h.name hactive hdeleted

end

section

variable (config : ValidatedConfig) (session : GlpiSession) (context : SynchronizationContext)

/-- The resolutions of an id and of a user as properties of the complete rows. -/
theorem resolution_of_rows :
    (∀ itemtype idField nameField selector allowZero t rows,
      Run (searchAllPages config session (narrowing itemtype idField nameField selector none) context) t (.ok rows) →
      (∀ id, Run (resolveExactId config session itemtype idField nameField selector allowZero context) t (.ok id) ↔
        Named nameField rows ∧ ValidIds idField nameField selector allowZero rows ∧
          OnlyId idField nameField selector allowZero rows id) ∧
      ∀ t' rows', Alike nameField selector rows rows' →
        Run (searchAllPages config session (narrowing itemtype idField nameField selector none) context) t'
          (.ok rows') →
        ∀ id, Run (resolveExactId config session itemtype idField nameField selector allowZero context) t (.ok id) ↔
          Run (resolveExactId config session itemtype idField nameField selector allowZero context) t' (.ok id)) ∧
    ∀ options username idField nameField active deleted t,
      Searched config session options username context idField nameField active deleted t →
      (Named nameField active → Named nameField deleted → ValidIds idField nameField username false active →
        ValidIds idField nameField username false deleted →
        (Run (resolveUserId config session options username context) t (.ok none) ↔
          NoMatch nameField username active ∧ NoMatch nameField username deleted) ∧
        (∀ id, Run (resolveUserId config session options username context) t (.ok (some id)) ↔
          NoMatch nameField username deleted ∧ OnlyId idField nameField username false active id) ∧
        (¬ (NoMatch nameField username active ∧ NoMatch nameField username deleted) →
          (∀ id, ¬ (NoMatch nameField username deleted ∧ OnlyId idField nameField username false active id)) →
          ∃ e, Run (resolveUserId config session options username context) t (.error e))) ∧
      ∀ t' active' deleted', Alike nameField username active active' → Alike nameField username deleted deleted' →
        Searched config session options username context idField nameField active' deleted' t' →
        ∀ found, Run (resolveUserId config session options username context) t (.ok found) ↔
          Run (resolveUserId config session options username context) t' (.ok found) := by
  constructor
  · intro itemtype idField nameField selector allowZero t rows hrows
    refine ⟨fun id => ?_, fun t' rows' halike hrows' id => ?_⟩
    · rw [run_resolveExactId_of_rows hrows, eq_comm, exactMatch_eq_ok]
    · rw [run_resolveExactId_of_rows hrows, run_resolveExactId_of_rows hrows', eq_comm, eq_comm (a := Except.ok id)]
      exact ⟨halike.exactMatch_eq_ok, halike.symm.exactMatch_eq_ok⟩
  · intro options username idField nameField active deleted t hsearched
    refine ⟨fun han hdn hav hdv => ?_, fun t' active' deleted' ha hd hsearched' found => ?_⟩
    · have hfound (found : Option Nat) : userMatch active deleted idField nameField username = .ok found ↔
          NoMatch nameField username deleted ∧ ShowsUser idField nameField username active found := by
        rw [userMatch_eq_ok]
        simp [han, hdn, hav, hdv]
      simp only [hsearched.run_iff, eq_comm (b := userMatch active deleted idField nameField username), hfound]
      refine ⟨and_comm, fun id => Iff.rfl, fun hnone hsome => ?_⟩
      cases h : userMatch active deleted idField nameField username with
      | error e => exact ⟨e, rfl⟩
      | ok found =>
          cases found with
          | none => exact absurd ((hfound none).mp h).symm hnone
          | some id => exact absurd ((hfound (some id)).mp h) (hsome id)
    · rw [hsearched.run_iff, hsearched'.run_iff, eq_comm, eq_comm (a := Except.ok found)]
      exact ⟨ha.userMatch_eq_ok hd, ha.symm.userMatch_eq_ok hd.symm⟩

end

/-! ## Rows of other names -/

def shownRow (id : Nat) (name : String) : Row := ((∅ : Row).insert 2 (.nat id)).insert 1 (.str name)

def userOptions : SearchOptions := ⟨((∅ : Std.TreeMap String Nat).insert "User.id" 2).insert "User.name" 1⟩

theorem run_onePage {itemtype : Itemtype} {isDeleted : Option Bool} {l : List (Nat × String)}
    (h : pageTurn ⟨[], 0, none⟩ 49 (pageDocument 2 1 l 0 49) = .ok (.done rows)) :
    Run (searchAllPages sampleConfig ⟨"s"⟩ (narrowing itemtype 2 1 selector isDeleted) ⟨100⟩)
      (onePage itemtype selector isDeleted l) (.ok rows) :=
  run_searchLoop_ok.mpr ⟨49, 0, sampleHeaders, _, _, [], rfl, by decide, rfl, h,
    (List.append_nil _).symm, Or.inl ⟨rfl, rfl⟩⟩

theorem searched_lookupTrace {l : List (Nat × String)}
    (h : pageTurn ⟨[], 0, none⟩ 49 (pageDocument 2 1 l 0 49) = .ok (.done rows)) :
    Searched sampleConfig ⟨"s"⟩ userOptions "ada" ⟨100⟩ 2 1 rows [] (lookupTrace l) where
  id := rfl
  name := rfl
  rows := ⟨_, _, rfl, run_onePage h, run_onePage rfl⟩

/-- An account of another name makes no difference. -/
theorem sample_resolution :
    Run (resolveExactId sampleConfig ⟨"s"⟩ .entity 2 1 "A" true ⟨100⟩) (onePage .entity "A" none [(5, "A")]) (.ok 5) ∧
    Run (resolveUserId sampleConfig ⟨"s"⟩ userOptions "ada" ⟨100⟩) (lookupTrace [(7, "ada")]) (.ok (some 7)) ∧
    Run (resolveUserId sampleConfig ⟨"s"⟩ userOptions "ada" ⟨100⟩)
      (lookupTrace [(6, "bob"), (7, "ada")]) (.ok (some 7)) := by
  obtain ⟨hexact, huser⟩ := resolution_of_rows sampleConfig ⟨"s"⟩ ⟨100⟩
  have hnamed (id : Nat) (name : String) : Named 1 [shownRow id name] := List.forall_mem_singleton.mpr ⟨name, rfl⟩
  have honly (name : String) (allowZero : Bool) (id : Nat) (hid : numericId (shownRow id name) 2 allowZero = some id) :
      OnlyId 2 1 name allowZero [shownRow id name] id :=
    ⟨⟨_, List.mem_cons_self, rfl⟩, List.forall_mem_singleton.mpr fun _ => hid⟩
  have hentity :=
    ((hexact .entity 2 1 "A" true (onePage .entity "A" none [(5, "A")]) [shownRow 5 "A"] (run_onePage rfl)).1 5).mpr
    ⟨hnamed 5 "A", List.forall_mem_singleton.mpr fun _ => ⟨5, rfl⟩, honly "A" true 5 rfl⟩
  obtain ⟨hdecides, halike⟩ := huser userOptions "ada" 2 1 [shownRow 7 "ada"] [] (lookupTrace [(7, "ada")])
    (searched_lookupTrace rfl)
  have hfound := ((hdecides (hnamed 7 "ada") (by simp [Named]) (List.forall_mem_singleton.mpr fun _ => ⟨7, rfl⟩)
    (by simp [ValidIds])).2.1 7).mpr ⟨by simp [NoMatch], honly "ada" false 7 rfl⟩
  have hother : Alike 1 "ada" [shownRow 7 "ada"] [shownRow 6 "bob", shownRow 7 "ada"] :=
    .other rfl (by decide : "bob" ≠ "ada")
  exact ⟨hentity, hfound, (halike (lookupTrace [(6, "bob"), (7, "ada")]) _ [] hother (.reorder (.refl _))
    (searched_lookupTrace rfl) (some 7)).mp hfound⟩

end PermissionSync.Glpi
