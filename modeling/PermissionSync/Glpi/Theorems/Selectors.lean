import PermissionSync.Glpi.Server.Reference
import PermissionSync.Glpi.Theorems.Pagination
import PermissionSync.Glpi.Theorems.Resolution
import PermissionSync.Glpi.Theorems.Targets

/-!
# Selectors and the ids they resolve to

`plan.rs` takes the pairs of the desired assignments to be unique because the selectors of the payload are. Each
selector is resolved by a search of its own, so this is so exactly as far as the answers to different selectors keep
them apart.
-/

namespace PermissionSync.Glpi

open PermissionSync.Base PermissionSync.Wire

variable {config : ValidatedConfig} {session : GlpiSession} {context : SynchronizationContext}
variable {request : AdapterRequest} {itemtype : Itemtype} {idField nameField : Nat} {selector : String}

/-! ## What the answers show -/

/-- The id of a row of a page, if its name is the selector. -/
def rowId (q : SearchQuery) (selector : String) (j : Json) : Option Nat := do
  let row ← (parseRow j).toOption
  let name ← (requiredStringField row q.criterionField).toOption
  if name = selector then numericId row q.sort true else none

/-- The ids of the exact matches on a page that was answered to a search for the selector. -/
def shownIds (itemtype : Itemtype) (selector : String) (e : Event glpi) : List Nat :=
  match sent e, answered e with
  | some (.search q), some response =>
      if q.itemtype = itemtype ∧ q.criterionValue = exactSearchQueryValue selector then
        match parseSearchPage response.body q.rangeStart q.rangeEnd with
        | .ok page => page.data.filterMap (rowId q selector)
        | .error _ => []
      else []
  | _, _ => []

/-- The ids of the exact matches that the trace shows for the selector. -/
def shown (itemtype : Itemtype) (selector : String) (t : Trace) : List Nat := t.flatMap (shownIds itemtype selector)

@[simp] theorem shown_append (t₁ t₂ : Trace) :
    shown itemtype selector (t₁ ++ t₂) = shown itemtype selector t₁ ++ shown itemtype selector t₂ :=
  List.flatMap_append

theorem rowId_of_matches {q : SearchQuery} {j : Json} {row : Row} {id : Nat} (hrow : parseRow j = .ok row)
    (hmatch : row.Matches q.criterionField selector) (hid : numericId row q.sort true = some id) :
    rowId q selector j = some id := by
  have hname : requiredStringField row q.criterionField = .ok selector := hmatch
  simp [rowId, hrow, hname, hid, Except.toOption]

theorem exists_of_mem_mapM {data : List Json} {new : List Row} (h : data.mapM parseRow = .ok new) {row : Row}
    (hrow : row ∈ new) : ∃ j ∈ data, parseRow j = .ok row := by
  induction data generalizing new with
  | nil =>
      cases h
      cases hrow
  | cons j data ih =>
      simp only [List.mapM_cons, bind_eq_ok, pure_eq_ok, Except.ok.injEq] at h
      obtain ⟨first, hfirst, rest, hrest, rfl⟩ := h
      rcases List.mem_cons.mp hrow with rfl | hrow
      · exact ⟨j, List.mem_cons_self, hfirst⟩
      · obtain ⟨j', hj', hread⟩ := ih hrest hrow
        exact ⟨j', List.mem_cons_of_mem _ hj', hread⟩

/-- Every exact match that a search returns was shown by one of its pages. -/
theorem searchLoop_shown {state : SearchState} {t : Trace} {rows : List Row} (hconsistent : Consistent state)
    (h : Run (searchLoop config session (narrowing itemtype idField nameField selector none) context state) t
      (.ok rows)) {row : Row} (hrow : row ∈ rows) (hmatch : row.Matches nameField selector) {id : Nat}
    (hid : numericId row idField true = some id) : row ∈ state.rows ∨ id ∈ shown itemtype selector t := by
  induction state using SearchState.later_induction generalizing t with
  | step state ih =>
      obtain ⟨stop, n, hs, response, turn, t', hstop, _, _, hturn, rfl, hend⟩ := run_searchLoop_ok.mp h
      obtain ⟨page, new, hturned⟩ := hconsistent.turned hstop hturn
      have hpage (hnew : row ∈ new) : id ∈ shown itemtype selector (callTrace config context
          (.search ((narrowing itemtype idField nameField selector none).query state.start stop)) hs n
          (.ok response) ++ t') := by
        obtain ⟨j, hj, hread⟩ := exists_of_mem_mapM hturned.rows hnew
        rw [shown_append]
        refine List.mem_append_left _ (List.mem_flatMap.mpr ⟨_, exchanged_mem_callTrace _ _ _ _, ?_⟩)
        have hparsed : parseSearchPage response.body state.start stop = .ok page := hturned.parsed
        have hshown := List.mem_filterMap.mpr ⟨j, hj, rowId_of_matches
          (q := (narrowing itemtype idField nameField selector none).query state.start stop) hread hmatch hid⟩
        simpa [shownIds, answered, exchanged, sent, Except.toOption, SearchSpec.query, narrowing, hparsed] using hshown
      rcases hturned.next with ⟨rfl, _⟩ | ⟨rfl, hrows, hnext⟩
      · rcases hend with ⟨hdone, rfl⟩ | ⟨next, hmore, _⟩
        · cases hdone
          exact (List.mem_append.mp hrow).imp_right hpage
        · cases hmore
      · rcases hend with ⟨hdone, _⟩ | ⟨next, hmore, hrun⟩
        · cases hdone
        · cases hmore
          obtain ⟨hlater, hlt⟩ := start_lt_of_more hturn
          rcases ih _ hlater hlt ⟨hrows, by simpa using hnext⟩ hrun with hold | hshown
          · exact (List.mem_append.mp hold).imp_right hpage
          · rw [shown_append]
            exact Or.inr (List.mem_append_right _ hshown)

theorem numericId_allowZero {row : Row} {allowZero : Bool} {id : Nat}
    (h : numericId row idField allowZero = some id) : numericId row idField true = some id :=
  Option.filter_eq_some_iff.mpr ⟨(Option.filter_eq_some_iff.mp h).1, rfl⟩

theorem resolveExactId_shown {allowZero : Bool} {t : Trace} {id : Nat}
    (h : Run (resolveExactId config session itemtype idField nameField selector allowZero context) t (.ok id)) :
    id ∈ shown itemtype selector t := by
  obtain ⟨rows, t₁, t₂, rfl, hsearch, hrest⟩ := run_bind_ok.mp h
  have hmatch : exactMatch rows idField nameField selector allowZero = .ok id := by
    rcases run_lift_bind.mp hrest with ⟨_, _, _, hr⟩ | ⟨ids, hids, hlift⟩
    · cases hr
    · rw [exactMatch, hids, ok_bind]
      exact (run_lift.mp hlift).2.symm
  obtain ⟨_, _, ⟨row, hrow, hname⟩, hall⟩ := exactMatch_eq_ok.mp hmatch
  rw [shown_append]
  rcases searchLoop_shown consistent_init hsearch hrow hname (numericId_allowZero (hall row hrow hname)) with
    hnone | hshown
  · cases hnone
  · exact List.mem_append_left _ hshown

theorem shown_of_occurs {p : Io Nat} {id : Nat} {h : Trace} (ho : Occurs p id h)
    (hp : ∀ t, Run p t (.ok id) → id ∈ shown itemtype selector t) : id ∈ shown itemtype selector h := by
  obtain ⟨t₁, t₂, t₃, rfl, hr⟩ := ho
  simp [hp t₂ hr]

theorem resolveEntityId_shown {options : SearchOptions} {t : Trace} {id : Nat}
    (h : Run (resolveEntityId config session options selector context) t (.ok id)) :
    id ∈ shown .entity selector t := by
  rcases run_lift_bind.mp h with ⟨_, _, _, hr⟩ | ⟨_, _, h₁⟩
  · cases hr
  · rcases run_lift_bind.mp h₁ with ⟨_, _, _, hr⟩ | ⟨_, _, h₂⟩
    · cases hr
    · exact resolveExactId_shown h₂

theorem resolveProfileId_shown {options : SearchOptions} {t : Trace} {id : Nat}
    (h : Run (resolveProfileId config session options selector context) t (.ok id)) :
    id ∈ shown .profile selector t := by
  rcases run_lift_bind.mp h with ⟨_, _, _, hr⟩ | ⟨_, _, h₁⟩
  · cases hr
  · rcases run_lift_bind.mp h₁ with ⟨_, _, _, hr⟩ | ⟨_, _, h₂⟩
    · cases hr
    · exact resolveExactId_shown h₂

/-! ## Distinct pairs -/

/-- For two assignments of the payload with different selectors, the answers show no common entity or no common
profile. -/
def KeepsApart (payload : Text) (t : Trace) : Prop :=
  ∀ desired, parseAndNormalize payload = .ok desired → ∀ a ∈ desired, ∀ b ∈ desired, a.pair ≠ b.pair →
    (shown .entity a.entity t).Disjoint (shown .entity b.entity t) ∨
      (shown .profile a.profile t).Disjoint (shown .profile b.profile t)

/-- The resolution of an assignment whose selectors are known. -/
def Resolved.assignment (resolved : Resolved) (a : CanonicalAssignment) : DesiredAssignment :=
  ⟨resolved.entities[a.entity]?.getD 0, resolved.profiles[a.profile]?.getD 0, a.recursive⟩

theorem eq_map_of_resolveDesired {resolved : Resolved} {desired : List CanonicalAssignment}
    {desiredResolved : List DesiredAssignment} (h : resolveDesired resolved desired = .ok desiredResolved)
    (hentities : ∀ a ∈ desired, ∃ id, resolved.entities[a.entity]? = some id)
    (hprofiles : ∀ a ∈ desired, ∃ id, resolved.profiles[a.profile]? = some id) :
    desiredResolved = desired.map resolved.assignment := by
  have hall := mapM_eq_ok (l := desired) (g := resolved.assignment) (f := fun assignment => (do
    let entitiesId ← okOr resolved.entities[assignment.entity]? .missingReference
    let profilesId ← okOr resolved.profiles[assignment.profile]? .missingReference
    return { entitiesId := entitiesId, profilesId := profilesId, recursive := assignment.recursive } :
      Except GlpiFailure DesiredAssignment)) fun a ha => by
    obtain ⟨entity, hentity⟩ := hentities a ha
    obtain ⟨profile, hprofile⟩ := hprofiles a ha
    simp [hentity, hprofile, Resolved.assignment]
  exact Except.ok.inj (h.symm.trans hall)

theorem plan_pairs_nodup {t : Trace} {p : Planned} (h : Run (Glpi.plan config request) t (.ok p))
    (hapart : KeepsApart request.payload t) : (p.desiredResolved.map DesiredAssignment.pair).Nodup := by
  obtain ⟨tA, tI, tP, tU, tR, hrun, ht⟩ := run_plan_ok.mp h
  have hpre := (prerequisites_of_run hrun.accepted hrun.began hrun.prepared).append (tU ++ tR)
  rw [← List.append_assoc, ← ht] at hpre
  obtain ⟨permissions, _, _, hnormal⟩ := parseAndNormalize_eq_ok.mp hpre.payload
  have hkeys : (p.desired.map CanonicalAssignment.pair).Nodup := hnormal ▸ normalize_nodup permissions
  have hentities (a : CanonicalAssignment) (ha : a ∈ p.desired) : ∃ id,
      p.references.resolved.entities[a.entity]? = some id ∧ id ∈ shown .entity a.entity t := by
    obtain ⟨_, id, _, hoccurs, hknown⟩ := hpre.entities a ha
    exact ⟨id, hknown, shown_of_occurs hoccurs fun _ => resolveEntityId_shown⟩
  have hprofiles (a : CanonicalAssignment) (ha : a ∈ p.desired) : ∃ id,
      p.references.resolved.profiles[a.profile]? = some id ∧ id ∈ shown .profile a.profile t := by
    obtain ⟨_, id, _, hoccurs, hknown⟩ := hpre.profiles a ha
    exact ⟨id, hknown, shown_of_occurs hoccurs fun _ => resolveProfileId_shown⟩
  rw [eq_map_of_resolveDesired hrun.resolved (fun a ha => (hentities a ha).imp fun _ h => h.1)
    (fun a ha => (hprofiles a ha).imp fun _ h => h.1), List.map_map]
  refine (List.Nodup.of_map _ hkeys).map_on fun a ha b hb hab => ?_
  by_contra hne
  have hpair : a.pair ≠ b.pair := fun he => hne (List.inj_on_of_nodup_map hkeys ha hb he)
  obtain ⟨entity, hentity, hshown⟩ := hentities a ha
  obtain ⟨entity', hentity', hshown'⟩ := hentities b hb
  obtain ⟨profile, hprofile, hpshown⟩ := hprofiles a ha
  obtain ⟨profile', hprofile', hpshown'⟩ := hprofiles b hb
  simp only [Function.comp_apply, DesiredAssignment.pair, Resolved.assignment, hentity, hentity', hprofile, hprofile',
    Option.getD_some, toLex_inj, Prod.mk.injEq] at hab
  obtain ⟨rfl, rfl⟩ := hab
  rcases hapart p.desired hpre.payload a ha b hb hpair with hdisjoint | hdisjoint
  · exact hdisjoint hshown hshown'
  · exact hdisjoint hpshown hpshown'

theorem KeepsApart.of_append {payload : Text} {t₁ t₂ : Trace} (h : KeepsApart payload (t₁ ++ t₂)) :
    KeepsApart payload t₁ := by
  intro desired hparse a ha b hb hne
  simp only [KeepsApart, shown_append] at h
  refine (h desired hparse a ha b hb hne).imp ?_ ?_
  · exact fun hdisjoint => List.disjoint_of_disjoint_append_left_left
      (List.disjoint_of_disjoint_append_right_left hdisjoint)
  · exact fun hdisjoint => List.disjoint_of_disjoint_append_left_left
      (List.disjoint_of_disjoint_append_right_left hdisjoint)

/-- The owner and the pair of a created row. -/
def createdPair (c : Nat × Addition) : Nat × Pair := (c.1, c.2.pair)

/-- Where the answers keep the selectors of the payload apart, the planned pairs are distinct, and no row is created
twice. -/
theorem reconcile_creates_once {t : Trace} {r : Except GlpiFailure ReconciliationOutcome}
    (h : Run (reconcile config request) t r) (hapart : KeepsApart request.payload t) :
    (∀ p t₁ t₂, t = t₁ ++ t₂ → Run (Glpi.plan config request) t₁ (.ok p) →
      (p.desiredResolved.map DesiredAssignment.pair).Nodup) ∧ ((creations t).map createdPair).Nodup := by
  constructor
  · rintro p t₁ t₂ rfl hplan
    exact plan_pairs_nodup hplan hapart.of_append
  · obtain ⟨t₁, t₂, outcome, rfl, hp, hend⟩ := run_reconcile h
    have hclean : creations t₂ = [] := by
      rcases hend with ⟨rfl, _⟩ | ⟨session, _, hc⟩
      · rfl
      · exact (cleanup_untouching hc).2
    rw [creations_append, hclean, List.append_nil]
    rw [primary_eq] at hp
    rcases run_bind.mp hp with ⟨e, hplan, _⟩ | ⟨p, t₃, t₄, rfl, hplan, hexec⟩
    · rw [(plan_untouching hplan).2]
      exact List.nodup_nil
    · rw [creations_append, (plan_untouching hplan).2, List.nil_append]
      have hpairs := plan_pairs_nodup hplan (KeepsApart.of_append hapart.of_append)
      obtain ⟨tA, tI, tP, tU, tR, hrun, rfl⟩ := run_plan_ok.mp hplan
      have hlt := additions_lt (reading_of_run hrun.read).nodup hpairs
      have hadditions : ((p.plan.additions.map fun a => (p.userId, a)).map createdPair).Nodup := by
        rw [List.map_map, List.Nodup, List.pairwise_map]
        exact hlt.imp fun hab he => hab.ne (Prod.mk.inj he).2
      exact hadditions.sublist ((execute_part hexec).2.sublist.map _)

/-! ## Two entities of a payload -/

/-- Both rows are created, and the request is cancelled before the verification. -/
def pairMutations (second : Nat) : Trace :=
  replied (.postProfileUser 7 3 5 false) ⟨201, ⟨[], some (.obj [("id", .nat 11), ("message", .str "")])⟩⟩ ++
    replied (.postProfileUser 7 3 second false) ⟨201, ⟨[], some (.obj [("id", .nat 12), ("message", .str "")])⟩⟩ ++
    [polled true, polled true]

theorem pair_runs (second : Nat)
    (h : ((reconcile sampleConfig pairRequest).follow (pairPlanTrace second [] ++ pairMutations second)).isSome =
      true) :
    ∃ r, Run (reconcile sampleConfig pairRequest) (pairPlanTrace second [] ++ pairMutations second) r := by
  obtain ⟨r, hr⟩ := Option.isSome_iff_exists.mp h
  exact ⟨r, run_of_follow hr⟩

theorem distinct_entities_created_once : ∃ t r, Run (reconcile sampleConfig pairRequest) t r ∧
    KeepsApart pairRequest.payload t ∧ creations t = [(7, ⟨5, 3, false⟩), (7, ⟨6, 3, false⟩)] ∧
    ((creations t).map createdPair).Nodup := by
  obtain ⟨r, hr⟩ := pair_runs 6 (by decide +kernel)
  have hapart : KeepsApart pairRequest.payload (pairPlanTrace 6 [] ++ pairMutations 6) := by
    intro desired hdesired a ha b hb hne
    cases hdesired.symm.trans (show _ = Except.ok [⟨"A", "P", false⟩, ⟨"B", "P", false⟩] from rfl)
    have hentities : (shown .entity "A" (pairPlanTrace 6 [] ++ pairMutations 6)).Disjoint
        (shown .entity "B" (pairPlanTrace 6 [] ++ pairMutations 6)) := List.disjoint_left.mpr (by decide +kernel)
    simp only [List.mem_cons, List.not_mem_nil, or_false] at ha hb
    rcases ha with rfl | rfl <;> rcases hb with rfl | rfl
    · exact absurd rfl hne
    · exact Or.inl hentities
    · exact Or.inl hentities.symm
    · exact absurd rfl hne
  exact ⟨_, r, hr, hapart, rfl, (reconcile_creates_once hr hapart).2⟩

/-- Entity 5 is renamed between the searches for the two selectors, so it answers both: the plan has its pair twice,
and the row is created twice. -/
theorem renamed_entity_created_twice : ∃ t₁ t₂ r p, Run (reconcile sampleConfig pairRequest) (t₁ ++ t₂) r ∧
    Run (Glpi.plan sampleConfig pairRequest) t₁ (.ok p) ∧
    p.desiredResolved = [⟨5, 3, false⟩, ⟨5, 3, false⟩] ∧ ¬ (p.desiredResolved.map DesiredAssignment.pair).Nodup ∧
    creations (t₁ ++ t₂) = [(7, ⟨5, 3, false⟩), (7, ⟨5, 3, false⟩)] ∧
    ¬ ((creations (t₁ ++ t₂)).map createdPair).Nodup := by
  obtain ⟨r, hr⟩ := pair_runs 5 (by decide +kernel)
  have hplan : ((Glpi.plan sampleConfig pairRequest).follow (pairPlanTrace 5 [])).bind
      (fun r => r.toOption.map Planned.desiredResolved) = some [⟨5, 3, false⟩, ⟨5, 3, false⟩] := by decide +kernel
  obtain ⟨planned, hfollow, hresolved⟩ := Option.bind_eq_some_iff.mp hplan
  cases planned with
  | error e => cases hresolved
  | ok p =>
      have hp : p.desiredResolved = [⟨5, 3, false⟩, ⟨5, 3, false⟩] := Option.some.inj hresolved
      exact ⟨_, _, r, p, hr, run_of_follow hfollow, hp, by rw [hp]; decide, rfl, by decide⟩

end PermissionSync.Glpi
