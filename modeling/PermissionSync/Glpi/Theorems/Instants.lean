import PermissionSync.Glpi.Lemmas.SharedReads
import PermissionSync.Glpi.Theorems.Convergence

/-!
# What a successful reconciliation has seen

The final read of a reconciliation consists of several requests, and others change the assignments between them. Its
pages are taken at different instants: a row that moves in front of a page between two of them is not shown.
-/

namespace PermissionSync.Glpi

open PermissionSync.Base PermissionSync.Wire

variable {config : ValidatedConfig} {request : AdapterRequest} {server : Server}

/-- The parts of a reconciliation around its final read: the plan and its application before it, the end of the session
after it. -/
structure FinalRead (config : ValidatedConfig) (request : AdapterRequest) (p : Planned) (before read after : Trace) :
    Prop where
  before : ∃ tPlan tApply, before = tPlan ++ tApply ∧ Run (Glpi.plan config request) tPlan (.ok p)
  read : ∃ verified, Run (p.read config request) read (.ok verified) ∧ isCanonical verified p.desiredResolved = true
  after : ∀ r ∈ requests after, r = .killSession

theorem exists_finalRead {t : Trace} {outcome : ReconciliationOutcome}
    (h : Run (reconcile config request) t (.ok outcome)) :
    ∃ p before read after, t = before ++ read ++ after ∧ FinalRead config request p before read after := by
  obtain ⟨t₁, t₂, result, rfl, hp, hkill, hok⟩ := run_reconcile_end h
  rw [hok outcome rfl] at hp
  obtain ⟨p, tPlan, tApply, tRead, verified, rfl, hplan, hread, hcan, _, _⟩ := primary_success hp
  exact ⟨p, tPlan ++ tApply, tRead, t₂, rfl, ⟨_, _, rfl, hplan⟩, ⟨verified, hread, hcan⟩, sends_iff.mp hkill⟩

/-- The rows of the user are those that the payload asks for. -/
theorem PlannedIn.canonical {p : Planned} {s : Store} {rows : List CurrentRow} (h : PlannedIn server request p s)
    (hrows : RowsOf s p.userId rows) (hcan : isCanonical rows p.desiredResolved = true) :
    ∃ permissions, request.payload.json.bind decodePayload = some permissions ∧ s.Canonical permissions p.userId := by
  obtain ⟨permissions, hjson, _, hdesired⟩ := parseAndNormalize_eq_ok.mp h.payload
  have hreferences := h.references
  have hresolved := h.resolved
  rw [hdesired] at hreferences hresolved
  obtain ⟨resolved, hresolved', hall⟩ := resolveDesired_of hreferences
  cases hresolved.symm.trans hresolved'
  have hpairs := resolved_nodup hall (normalize_nodup permissions)
  exact ⟨permissions, hjson, canonical_of_rows hrows hall ((isCanonical_iff hrows.nodup hpairs).mp hcan)⟩

/-- Every successful reconciliation has a final read: the pages of a search, and then the rows that it showed. Whatever
others did before it and do after the last page, if between its pages they delete no row that the search lists for
another user, then at the instant of the last page the user has exactly the rows that the payload asks for. -/
theorem reconcile_canonical_at_an_instant {t : Trace} {outcome : ReconciliationOutcome}
    (hrun : Run (reconcile config request) t (.ok outcome)) :
    ∃ p before idField nameField rows earlier call answer items after,
      t = before ++ (earlier ++ [exchanged call answer] ++ items) ++ after ∧
      FinalRead config request p before (earlier ++ [exchanged call answer] ++ items) after ∧
      Run (searchAllPages config p.session (narrowing .profileUser idField nameField request.username none)
        request.context)
        (earlier ++ [exchanged call answer]) (.ok rows) ∧
      ∀ (server : Server) (s s₁ m s₂ : Shared), Path server.among s before s₁ →
        Path (server.amongRetaining request.username) s₁ (earlier ++ [exchanged call answer]) m →
        Path server.among m items s₂ →
        ∃ permissions, request.payload.json.bind decodePayload = some permissions ∧
          m.store.HasAccount request.username p.userId ∧ m.store.Canonical permissions p.userId := by
  obtain ⟨p, before, read, after, rfl, hfinal⟩ := exists_finalRead hrun
  obtain ⟨verified, hverified, hcan⟩ := hfinal.read
  obtain ⟨idField, nameField, rows, ids, pages, items, hid, hname, rfl, hsearch, hids, hitems⟩ :=
    run_readCurrentAssignments_ok.mp hverified
  obtain ⟨earlier, call, answer, rfl⟩ := searchLoop_ends hsearch
  refine ⟨p, before, idField, nameField, rows, earlier, call, answer, items, after, rfl, hfinal, hsearch, ?_⟩
  intro server s s₁ m s₂ hbefore hpages hrest
  obtain ⟨tPlan, tApply, rfl, hplan⟩ := hfinal.before
  obtain ⟨s₀, h₀, happly⟩ := path_append.mp hbefore
  have hplanned := (ensures_plan tPlan p s₀ hplan h₀).evolve (evolves_of_path happly)
  have hrows := instant_of_read hplanned.options hplanned.account hid hname hsearch hids hitems hpages hrest
  have hplanned' := hplanned.evolve (evolves_of_path (hpages.mono fun _ _ _ h => h.1))
  obtain ⟨permissions, hpayload, hcanonical⟩ := hplanned'.canonical hrows hcan
  exact ⟨permissions, hpayload, hplanned'.account, hcanonical⟩

/-! ## A read that nobody disturbs -/

/-- A documented step is one of a server that others may use too. -/
theorem among_of_step {deadline : Instant} {s s' : Shared} {e : Event glpi} (hevolves : s.Evolves s')
    (h : server.step deadline s.store e s'.store) : server.among s e s' := by
  refine ⟨hevolves, ?_⟩
  obtain ⟨o, x⟩ := e
  cases o with
  | isCancelled => trivial
  | now => trivial
  | request call =>
      intro response hanswer hreads
      obtain ⟨response', hanswer', hdoc⟩ := h
      cases hanswer.symm.trans hanswer'
      cases hrequest : call.request with
      | listSearchOptions itemtype =>
          rw [hrequest] at hdoc
          exact ⟨rfl, hdoc.2⟩
      | search q =>
          rw [hrequest] at hdoc
          exact ⟨rfl, hdoc.1 ▸ hdoc.2⟩
      | getProfileUser id =>
          rw [hrequest] at hdoc
          exact ⟨rfl, hdoc.1 ▸ hdoc.2⟩
      | _ => simp [hrequest, Request.readsTables] at hreads

/-- Documented steps retain the rows if they are all of the user and nothing can be granted. -/
theorem path_amongRetaining {deadline : Instant} {s s' : Store} {t : Trace} (username : String) (n : Nat)
    (h : Path (server.Serves deadline) s t s') (hprofiles : s.profiles = [])
    (hnames : ∀ a ∈ s.accounts, a.name = username) (hn : ∀ a ∈ s.assignments, a.id < n) :
    ∃ hn', Path (server.amongRetaining username) ⟨s, n, hn⟩ t ⟨s', n, hn'⟩ := by
  induction h with
  | nil => exact ⟨hn, .nil⟩
  | @cons s s₁ s' e t hstep _ ih =>
      have hrows : ∀ a ∈ s₁.assignments, a ∈ s.assignments := by
        intro a ha
        refine (hstep.granted a ha).resolve_right ?_
        rintro ⟨p, hp, _⟩
        rw [hprofiles] at hp
        cases hp
      have hn₁ : ∀ a ∈ s₁.assignments, a.id < n := fun a ha => hn a (hrows a ha)
      have hgrow : s.AccountsGrow s₁ :=
        ⟨fun a ha => hstep.accounts ▸ ha, fun a ha => Or.inl (hstep.accounts ▸ ha)⟩
      have hevolves : Shared.Evolves ⟨s, n, hn⟩ ⟨s₁, n, hn₁⟩ :=
        ⟨hstep.entities, hstep.profiles, hgrow, le_rfl, fun a ha => Or.inl (hrows a ha)⟩
      obtain ⟨hn', hrest⟩ := ih (hstep.profiles.trans hprofiles) (hstep.accounts ▸ hnames) hn₁
      refine ⟨hn', path_cons.mpr ⟨⟨s₁, n, hn₁⟩, ⟨among_of_step hevolves hstep.step, fun a ha _ hother => ?_⟩, hrest⟩⟩
      obtain ⟨owner, howner, hid⟩ := s.owned a ha
      exact absurd ((Store.ownerName_eq howner hid).trans (hnames owner howner)) hother

theorem sample_canonical_at_an_instant : ∃ t p before pages items after s s₁ m s₂,
    Run (reconcile sampleConfig sampleRequest) t (.ok .changed) ∧ t = before ++ (pages ++ items) ++ after ∧
      FinalRead sampleConfig sampleRequest p before (pages ++ items) after ∧ Path sampleServer.among s before s₁ ∧
      Path (sampleServer.amongRetaining "ada") s₁ pages m ∧ Path sampleServer.among m items s₂ ∧
      m.store.Canonical [] p.userId := by
  obtain ⟨t, s', hrun, hpath⟩ := sample_changed
  obtain ⟨p, before, _, _, _, earlier, call, answer, items, after, rfl, hfinal, _, hall⟩ :=
    reconcile_canonical_at_an_instant hrun
  obtain ⟨_, hshared⟩ := path_amongRetaining "ada" 6 hpath rfl (by simp [sampleStore]) (by simp [sampleStore])
  have hamong {a b : Shared} {t : Trace} (h : Path (sampleServer.amongRetaining "ada") a t b) :
      Path sampleServer.among a t b := h.mono fun _ _ _ h => h.1
  obtain ⟨s₂, h, _⟩ := path_append.mp hshared
  obtain ⟨s₁, hbefore, hread⟩ := path_append.mp h
  obtain ⟨m, hpages, hitems⟩ := path_append.mp hread
  obtain ⟨permissions, hpayload, _, hcanonical⟩ :=
    hall sampleServer _ s₁ m s₂ (hamong hbefore) hpages (hamong hitems)
  cases hpayload.symm.trans (show sampleRequest.payload.json.bind decodePayload = some [] from rfl)
  exact ⟨_, p, before, _, items, after, _, s₁, m, s₂, hrun, rfl, hfinal, hamong hbefore, hpages,
    hamong hitems, hcanonical⟩

/-! ## A read that misses a row -/

/-- Without a deletion and a creation nothing changes. -/
theorem path_still {deadline : Instant} {s s' : Store} {t : Trace} (username : String) {n : Nat}
    (h : Path (server.Serves deadline) s t s') (hdel : deletions t = []) (hcre : creations t = [])
    (hn : ∀ a ∈ s.assignments, a.id < n) :
    s' = s ∧ Path (server.amongRetaining username) ⟨s, n, hn⟩ t ⟨s, n, hn⟩ := by
  induction h with
  | nil => exact ⟨rfl, .nil⟩
  | @cons s s₁ s' e t hstep _ ih =>
      rw [← List.singleton_append, deletions_append] at hdel
      rw [← List.singleton_append, creations_append] at hcre
      obtain ⟨hdel₁, hdel₂⟩ := List.append_eq_nil_iff.mp hdel
      obtain ⟨hcre₁, hcre₂⟩ := List.append_eq_nil_iff.mp hcre
      obtain rfl := hstep.still hdel₁ hcre₁
      obtain ⟨hsame, hpath⟩ := ih hdel₂ hcre₂ hn
      exact ⟨hsame, .cons ⟨among_of_step (.refl _) hstep.step, fun a ha _ _ => ha⟩ hpath⟩

/-- Row 51 is of the user, every other row of somebody else. -/
def crowdRow (i : Nat) : Assignment := ⟨i, if i = 51 then 7 else 8, 1, 0, false⟩

def crowdName (i : Nat) : String := if i = 51 then "ada" else "bob"

/-- Two accounts, and consecutive rows. -/
def crowdStore (start count : Nat) (h : 0 < start ∧ start + count ≤ keyBound) : Store where
  entities := []
  profiles := []
  accounts := [⟨7, "ada", false⟩, ⟨8, "bob", false⟩]
  assignments := (List.range' start count).map crowdRow
  entityKeys := entityKeys_nil
  profileKeys := keys_nil
  accountKeys := keys_seven_eight
  assignmentKeys := by
    have hids : ((List.range' start count).map crowdRow).map Assignment.id = List.range' start count := by
      simp [crowdRow, Function.comp_def]
    rw [hids]
    refine ⟨List.nodup_range', fun i hi => ?_⟩
    rw [List.mem_range'_1] at hi
    omega
  owned a ha := by
    obtain ⟨i, _, rfl⟩ := List.mem_map.mp ha
    by_cases hi : i = 51 <;> simp [crowdRow, hi]
  granted a ha := by
    obtain ⟨i, _, rfl⟩ := List.mem_map.mp ha
    simp [crowdRow, keyBound]

def crowd (start count : Nat) (h : 0 < start ∧ start + count ≤ keyBound) : Shared where
  store := crowdStore start count h
  issued := start + count
  below a ha := by
    obtain ⟨i, hi, rfl⟩ := List.mem_map.mp ha
    exact (List.mem_range'_1.mp hi).2

/-- Rows are deleted from the front and inserted at the end. -/
theorem crowd_evolves {a n b k : Nat} (ha : 0 < a ∧ a + n ≤ keyBound) (hb : 0 < b ∧ b + k ≤ keyBound) (hab : a ≤ b)
    (hend : a + n ≤ b + k) : (crowd a n ha).Evolves (crowd b k hb) := by
  refine ⟨rfl, rfl, ⟨fun _ => id, fun _ => Or.inl⟩, hend, fun x hx => ?_⟩
  obtain ⟨i, hi, rfl⟩ := List.mem_map.mp hx
  rw [List.mem_range'_1] at hi
  rcases Nat.lt_or_ge i (a + n) with hlt | hge
  · exact Or.inl (List.mem_map_of_mem (List.mem_range'_1.mpr ⟨hab.trans hi.1, hlt⟩))
  · exact Or.inr hge

theorem ownerName_crowdRow (start count : Nat) (h : 0 < start ∧ start + count ≤ keyBound) (i : Nat) :
    (crowdStore start count h).ownerName (crowdRow i) = crowdName i := by
  by_cases hi : i = 51 <;> simp [Store.ownerName, crowdStore, crowdRow, crowdName, hi]

def crowdList (start count : Nat) : List (Nat × String) := (List.range' start count).map fun i => (i, crowdName i)

theorem hits_crowd (start count : Nat) (h : 0 < start ∧ start + count ≤ keyBound) :
    sampleServer.hits (crowdStore start count h) .profileUser "ada" none = crowdList start count := by
  refine eq_of_sorted_of_mem_iff Prod.fst (sampleServer.hits_sorted _ _ _ _) ?_ fun x => ?_
  · rw [crowdList, List.pairwise_map]
    exact List.pairwise_lt_range'
  · rw [mem_hits_rows]
    simp only [crowdStore, List.mem_map, crowdList]
    constructor
    · intro hx
      obtain ⟨_, ⟨i, hi, rfl⟩, rfl, _⟩ := hx
      exact ⟨i, hi, by rw [← ownerName_crowdRow start count h i]; rfl⟩
    · intro hx
      obtain ⟨i, hi, rfl⟩ := hx
      exact ⟨_, ⟨i, hi, rfl⟩, by rw [← ownerName_crowdRow start count h i]; rfl, rfl⟩

/-- Before the disturbance the other user has fifty rows. -/
def crowdBefore : Shared := crowd 1 50 (by decide)

theorem convergent_crowdBefore : Convergent sampleRequest [] crowdBefore.store where
  deadline := by decide
  version := rfl
  payload := rfl
  named := by simp
  suits := ⟨by simp, by simp, by simp [crowdBefore, crowd, crowdStore, sampleRequest],
    by simp [crowdBefore, crowd, crowdStore]⟩
  account := by simp [crowdBefore, crowd, crowdStore, sampleRequest]
  room := by decide

/-- The user gets a row that the payload does not ask for. -/
def crowdStale : Shared := crowd 1 51 (by decide)

/-- Between two pages the first row of the other user is deleted, and a new one inserted. -/
def crowdShifted : Shared := crowd 2 51 (by decide)

theorem crowd_account {a : Account} (ha : a ∈ crowdBefore.store.accounts) (hname : a.name = "ada") : a.id = 7 := by
  simp only [crowdBefore, crowd, crowdStore, List.mem_cons, List.not_mem_nil, or_false] at ha
  rcases ha with rfl | rfl
  · rfl
  · exact absurd hname (by decide)

theorem crowd_rows (row : CurrentRow) : row.assignment 7 ∉ crowdBefore.store.assignments := by
  intro h
  obtain ⟨i, hi, hrow⟩ := List.mem_map.mp h
  have howner : (crowdRow i).usersId = 7 := by
    rw [hrow]
    rfl
  rw [List.mem_range'_1] at hi
  have hne : i ≠ 51 := by omega
  simp [crowdRow, hne] at howner

/-- A reconciliation with an empty payload plans nothing. -/
theorem crowd_plan : ∃ t p hs, Run (Glpi.plan sampleConfig sampleRequest) t (.ok p) ∧
    Path sampleServer.among crowdBefore t crowdBefore ∧ p.userId = 7 ∧ p.current = [] ∧ p.desiredResolved = [] ∧
    OptionsOf sampleServer .profileUser p.references.profileUserOptions ∧
    sessionHeaders p.session sampleConfig = .ok hs := by
  obtain ⟨t, outcome, s', hrun, hpath, _⟩ := convergent_crowdBefore.runs
  obtain ⟨p, before, read, after, rfl, hfinal⟩ := exists_finalRead hrun
  obtain ⟨tPlan, tApply, rfl, hplan⟩ := hfinal.before
  obtain ⟨s₂, h, _⟩ := path_append.mp hpath
  obtain ⟨s₁, h, _⟩ := path_append.mp h
  obtain ⟨s₀, hserved, _⟩ := path_append.mp h
  obtain ⟨hdel, hcre⟩ := plan_untouching hplan
  have hstill := (path_still "ada" hserved hdel hcre crowdBefore.below).2
  have hamong := hstill.mono fun _ _ _ h => h.1
  have hplanned := ensures_plan tPlan p crowdBefore hplan hamong
  have huser : p.userId = 7 := by
    obtain ⟨a, ha, hname, hid⟩ := hplanned.account
    exact hid.symm.trans (crowd_account ha hname)
  obtain ⟨tA, tI, tP, tU, tR, hp, rfl⟩ := run_plan_ok.mp hplan
  obtain ⟨_, _, _, _, hdesired⟩ := run_acceptRequest_ok.mp hp.accepted
  have hnil : p.desired = [] := Except.ok.inj (hdesired.symm.trans (show _ = Except.ok [] from rfl))
  have hresolved := hp.resolved
  rw [hnil] at hresolved
  have hread := hp.read
  obtain ⟨_, _, _, _, t₁, t₂, hid, hname, rfl, hsearch, hids, hitems⟩ := run_readCurrentAssignments_ok.mp hread
  obtain ⟨_, _, hs, _, _, _, _, _, hh, _⟩ := run_searchLoop_ok.mp hsearch
  refine ⟨_, p, hs, hplan, hamong, huser, ?_, (Except.ok.inj hresolved).symm, hplanned.options, hh⟩
  -- The rows of the first read are those of the user at an instant at which there are only rows of somebody else.
  obtain ⟨m₀, hbefore, hr⟩ := path_append.mp hstill
  have hto {a b : Shared} {t : Trace} (h : Path (sampleServer.amongRetaining "ada") a t b) : a.Evolves b :=
    evolves_of_path (h.mono fun _ _ _ h => h.1)
  obtain ⟨m, h₁, h₂⟩ := path_append.mp hr
  have hrows :=
    instant_of_read hplanned.options ((hto hbefore).accounts.hasAccount hplanned.account) hid hname hsearch hids
    hitems h₁ (h₂.mono fun _ _ _ h => h.1)
  rw [List.eq_nil_iff_forall_not_mem]
  intro row hrow
  have hmem := (hrows.mem row).mp hrow
  have hold : row.assignment p.userId ∈ crowdBefore.store.assignments := by
    rcases ((hto hbefore).trans (hto h₁)).rows _ hmem with hold | hle
    · exact hold
    · exact absurd ((m.below _ hmem).trans_le (hto h₂).issued) (not_lt.mpr hle)
  rw [huser] at hold
  exact crowd_rows row hold

/-- What the loop makes of a documented page of fifty-one rows. -/
theorem crowd_turn (start : Nat) (hstart : start ≤ 2) {state : SearchState} {stop : Nat} {response : RawResponse}
    (hpage : PageOf 2 1 (crowdList start 51) state.start stop response) (hin : state.start = 0 ∨ state.start < 51)
    (hstop : state.start ≤ stop) (hrows : state.rows.length = state.start)
    (htotal : ∀ expected ∈ state.expectedTotal, expected = 51) :
    ∃ new, List.Forall₂ (Shows 2 1) (slice (crowdList start 51) state.start stop) new ∧
      pageTurn state stop response = .ok
        (if state.start + min (stop + 1 - state.start) (51 - state.start) = 51 then .done (state.rows ++ new)
         else .more ⟨state.rows ++ new, state.start + min (stop + 1 - state.start) (51 - state.start), some 51⟩) := by
  have hlen : (crowdList start 51).length = 51 := by simp [crowdList]
  have hbound : 53 < u64Bound := by decide
  have hids : ∀ x ∈ crowdList start 51, x.1 < u64Bound := by
    intro x hx
    obtain ⟨i, hi, rfl⟩ := List.mem_map.mp hx
    rw [List.mem_range'_1] at hi
    exact lt_of_lt_of_le (b := 53) (by omega) hbound.le
  have := pageTurn_of hpage (by rwa [hlen]) hstop (by omega) (fun x hx _ hrow => parseRow_of hrow (hids x hx)) hrows
    (by rwa [hlen])
  rwa [length_slice, hlen] at this

/-- Both pages are documented pages of the rows of their instants, and the row of the user is on neither. -/
theorem crowd_read {session : GlpiSession} {options : SearchOptions} {hs : Headers}
    (ho : OptionsOf sampleServer .profileUser options) (hh : sessionHeaders session sampleConfig = .ok hs) :
    ∃ t, Run (readCurrentAssignments sampleConfig session options "ada" 7 ⟨100⟩) t (.ok []) ∧
      Path sampleServer.among crowdStale t crowdShifted := by
  have hpage (l : List (Nat × String)) (start stop : Nat) : PageOf 2 1 l start stop (pageDocument 2 1 l start stop) :=
    pageOf_pageDocument (by decide) (by decide) (by decide) l start stop
  have hfirst : PageOf 2 1 (crowdList 1 51) (SearchState.mk [] 0 none).start 49 _ := hpage (crowdList 1 51) 0 49
  obtain ⟨new₁, hshows₁, hturn₁⟩ := crowd_turn 1 (by decide) hfirst (Or.inl rfl) (by decide) rfl (by simp)
  have hnew₁ : new₁.length = 50 := hshows₁.length_eq.symm
  have hsecond : PageOf 2 1 (crowdList 2 51) (SearchState.mk new₁ 50 (some 51)).start 99 _ :=
    hpage (crowdList 2 51) 50 99
  obtain ⟨new₂, hshows₂, hturn₂⟩ := crowd_turn 2 (by decide) hsecond (Or.inr (show 50 < 51 by decide))
    (show 50 ≤ 99 by decide) hnew₁ (by simp)
  have hsearch : Run (searchAllPages sampleConfig session (sampleServer.narrowed .profileUser "ada" none) ⟨100⟩)
      (callTrace sampleConfig ⟨100⟩ (.search ((sampleServer.narrowed .profileUser "ada" none).query 0 49)) hs 0
        (.ok (pageDocument 2 1 (crowdList 1 51) 0 49)) ++
      (callTrace sampleConfig ⟨100⟩ (.search ((sampleServer.narrowed .profileUser "ada" none).query 50 99)) hs 0
        (.ok (pageDocument 2 1 (crowdList 2 51) 50 99)) ++ [])) (.ok (new₁ ++ new₂)) := by
    refine run_searchLoop_ok.mpr ⟨49, 0, hs, _, _, _, by decide, by decide, hh, hturn₁, rfl, Or.inr ⟨_, rfl, ?_⟩⟩
    exact run_searchLoop_ok.mpr ⟨99, 0, hs, _, _, _, show checkedAdd 50 49 = some 99 by decide, by decide, hh,
      hturn₂, rfl, Or.inl ⟨rfl, rfl⟩⟩
  have hnobody : idsNamed (slice (crowdList 1 51) 0 49 ++ slice (crowdList 2 51) 50 99) "ada" = [] := by decide
  have hpositive : ∀ x ∈ slice (crowdList 1 51) 0 49 ++ slice (crowdList 2 51) 50 99, x.1 ≠ 0 := by decide
  have hids : exactIds (new₁ ++ new₂) 2 1 "ada" false = .ok [] := by
    have hfold : (new₁ ++ new₂).foldlM (exactId 2 1 "ada" false) [] = .ok ([] ++ idsNamed _ "ada") :=
      foldlM_exactId_of_shows [] (List.rel_append hshows₁ hshows₂) (fun x hx => Or.inr (hpositive x hx))
        (by rw [hnobody]; exact List.nodup_nil)
    rwa [hnobody] at hfold
  refine ⟨_, run_readCurrentAssignments_ok.mpr ⟨2, 1, _, [], _, [], ho.1, ho.2, (List.append_nil _).symm, hsearch, hids,
    run_pure.mpr ⟨rfl, rfl⟩⟩, ?_⟩
  have hshift : crowdStale.Evolves crowdShifted := crowd_evolves _ _ (by decide) (by decide)
  have hdoc {start : Nat} {h : 0 < start ∧ start + 51 ≤ keyBound} (from_ to_ : Nat) (response : RawResponse)
      (hpage : PageOf 2 1 (crowdList start 51) from_ to_ response) :
      sampleServer.Answers (crowd start 51 h).store
        (.search ((sampleServer.narrowed .profileUser "ada" none).query from_ to_)) response
          (crowd start 51 h).store := by
    refine ⟨rfl, fun _ => ?_⟩
    rw [← hits_crowd start 51 h] at hpage
    exact hpage
  refine .cons ⟨.refl _, trivial⟩ (.cons ⟨.refl _, trivial⟩ (.cons ⟨.refl _, ?_⟩ ?_))
  · intro response hr _
    cases hr
    exact hdoc 0 49 _ (hpage _ _ _)
  refine .cons ⟨hshift, trivial⟩ (.cons ⟨.refl _, trivial⟩ (.cons ⟨.refl _, ?_⟩ .nil))
  intro response hr _
  cases hr
  exact hdoc 50 99 _ (hpage _ _ _)

/-- A reconciliation succeeds although the user has, from the first to the last request of its final read, a row that
the payload does not ask for. -/
theorem reconcile_misses_stale_row : ∃ before read after p s s₁ s₂ outcome,
    Run (reconcile sampleConfig sampleRequest) (before ++ read ++ after) (.ok outcome) ∧
      FinalRead sampleConfig sampleRequest p before read after ∧ Path sampleServer.among s before s₁ ∧
      Path sampleServer.among s₁ read s₂ ∧ sampleRequest.payload.json.bind decodePayload = some [] ∧
      ∀ m, s₁.Evolves m → m.Evolves s₂ → ¬ m.store.Canonical [] p.userId := by
  obtain ⟨tPlan, p, hs, hplan, hpath, huser, hcurrent, hdesired, ho, hh⟩ := crowd_plan
  obtain ⟨read, hread, hreadPath⟩ := crowd_read ho hh
  have hread' : Run (p.read sampleConfig sampleRequest) read (.ok []) := by
    rw [Planned.read, huser]
    exact hread
  have happly : Run (applyPlan sampleConfig p.session p.userId sampleRequest.context p.plan p.created) []
      (.ok p.created) := by
    rw [Planned.plan, hcurrent, hdesired]
    exact .ret
  have hverify := run_verifyAssignments_ok.mpr ⟨0, read, [], by decide, rfl, hread',
    show isCanonical [] p.desiredResolved = true by rw [hdesired]; rfl⟩
  obtain ⟨outcome, hexecute⟩ : ∃ outcome, Run (execute sampleConfig sampleRequest p)
      ([] ++ ([polled false, clock 0] ++ read)) (.ok outcome) :=
    ⟨_, run_execute_ok.mpr ⟨p.created, [], _, rfl, happly, hverify, rfl⟩⟩
  obtain ⟨after, hkill, hend⟩ : ∃ after, (∀ r ∈ requests after, r = .killSession) ∧
      Run (cleanup sampleConfig p.session sampleRequest.context (.ok outcome)) after (.ok outcome) := by
    refine ⟨_, ?_, run_cleanup_ended hh (show 0 < 100 by decide)
      (show readTrue .cleanupFailed ⟨200, ⟨trueLiteral, none⟩⟩ = .ok () from rfl)⟩
    exact fun r hr => List.mem_singleton.mp hr
  refine ⟨tPlan ++ [polled false, clock 0], read, after, p, crowdBefore, crowdStale, crowdShifted, outcome, ?_, ?_, ?_,
    hreadPath, rfl, fun m hfrom hto hcanonical => ?_⟩
  · simpa using run_reconcile_of_phases hplan hexecute hend
  · exact ⟨⟨tPlan, _, rfl, hplan⟩, ⟨[], hread', by rw [hdesired]; rfl⟩, hkill⟩
  · exact path_append.mpr ⟨crowdBefore, hpath, .cons ⟨crowd_evolves _ _ (by decide) (by decide), trivial⟩
      (.cons ⟨.refl _, trivial⟩ .nil)⟩
  · have hrow : crowdRow 51 ∈ crowdShifted.store.assignments :=
      List.mem_map_of_mem (List.mem_range'_1.mpr (by decide))
    have hthere : crowdRow 51 ∈ m.store.assignments := by
      rcases hto.rows _ hrow with hold | hle
      · exact hold
      · exact absurd (hfrom.issued.trans hle) (by decide)
    obtain ⟨_, hnone, _⟩ := hcanonical.wanted _ hthere huser.symm
    cases hnone

end PermissionSync.Glpi
