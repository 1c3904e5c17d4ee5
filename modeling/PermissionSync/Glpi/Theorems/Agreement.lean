import PermissionSync.Glpi.Lemmas.SharedLookups
import PermissionSync.Glpi.Theorems.Convergence

/-!
# Concurrent reconciliations of one username

Reconciliations that run at the same time, and other clients, may each create an account for the username. Those that
get past the resolution of the user still agree on it, because each of them has seen it to be the oldest account.
-/

namespace PermissionSync.Glpi

open PermissionSync.Base PermissionSync.Wire

variable {ι : Type} {server : Server} {k : ι} {s s' : Store}
variable {config : ValidatedConfig} {context : SynchronizationContext} {request : AdapterRequest}

/-! ## The timeline as the environment of one reconciliation -/

theorem accountsGrow_of_path {acts : List (Act ι glpi)} (h : Path server.userAct s acts s') : s.AccountsGrow s' :=
  h.invariant (P := fun m => s.AccountsGrow m) (.refl s) fun _ _ _ hgrow hact => hgrow.trans hact.1

/-- A lookup leaves the store as it is. -/
theorem answers_of_looksUpUser {r : Request} {response : RawResponse} (hr : r.looksUpUser = true)
    (h : server.Answers s r response s') : server.Answers s' r response s' := by
  cases r with
  | listSearchOptions itemtype => exact ⟨rfl, h.2⟩
  | search q => exact ⟨rfl, h.1 ▸ h.2⟩
  | _ => cases hr

section Timeline

variable [DecidableEq ι]

theorem informs_timeline (server : Server) (k : ι) :
    server.Informs (fun s => s) Request.looksUpUser (Amid server.userAct k) where
  grows s e s' h := by
    obtain ⟨acts, m, _, hpath, hown⟩ := h
    exact (accountsGrow_of_path hpath).trans hown.1
  answers s call response s' h hlookup := by
    obtain ⟨acts, m, _, _, hown⟩ := h
    exact answers_of_looksUpUser hlookup ((hown.2 response rfl).1 hlookup)

/-! ## One reconciliation -/

theorem ensures_userSearchOptions {session : GlpiSession} :
    Ensures (Amid server.userAct k) s (userSearchOptions config session context) fun options _ =>
      OptionsOf server .user options.1 := by
  refine .bind ((ensures_resolveSearchOptions (informs_timeline server k) .user rfl).mono fun userOptions s₁ hu => ?_)
  exact .bind ((Ensures.any _).mono fun _ _ _ => .pure hu)

theorem ensures_userOptions {session : GlpiSession} {desired : List CanonicalAssignment} :
    Ensures (Amid server.userAct k) s (prepare config session desired context) fun references _ =>
      OptionsOf server .user references.userOptions := by
  refine .bind ((Ensures.any _).mono fun _ s₁ _ => .bind ((Ensures.any _).mono fun _ s₂ _ => ?_))
  unfold resolveReferences
  split
  · exact .bind (ensures_userSearchOptions.mono fun options s₃ hu => .pure hu)
  · refine .bind ((Ensures.any _).mono fun entityOptions s₃ _ =>
      .bind ((Ensures.any _).mono fun profileOptions s₄ _ => ?_))
    refine .bind (ensures_userSearchOptions.mono fun options s₅ hu => ?_)
    exact .bind ((Ensures.any _).mono fun resolved s₆ _ => .pure hu)

/-- The user that a reconciliation has identified is the oldest account of the username. -/
theorem ensures_identify :
    Ensures (Amid server.userAct k) s (identify config request) fun i s' => s'.First request.username i.userId := by
  refine .bind ((Ensures.any _).mono fun desired s₁ _ => .bind ((Ensures.any _).mono fun session s₂ _ => ?_))
  refine .bind (ensures_userOptions.mono fun references s₃ ho => ?_)
  refine .bind ((ensures_synchronizedUser (informs_timeline server k) ?_ ho).mono fun user s₄ hfirst => .pure hfirst)
  intro q hitem hdeleted
  simp [Request.looksUpUser, hitem, hdeleted]

end Timeline

/-- A user that the reconciliation created was confirmed by the answer to its creation. -/
theorem created_of_run {t : Trace} {i : Identified} (h : Run (identify config request) t (.ok i))
    (hcreated : i.created ≠ 0) :
    ∃ e ∈ t, Accepted (.postUser request.username config.authenticationSource) readCreatedUser i.userId e := by
  obtain ⟨desired, t₁, _, rfl, _, h⟩ := run_bind_ok.mp h
  obtain ⟨session, t₂, _, rfl, _, h⟩ := run_bind_ok.mp h
  obtain ⟨references, t₃, _, rfl, _, h⟩ := run_bind_ok.mp h
  obtain ⟨⟨userId, created⟩, t₄, _, rfl, huser, h⟩ := run_bind_ok.mp h
  obtain ⟨rfl, hi⟩ := run_pure.mp h
  cases hi
  obtain ⟨found, t₅, t₆, rfl, _, hk⟩ := run_bind_ok.mp huser
  cases found with
  | some id =>
      obtain ⟨_, hr⟩ := run_pure.mp hk
      cases hr
      exact absurd rfl hcreated
  | none =>
      obtain ⟨createdId, t₇, t₈, rfl, hpost, hk⟩ := run_bind_ok.mp hk
      obtain ⟨resolved, t₉, _, rfl, _, hk⟩ := run_bind_ok.mp hk
      rcases run_lift_bind.mp hk with ⟨_, _, _, hr⟩ | ⟨_, _, hk⟩
      · cases hr
      obtain ⟨_, hr⟩ := run_pure.mp hk
      cases hr
      obtain ⟨n, hs, response, _, _, hread, rfl⟩ := run_timed_ok.mp hpost
      obtain ⟨e, he, haccepted⟩ := accepted_mem_callTrace config request.context _ hs n hread
      exact ⟨e, by simp [he], haccepted⟩

/-! ## Agreement -/

/-- The act confirms the creation of the account with the id. -/
def Confirms (id : Nat) (act : Act ι glpi) : Prop :=
  ∃ k e name source, act = .own k e ∧ Accepted (.postUser name source) readCreatedUser id e

/-- A confirmed account did not exist before and exists afterwards. -/
theorem confirms_fresh {id : Nat} {act : Act ι glpi} (hact : Confirms id act) (h : server.userAct s act s') :
    (∃ a ∈ s'.accounts, a.id = id) ∧ ¬ ∃ a ∈ s.accounts, a.id = id := by
  obtain ⟨k, e, name, source, rfl, call, response, rfl, hcall, hread⟩ := hact
  have hstatus : response.status = 201 := by
    obtain ⟨_, hs, _⟩ := bind_eq_ok.mp hread
    exact ensure_eq_ok.mp hs
  obtain ⟨id', hdoc, hnew, hlarger⟩ := (h.2 response rfl).2 name source hcall hstatus
  have hkey := s'.accountKeys.2 id' (List.mem_map.mpr ⟨_, hnew, rfl⟩)
  cases hread.symm.trans (readCreatedUser_of hdoc hkey)
  refine ⟨⟨_, hnew, rfl⟩, fun hold => ?_⟩
  obtain ⟨a, ha, hid⟩ := hold
  exact absurd (hlarger a ha) (by omega)

/-- No account is confirmed twice. -/
theorem confirms_once {id : Nat} {acts : List (Act ι glpi)} (h : Path server.userAct s acts s') :
    acts.Pairwise fun act act' => ¬ (Confirms id act ∧ Confirms id act') :=
  h.pairwise_not (P := fun s => ∃ a ∈ s.accounts, a.id = id)
    (fun _ _ _ hact hstep => (confirms_fresh hact hstep).1)
    (fun _ _ _ hold hstep => by
      obtain ⟨a, ha, hid⟩ := hold
      exact ⟨a, hstep.1.kept a ha, hid⟩)
    fun _ _ _ hact hstep => (confirms_fresh hact hstep).2

/-- The trace begins with a complete resolution of the user. -/
def Reaches (config : ValidatedConfig) (request : AdapterRequest) (t : Trace) (i : Identified) : Prop :=
  ∃ t₁ t₂, t = t₁ ++ t₂ ∧ Run (identify config request) t₁ (.ok i)

/-- A reconciliation that succeeds has got past the resolution of its user. -/
theorem reaches_of_run {t : Trace} {outcome : ReconciliationOutcome}
    (h : Run (reconcile config request) t (.ok outcome)) : ∃ i, Reaches config request t i := by
  obtain ⟨t₁, t₂, result, rfl, hp, _, hok⟩ := run_reconcile_end h
  rw [hok outcome rfl, primary_eq_identify] at hp
  obtain ⟨i, t₃, t₄, rfl, hi, _⟩ := run_bind_ok.mp hp
  exact ⟨i, t₃, t₄ ++ t₂, by simp, hi⟩

/-- Any two reconciliations of one username that get past the resolution of the user, on any timeline that they share
with others, go on with the same user id, and at most one of them has created the account. Those that succeed have got
past it. -/
theorem reconciliations_agree_on_user [DecidableEq ι] (config : ι → ValidatedConfig)
    (request : ι → AdapterRequest) {username : String} (husername : ∀ k, (request k).username = username)
    {acts : List (Act ι glpi)} (hpath : Path server.userAct s acts s') {j k : ι} {u v : Identified}
    (hu : Reaches (config j) (request j) (eventsOf j acts) u)
    (hv : Reaches (config k) (request k) (eventsOf k acts) v) :
    u.userId = v.userId ∧ (j ≠ k → u.created = 0 ∨ v.created = 0) ∧
      ∀ i outcome, Run (reconcile (config i) (request i)) (eventsOf i acts) (.ok outcome) →
        ∃ w, Reaches (config i) (request i) (eventsOf i acts) w := by
  have hfirst {k : ι} {i : Identified} (h : Reaches (config k) (request k) (eventsOf k acts) i) :
      s'.First username i.userId := by
    obtain ⟨t₁, t₂, ht, hrun⟩ := h
    refine Ensures.along (P := fun m => m.First username i.userId) (ensures_identify.mono fun i' m hm he => ?_)
      (fun _ _ _ h hact => h.grow hact.1) hpath ht hrun
    rw [← husername k, ← he]
    exact hm
  have hconfirmed {k : ι} {i : Identified} (h : Reaches (config k) (request k) (eventsOf k acts) i)
      (hcreated : i.created ≠ 0) : ∃ e, Act.own k e ∈ acts ∧ Confirms i.userId (Act.own k e) := by
    obtain ⟨t₁, t₂, ht, hrun⟩ := h
    obtain ⟨e, he, haccepted⟩ := created_of_run hrun hcreated
    exact ⟨e, mem_eventsOf.mp (ht ▸ List.mem_append_left _ he), k, e, _, _, rfl, haccepted⟩
  have hsame := (hfirst hu).unique (hfirst hv)
  refine ⟨hsame, fun hne => ?_, fun i outcome => reaches_of_run⟩
  by_contra hboth
  obtain ⟨hcu, hcv⟩ := not_or.mp hboth
  obtain ⟨e, he, hce⟩ := hconfirmed hu hcu
  obtain ⟨e', he', hce'⟩ := hconfirmed hv hcv
  rw [← hsame] at hce'
  have : Std.Symm fun act act' : Act ι glpi => ¬ (Confirms u.userId act ∧ Confirms u.userId act') :=
    ⟨fun _ _ h h' => h ⟨h'.2, h'.1⟩⟩
  have hdistinct : Act.own j e ≠ Act.own k e' := by
    intro h
    cases h
    exact hne rfl
  exact (confirms_once hpath).forall he he' hdistinct ⟨hce, hce'⟩

/-! ## Two reconciliations that find no account -/

/-- What is asked of a server that stays as it is. -/
def Unmoved (server : Server) (s : Store) (e : Event glpi) : Prop :=
  ∀ call response, e = exchanged call (.ok response) → (∀ name source, call.request ≠ .postUser name source) ∧
    (call.request.looksUpUser = true → server.Answers s call.request response s)

theorem path_unmoved {t : Trace} (k : ι) (h : ∀ e ∈ t, Unmoved server s e) :
    Path server.userAct s (t.map (Act.own k)) s := by
  induction t with
  | nil => exact .nil
  | cons e t ih =>
      obtain ⟨he, ht⟩ := List.forall_mem_cons.mp h
      refine .cons ⟨.refl s, ?_⟩ (ih ht)
      obtain ⟨o, x⟩ := e
      cases o with
      | isCancelled => trivial
      | now => trivial
      | request call =>
          rintro response rfl
          obtain ⟨hpost, hlookup⟩ := he call response rfl
          exact ⟨hlookup, fun name source hcall => absurd hcall (hpost name source)⟩

theorem unmoved_callTrace {r : Request} {hs : Headers} {response : RawResponse}
    (hpost : ∀ name source, r ≠ .postUser name source)
    (hlookup : r.looksUpUser = true → server.Answers s r response s) :
    ∀ e ∈ callTrace sampleConfig ⟨100⟩ r hs 0 (.ok response), Unmoved server s e := by
  intro e he call response' heq
  rcases List.mem_cons.mp he with rfl | he
  · cases heq
  rcases List.mem_cons.mp he with rfl | he
  · cases heq
  obtain rfl := List.mem_singleton.mp he
  cases heq
  exact ⟨hpost, hlookup⟩

theorem unmoved_checked : ∀ e ∈ checked, Unmoved server s e := by
  intro e he call response heq
  rcases List.mem_cons.mp he with rfl | he
  · cases heq
  obtain rfl := List.mem_singleton.mp he
  cases heq

theorem unmoved_sessionTrace : ∀ e ∈ sessionTrace, Unmoved server s e := by
  have hquiet {r : Request} {hs : Headers} {response : RawResponse} (hpost : ∀ name source, r ≠ .postUser name source)
      (hr : r.looksUpUser = false) : ∀ e ∈ callTrace sampleConfig ⟨100⟩ r hs 0 (.ok response), Unmoved server s e :=
    unmoved_callTrace hpost fun h => absurd (hr.symm.trans h) (by decide)
  simp only [sessionTrace, List.forall_mem_append]
  exact ⟨⟨⟨unmoved_checked, hquiet (by simp) rfl⟩, hquiet (by simp) rfl⟩, hquiet (by simp) rfl⟩

theorem unmoved_optionsTrace (itemtype : Itemtype) : ∀ e ∈ optionsTrace itemtype, Unmoved sampleServer s e := by
  refine unmoved_callTrace (by simp) fun _ => ⟨rfl, ?_⟩
  cases itemtype <;> exact listsOptions_document (by decide)

/-- The pages of a lookup are documented if they show the active accounts and no account is deleted. -/
theorem unmoved_lookupTrace {accounts : List (Nat × String)}
    (hactive : ∀ q : SearchQuery, q.itemtype = .user → q.isDeleted = some false → sampleServer.found s q = accounts)
    (hdeleted : ∀ q : SearchQuery, q.itemtype = .user → q.isDeleted = some true → sampleServer.found s q = []) :
    ∀ e ∈ lookupTrace accounts, Unmoved sampleServer s e := by
  have hpage (l : List (Nat × String)) (start stop : Nat) : PageOf 2 1 l start stop (pageDocument 2 1 l start stop) :=
    pageOf_pageDocument (by decide) (by decide) (by decide) l start stop
  refine List.forall_mem_append.mpr ⟨unmoved_callTrace (by simp) fun _ => ⟨rfl, fun _ => ?_⟩,
    unmoved_callTrace (by simp) fun _ => ⟨rfl, fun _ => ?_⟩⟩
  · rw [hactive _ rfl rfl]
    exact hpage accounts 0 49
  · rw [hdeleted _ rfl rfl]
    exact hpage [] 0 49

/-- A store with the accounts and nothing else. -/
def accountStore (accounts : List Account) (h : Keys (accounts.map Account.id)) : Store where
  entities := []
  profiles := []
  accounts := accounts
  assignments := []
  entityKeys := entityKeys_nil
  profileKeys := keys_nil
  accountKeys := h
  assignmentKeys := keys_nil
  owned := List.forall_mem_nil _
  granted := List.forall_mem_nil _

def noAccount : Store := accountStore [] keys_nil

def oneAccount : Store := accountStore [⟨7, "ada", false⟩] keys_seven

def creationTrace : Trace := replied (.postUser "ada" .default) (creationDocument 7)

theorem path_creationTrace (k : ι) :
    Path sampleServer.userAct noAccount (creationTrace.map (Act.own k)) oneAccount := by
  have hgrow : noAccount.AccountsGrow oneAccount :=
    ⟨by simp [noAccount, accountStore], by simp [noAccount, accountStore]⟩
  refine .cons ⟨.refl _, trivial⟩ (.cons ⟨.refl _, trivial⟩ (.cons ⟨hgrow, ?_⟩ .nil))
  rintro response heq
  cases heq
  refine ⟨fun hlookup => (by cases hlookup), fun name source hcall _ => ?_⟩
  cases hcall
  exact ⟨7, creates_creationDocument 7, by simp [oneAccount, accountStore], by simp [noAccount, accountStore]⟩

def openingTrace : Trace := sessionTrace ++ optionsTrace .user ++ optionsTrace .profileUser

/-- The first reconciliation finds no account. While the second one begins, the first creates the account, and both then
find it. -/
def raceActs : List (Act Bool glpi) :=
  (openingTrace ++ lookupTrace []).map (Act.own false) ++ openingTrace.map (Act.own true) ++
    creationTrace.map (Act.own false) ++ (lookupTrace [(7, "ada")]).map (Act.own true) ++
    (lookupTrace [(7, "ada")]).map (Act.own false)

theorem unmoved_openingTrace : ∀ e ∈ openingTrace, Unmoved sampleServer s e :=
  List.forall_mem_append.mpr ⟨List.forall_mem_append.mpr ⟨unmoved_sessionTrace, unmoved_optionsTrace _⟩,
    unmoved_optionsTrace _⟩

theorem path_raceActs : Path sampleServer.userAct noAccount raceActs oneAccount := by
  have hnone : ∀ e ∈ lookupTrace [], Unmoved sampleServer noAccount e := by
    refine unmoved_lookupTrace (fun q hitem hdeleted => ?_) fun q hitem hdeleted => ?_
    · simp [Server.found, Store.listed, hitem, noAccount, accountStore, sortByKey]
    · simp [Server.found, Store.listed, hitem, noAccount, accountStore, sortByKey]
  have hone : ∀ e ∈ lookupTrace [(7, "ada")], Unmoved sampleServer oneAccount e := by
    refine unmoved_lookupTrace (fun q hitem hdeleted => ?_) fun q hitem hdeleted => ?_
    · simp [Server.found, Store.listed, hitem, hdeleted, oneAccount, accountStore, sampleServer, sortByKey]
    · simp [Server.found, Store.listed, hitem, hdeleted, oneAccount, accountStore, sampleServer, sortByKey]
  have hbefore := path_unmoved false (List.forall_mem_append.mpr ⟨unmoved_openingTrace, hnone⟩)
  refine path_append.mpr ⟨oneAccount, path_append.mpr ⟨oneAccount, path_append.mpr ⟨noAccount,
    path_append.mpr ⟨noAccount, hbefore, ?_⟩, ?_⟩, ?_⟩, ?_⟩
  · exact path_unmoved true unmoved_openingTrace
  · exact path_creationTrace false
  · exact path_unmoved true hone
  · exact path_unmoved false hone

theorem sample_agree : Path sampleServer.userAct noAccount raceActs oneAccount ∧ ∃ u v,
    Reaches sampleConfig sampleRequest (eventsOf false raceActs) u ∧
    Reaches sampleConfig sampleRequest (eventsOf true raceActs) v ∧ u.created = 1 ∧ v.created = 0 ∧
    u.userId = v.userId := by
  have hreaches (t : Trace) (id created : Nat)
      (h : (((identify sampleConfig sampleRequest).follow t).bind Except.toOption).map
        (fun i => (i.userId, i.created)) = some (id, created)) :
      ∃ i, Reaches sampleConfig sampleRequest t i ∧ i.created = created := by
    obtain ⟨i, hi, hids⟩ := Option.map_eq_some_iff.mp h
    obtain ⟨r, hfollow, hr⟩ := Option.bind_eq_some_iff.mp hi
    cases r with
    | error e => cases hr
    | ok i' =>
        cases hr
        exact ⟨i, ⟨t, [], by simp, run_of_follow hfollow⟩, congrArg Prod.snd hids⟩
  obtain ⟨u, hu, hcreated⟩ := hreaches (eventsOf false raceActs) 7 1 (by decide +kernel)
  obtain ⟨v, hv, hfound⟩ := hreaches (eventsOf true raceActs) 7 0 (by decide +kernel)
  exact ⟨path_raceActs, u, v, hu, hv, hcreated, hfound,
    (reconciliations_agree_on_user (fun _ => sampleConfig) (fun _ => sampleRequest)
      (fun _ => rfl) path_raceActs hu hv).1⟩

end PermissionSync.Glpi
