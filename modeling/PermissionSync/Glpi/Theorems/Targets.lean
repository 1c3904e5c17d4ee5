import PermissionSync.Glpi.Lemmas.Serving
import PermissionSync.Glpi.Theorems.Deadlines

/-!
# What a reconciliation deletes and creates

Whatever the server answers, a row is deleted only after this reconciliation read it as one of the user's, and a
row is created only for a desired assignment.
-/

namespace PermissionSync.Glpi

open PermissionSync.Base PermissionSync.Wire

variable {config : ValidatedConfig} {context : SynchronizationContext} {session : GlpiSession}
variable {request : AdapterRequest}

/-! ## Deletions and creations -/

/-- The deletions and creations of the trace stay within what was read and what is desired. -/
structure WithinPlan (p : Planned) (t : Trace) : Prop where
  deletesRead : ∀ i ∈ deletions t, ∃ row ∈ p.current, row.id = i
  once : (deletions t).Nodup
  keeps : (p.desiredResolved.map DesiredAssignment.pair).Nodup → ∀ d ∈ p.desiredResolved,
    (∃ row ∈ p.current, row.Carries d) → ∃ row ∈ p.current, row.Carries d ∧ row.id ∉ deletions t
  creates : ∀ u a, (u, a) ∈ creations t → u = p.userId ∧ ∃ d ∈ p.desiredResolved, a = d.addition

theorem withinPlan_of_part {p : Planned} {t : Trace} (hids : (p.current.map CurrentRow.id).Nodup)
    (hdel : deletions t <+: p.plan.removals)
    (hcre : creations t <+: p.plan.additions.map fun a => (p.userId, a)) : WithinPlan p t where
  deletesRead i hi := List.mem_map.mp (removals_subset hids _ (hdel.subset hi))
  once := ((removals_lt hids _).imp Nat.ne_of_lt).sublist hdel.sublist
  keeps hpairs d hd := by
    rintro ⟨row, hrow, hc⟩
    obtain ⟨r₀, hr₀, hc₀, hmin⟩ := exists_lowest hrow hc
    refine ⟨r₀, hr₀, hc₀, fun hmem => ?_⟩
    exact (id_mem_removals hids hpairs hr₀).mp (hdel.subset hmem) ⟨d, hd, hc₀, hmin⟩
  creates u a hmem := by
    obtain ⟨a', ha', he⟩ := List.mem_map.mp (hcre.subset hmem)
    cases he
    exact ⟨rfl, additions_subset hids _ ha'⟩

/-- Either nothing is deleted or created, or the reconciliation planned: it decoded the payload, resolved the user and
read its rows. Then every deleted id is the id of a row that this read returned, no id is deleted twice, a row of every
desired assignment that was read stays, and every created row is a desired assignment of the resolved user. -/
theorem reconcile_touches_only_read_rows {t : Trace} {r : Except GlpiFailure ReconciliationOutcome}
    (h : Run (reconcile config request) t r) :
    (deletions t = [] ∧ creations t = []) ∨
    ∃ p before tUser tRead after, t = before ++ tUser ++ tRead ++ after ∧
      Run (Glpi.plan config request) (before ++ tUser ++ tRead) (.ok p) ∧
      parseAndNormalize request.payload = .ok p.desired ∧
      Run (synchronizedUser config p.session p.references.userOptions request.username request.context) tUser
        (.ok (p.userId, p.created)) ∧
      Reading config p.session request.username p.userId request.context tRead p.current ∧
      resolveDesired p.references.resolved p.desired = .ok p.desiredResolved ∧
      deletions (before ++ tUser ++ tRead) = [] ∧ creations (before ++ tUser ++ tRead) = [] ∧ WithinPlan p t := by
  obtain ⟨t₁, t₂, outcome, rfl, hp, hend⟩ := run_reconcile h
  have hclean : deletions t₂ = [] ∧ creations t₂ = [] := by
    rcases hend with ⟨rfl, _⟩ | ⟨session, _, hc⟩
    · exact ⟨rfl, rfl⟩
    · exact cleanup_untouching hc
  rw [primary_eq] at hp
  rcases run_bind.mp hp with ⟨e, hplan, _⟩ | ⟨p, t₃, t₄, rfl, hplan, hexec⟩
  · obtain ⟨hd, hc⟩ := plan_untouching hplan
    exact Or.inl ⟨by simp [hd, hclean.1], by simp [hc, hclean.2]⟩
  · have hquiet := plan_untouching hplan
    obtain ⟨hdel, hcre⟩ := execute_part hexec
    obtain ⟨tA, tI, tP, tU, tR, hrun, rfl⟩ := run_plan_ok.mp hplan
    have hreading := reading_of_run hrun.read
    obtain ⟨_, _, _, _, hdesired⟩ := run_acceptRequest_ok.mp hrun.accepted
    refine Or.inr ⟨p, tA ++ tI ++ tP, tU, tR, t₄ ++ t₂, by simp, hplan, hdesired,
      hrun.user, hreading, hrun.resolved, hquiet.1, hquiet.2, ?_⟩
    refine withinPlan_of_part hreading.nodup ?_ ?_
    · rw [deletions_append, deletions_append, hquiet.1, hclean.1, List.nil_append, List.append_nil]
      exact hdel
    · rw [creations_append, creations_append, hquiet.2, hclean.2, List.nil_append, List.append_nil]
      exact hcre

/-! ## A reconciliation that deletes and creates -/

def pairRequest : AdapterRequest where
  username := "ada"
  version := 1
  context := ⟨100⟩
  payload := ⟨[], some (.obj [("permissions", .arr [
    .obj [("entity", .str "A"), ("profile", .str "P"), ("recursive", .bool false)],
    .obj [("entity", .str "B"), ("profile", .str "P"), ("recursive", .bool false)]])])⟩

def replied (request : Request) (response : RawResponse) : Trace :=
  callTrace sampleConfig ⟨100⟩ request sampleHeaders 0 (.ok response)

def optionsDocument (idUid nameUid : String) : RawResponse :=
  ⟨200, ⟨[], some (.obj [("2", .obj [("uid", .str idUid)]), ("1", .obj [("uid", .str nameUid)])])⟩⟩

def onePage (itemtype : Itemtype) (selector : String) (isDeleted : Option Bool) (l : List (Nat × String)) : Trace :=
  replied (.search ((narrowing itemtype 2 1 selector isDeleted).query 0 49)) (pageDocument 2 1 l 0 49)

def checked : Trace := [polled false, clock 0]

/-- The session begins and sees all entities. -/
def sessionTrace : Trace :=
  checked ++
    callTrace sampleConfig ⟨100⟩ .initSession [("authorization", "user_token user"), ("app-token", "app")] 0
      (.ok ⟨200, ⟨[], some (.obj [("session_token", .str "s")])⟩⟩) ++
    replied .changeActiveEntities ⟨200, ⟨trueLiteral, none⟩⟩ ++
    replied .getFullSession ⟨200, ⟨[], some (.obj [("session", .obj [("glpishowallentities", .nat 1)])])⟩⟩

def optionsTrace (itemtype : Itemtype) : Trace :=
  replied (.listSearchOptions itemtype) (optionsDocument itemtype.idUid itemtype.nameUid)

/-- The lookup of the user shows the accounts, none of which is deleted. -/
def lookupTrace (accounts : List (Nat × String)) : Trace :=
  onePage .user "ada" (some false) accounts ++ onePage .user "ada" (some true) []

/-- Up to the plan: entity 5 answers the first selector, the given entity the second, and the user has the rows. -/
def pairPlanTrace (second : Nat) (rows : List Assignment) : Trace :=
  sessionTrace ++ optionsTrace .entity ++ optionsTrace .profile ++ optionsTrace .user ++ optionsTrace .profileUser ++
    checked ++ onePage .entity "A" none [(5, "A")] ++ checked ++ onePage .profile "P" none [(3, "P")] ++
    checked ++ onePage .entity "B" none [(second, "B")] ++ checked ++ lookupTrace [(7, "ada")] ++
    onePage .profileUser "ada" none (rows.map fun a => (a.id, "ada")) ++
    rows.flatMap fun a => replied (.getProfileUser a.id) (itemDocument a)

/-- A row for the first entity, its duplicate, and a row for a profile that is not desired. -/
def readRows : List Assignment := [⟨11, 7, 3, 5, false⟩, ⟨12, 7, 3, 5, false⟩, ⟨13, 7, 4, 5, false⟩]

/-- The duplicate and the other row are deleted and the row for the second entity is created. The request is then
cancelled. -/
def readMutations : Trace :=
  replied (.deleteProfileUser 12) (deletionDocument 12) ++ replied (.deleteProfileUser 13) (deletionDocument 13) ++
    replied (.postProfileUser 7 3 6 false) (creationDocument 14) ++ [polled true, polled true]

theorem sample_touches_only_read_rows : ∃ t r tPlan p, Run (reconcile sampleConfig pairRequest) t r ∧
    Run (Glpi.plan sampleConfig pairRequest) tPlan (.ok p) ∧ deletions t = [12, 13] ∧
    creations t = [(7, ⟨6, 3, false⟩)] ∧ p.desired = [⟨"A", "P", false⟩, ⟨"B", "P", false⟩] ∧ WithinPlan p t := by
  have hfollow :
      ((reconcile sampleConfig pairRequest).follow (pairPlanTrace 6 readRows ++ readMutations)).isSome = true := by
    decide +kernel
  obtain ⟨r, hr⟩ := Option.isSome_iff_exists.mp hfollow
  have hrun := run_of_follow hr
  rcases reconcile_touches_only_read_rows hrun with ⟨hnone, _⟩ |
    ⟨p, _, _, _, _, _, hplan, hpayload, _, _, _, _, _, hwithin⟩
  · exact absurd hnone (by decide +kernel)
  · have hdesired := hpayload.symm.trans (show _ = Except.ok [⟨"A", "P", false⟩, ⟨"B", "P", false⟩] from rfl)
    exact ⟨_, r, _, p, hrun, hplan, by decide +kernel, by decide +kernel, Except.ok.inj hdesired, hwithin⟩

/-! ## A reconciliation that changes a store -/

def sampleServer : Server where
  option uid := if uid ∈ ["Entity.id", "Profile.id", "User.id", "Profile_User.id"] then 2 else 1
  optionBound uid := by
    split <;> decide
  finds _ _ _ _ := true
  exact _ _ _ := rfl

theorem entityKeys_nil :
    (([] : List NamedItem).map NamedItem.id).Nodup ∧ ∀ e ∈ ([] : List NamedItem), e.id < keyBound := by
  simp

theorem keys_nil : Keys [] := by simp [Keys]

theorem keys_seven : Keys [7] := by simp [Keys, keyBound]

theorem keys_seven_eight : Keys [7, 8] := by simp [Keys, keyBound]

/-- One account, with a row that an empty payload does not ask for. -/
def sampleStore : Store where
  entities := []
  profiles := []
  accounts := [⟨7, "ada", false⟩]
  assignments := [⟨5, 7, 3, 0, false⟩]
  entityKeys := entityKeys_nil
  profileKeys := keys_nil
  accountKeys := keys_seven
  assignmentKeys := by simp [Keys, keyBound]
  owned := by simp
  granted := by simp [keyBound]

/-- A reconciliation of the request can converge on the store: its user exists, the names of the payload are
unambiguous, and there are ids left. -/
structure Convergent (request : AdapterRequest) (permissions : List RawPermission) (s : Store) : Prop where
  deadline : 0 < request.context.deadline
  version : request.version = 1
  payload : request.payload.json.bind decodePayload = some permissions
  named : ∀ p ∈ permissions, p.entity ≠ "" ∧ p.profile ≠ ""
  suits : s.Suits permissions request.username
  account : ∃ a ∈ s.accounts, a.name = request.username
  room : s.assignments.length + (normalize permissions).length + 1 < keyBound

variable {permissions : List RawPermission} {s s' : Store} {t : Trace}

theorem Convergent.answers (h : Convergent request permissions s) {o : Op}
    (hpath : Path (sampleServer.Serves request.context.deadline) s t s')
    (hasks : Asks (I := glpi) (reconcile sampleConfig request) t o) :
    ∃ x s'', sampleServer.Serves request.context.deadline s' ⟨o, x⟩ s'' := by
  have hdesired : parseAndNormalize request.payload = .ok (normalize permissions) :=
    parseAndNormalize_eq_ok.mpr ⟨permissions, h.payload, h.named, rfl⟩
  exact serves_answers (fun itemtype => by cases itemtype <;> decide) h.deadline h.account hdesired h.room hpath hasks

theorem Convergent.runs (h : Convergent request permissions s) : ∃ t outcome s',
    Run (reconcile sampleConfig request) t (.ok outcome) ∧
      Path (sampleServer.Serves request.context.deadline) s t s' ∧
      (outcome = .unchanged ↔ ∃ u, s.HasAccount request.username u ∧ s.Canonical permissions u) := by
  obtain ⟨t, r, s', hrun, hpath⟩ := exists_run fun t s' o hpath hasks => h.answers hpath hasks
  obtain ⟨outcome, rfl, hreconciled⟩ := served_reconcile request (by rfl) h.version h.payload h.named h.suits t r s'
    hrun (hpath.mono fun _ _ _ h => h.step)
  exact ⟨t, outcome, s', hrun, hpath, hreconciled.unchanged⟩

/-- A row that the payload does not ask for has to go. -/
theorem Convergent.changes (h : Convergent request permissions s) {a : Assignment} (ha : a ∈ s.assignments)
    (hname : s.ownerName a = request.username) (hother : ∀ p ∈ permissions, ¬ s.Names p a) : ∃ t s',
    Run (reconcile sampleConfig request) t (.ok .changed) ∧
      Path (sampleServer.Serves request.context.deadline) s t s' := by
  obtain ⟨t, outcome, s', hrun, hpath, hunchanged⟩ := h.runs
  cases outcome with
  | changed => exact ⟨t, s', hrun, hpath⟩
  | unchanged =>
      obtain ⟨u, ⟨account, haccount, hu, rfl⟩, hcanonical⟩ := hunchanged.mp rfl
      obtain ⟨owner, howner, hid⟩ := s.owned a ha
      have howned : owner.name = request.username := (Store.ownerName_eq howner hid).symm.trans hname
      obtain rfl := h.suits.account owner howner account haccount howned hu
      obtain ⟨p, hp, hnames, _⟩ := hcanonical.wanted a ha hid.symm
      exact absurd hnames (hother p hp)

theorem convergent_sampleStore : Convergent sampleRequest [] sampleStore where
  deadline := by decide
  version := rfl
  payload := rfl
  named := by simp
  suits := ⟨by simp, by simp, by simp [sampleStore], by simp [sampleStore]⟩
  account := by simp [sampleStore, sampleRequest]
  room := by decide

theorem sample_changed : ∃ t s', Run (reconcile sampleConfig sampleRequest) t (.ok .changed) ∧
    Path (sampleServer.Serves 100) sampleStore t s' :=
  convergent_sampleStore.changes (a := ⟨5, 7, 3, 0, false⟩) (by simp [sampleStore]) rfl (by simp)

/-! ## A reconciliation that grants and revokes -/

def grantRequest : AdapterRequest where
  username := "ada"
  version := 1
  context := ⟨100⟩
  payload := ⟨[], some (.obj [("permissions", .arr [
    .obj [("entity", .str "A"), ("profile", .str "P"), ("recursive", .bool true)]])])⟩

/-- Two accounts that have a profile that the payload does not ask for. -/
def grantStore : Store where
  entities := [⟨5, "A"⟩]
  profiles := [⟨3, "P"⟩, ⟨4, "Q"⟩]
  accounts := [⟨7, "ada", false⟩, ⟨8, "bob", false⟩]
  assignments := [⟨11, 7, 4, 5, false⟩, ⟨12, 8, 4, 5, false⟩]
  entityKeys := by simp [keyBound]
  profileKeys := by simp [Keys, keyBound]
  accountKeys := keys_seven_eight
  assignmentKeys := by simp [Keys, keyBound]
  owned := by simp
  granted := by simp [keyBound]

theorem convergent_grantStore : Convergent grantRequest [⟨"A", "P", true⟩] grantStore where
  deadline := by decide
  version := rfl
  payload := rfl
  named := by simp
  suits := ⟨by simp [ExistsUnique, grantStore], by simp [ExistsUnique, grantStore], by simp [grantStore, grantRequest],
    by simp [grantStore]⟩
  account := by simp [grantStore, grantRequest]
  room := by decide

theorem grant_changed : ∃ t s', Run (reconcile sampleConfig grantRequest) t (.ok .changed) ∧
    Path (sampleServer.Serves 100) grantStore t s' := by
  refine convergent_grantStore.changes (a := ⟨11, 7, 4, 5, false⟩) (by simp [grantStore]) rfl ?_
  simp [Store.Names, grantStore]

end PermissionSync.Glpi
