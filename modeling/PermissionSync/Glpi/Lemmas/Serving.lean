import PermissionSync.Glpi.Lemmas.ServedReconcile

/-!
# A server that answers every request of a reconciliation

No request of a reconciliation is left without a documented answer, as long as there are ids left for the rows that it
creates.
-/

namespace PermissionSync.Glpi

open PermissionSync.Base PermissionSync.Wire

variable {config : ValidatedConfig} {context : SynchronizationContext} {session : GlpiSession}
variable {request : AdapterRequest} {server : Server} {s s' : Store} {t : Trace}

/-! ## Phases that touch no assignment -/

theorem plan_untouching {r : Except GlpiFailure Planned} (h : Run (Glpi.plan config request) t r) :
    deletions t = [] ∧ creations t = [] :=
  untouched ((plan_sat (sends_admits config request.context _) ⟨rfl, rfl⟩ (fun _ => untouching_of_isRead)
    ⟨rfl, rfl⟩).of_run h)

theorem verifyAssignments_untouching {options : SearchOptions} {username : String} {userId : Nat}
    {desired : List DesiredAssignment} {r : Except GlpiFailure Unit}
    (h : Run (verifyAssignments config session options username userId desired context) t r) :
    deletions t = [] ∧ creations t = [] :=
  untouched ((verifyAssignments_sat (sends_admits config context _) fun _ => untouching_of_isRead).of_run h)

theorem cleanup_untouching {outcome : Except GlpiFailure ReconciliationOutcome}
    {r : Except GlpiFailure ReconciliationOutcome} (h : Run (cleanup config session context outcome) t r) :
    deletions t = [] ∧ creations t = [] := by
  refine untouched ((cleanup_sends h).mono ?_)
  rintro r rfl
  exact ⟨rfl, rfl⟩

/-- What the execution of a plan deletes and creates is part of the plan. -/
theorem execute_part {p : Planned} {r : Except GlpiFailure ReconciliationOutcome}
    (h : Run (execute config request p) t r) :
    deletions t <+: p.plan.removals ∧ creations t <+: p.plan.additions.map fun a => (p.userId, a) := by
  rcases run_bind.mp h with ⟨e, ha, rfl⟩ | ⟨total, t₁, t₂, rfl, ha, hv⟩
  · exact applied_part (run_applyPlan ha).1
  · obtain ⟨hdel, hcre⟩ := applied_part (run_applyPlan ha).1
    have hrest : deletions t₂ = [] ∧ creations t₂ = [] := by
      rcases run_bind.mp hv with ⟨_, hv', _⟩ | ⟨_, t₃, _, rfl, hv', hp⟩
      · exact verifyAssignments_untouching hv'
      · obtain ⟨rfl, _⟩ := run_pure.mp hp
        simpa using verifyAssignments_untouching hv'
    simpa [hrest.1, hrest.2] using And.intro hdel hcre

/-- A reconciliation creates at most as many rows as the payload asks for. -/
theorem length_creations_le {desired : List CanonicalAssignment} {r : Except GlpiFailure ReconciliationOutcome}
    (h : Run (reconcile config request) t r) (hdesired : parseAndNormalize request.payload = .ok desired) :
    (creations t).length ≤ desired.length := by
  obtain ⟨t₁, t₂, outcome, rfl, hp, hend⟩ := run_reconcile h
  have hclean : creations t₂ = [] := by
    rcases hend with ⟨rfl, _⟩ | ⟨session, _, hc⟩
    · rfl
    · exact (cleanup_untouching hc).2
  rw [primary_eq] at hp
  rw [creations_append, hclean, List.append_nil]
  rcases run_bind.mp hp with ⟨e, hplan, _⟩ | ⟨p, t₃, t₄, rfl, hplan, hexec⟩
  · simp [(plan_untouching hplan).2]
  · obtain ⟨_, _, _, _, _, hrun, _⟩ := run_plan_ok.mp hplan
    obtain ⟨_, _, _, _, haccepted⟩ := run_acceptRequest_ok.mp hrun.accepted
    cases hdesired.symm.trans haccepted
    calc (creations (t₃ ++ t₄)).length = (creations t₄).length := by
          rw [creations_append, (plan_untouching hplan).2, List.nil_append]
      _ ≤ p.plan.additions.length := by simpa using (execute_part hexec).2.length_le
      _ ≤ p.desiredResolved.length := length_additions_le _ _
      _ = p.desired.length := length_of_mapM_eq_ok hrun.resolved

theorem reconcile_sends {S : Request → Prop}
    (hS : ∀ r, (∀ name source, r ≠ .postUser name source) → S r)
    (hpost : S (.postUser request.username config.authenticationSource))
    {r : Except GlpiFailure ReconciliationOutcome} (h : Run (reconcile config request) t r) : Sends S t := by
  have hadmits := sends_admits config request.context S
  have hc := hadmits.toComposable
  have hread : ∀ r : Request, r.isRead = true → S r := by
    intro r hr
    refine hS r fun name source he => ?_
    rw [he] at hr
    cases hr
  have hprimary : (primary config request).Sat (Sends S) (Sends S) := by
    refine .bind hc (acceptRequest_sat hadmits) fun _ => .bind hc (initSession_sat hadmits (hS _ (by simp))) fun _ => ?_
    refine .bind hc (prepare_sat hadmits hread) fun _ => ?_
    refine .bind hc (synchronizedUser_sat hadmits (fun q => hread _ rfl) hpost) fun _ => ?_
    exact reconcileAssignments_sat hadmits hread (fun _ => hS _ (by simp)) fun _ _ _ _ => hS _ (by simp)
  obtain ⟨t₁, t₂, outcome, rfl, hp, hend⟩ := run_reconcile h
  refine sends_append.mpr ⟨hprimary.of_run hp, ?_⟩
  rcases hend with ⟨rfl, _⟩ | ⟨session, _, hclean⟩
  · simp [Sends]
  · exact (cleanup_sends hclean).mono fun r hr => hS r (by simp [hr])

/-- A reconciliation creates no user but the one of its username. -/
theorem username_of_postUser {r : Except GlpiFailure ReconciliationOutcome} {call : Outbound}
    {x : Except GlpiFailure RawResponse} {name : String} {source : AuthenticationSource}
    (h : Run (reconcile config request) t r) (hmem : exchanged call x ∈ t)
    (hcall : call.request = .postUser name source) : name = request.username := by
  refine reconcile_sends (S := fun r => ∀ name source, r = .postUser name source → name = request.username)
    (fun r hr name source he => absurd he (hr name source)) ?_ h _ hmem call.request rfl name source hcall
  intro name source he
  cases he
  rfl

/-! ## The server -/

/-- The documented steps of a server that only the reconciliation uses: a row is added only by a creation and for a
profile that exists, and without a deletion or a creation nothing changes. -/
structure Server.Serves (server : Server) (deadline : Instant) (s : Store) (e : Event glpi) (s' : Store) : Prop where
  step : server.step deadline s e s'
  entities : s'.entities = s.entities
  profiles : s'.profiles = s.profiles
  accounts : s'.accounts = s.accounts
  still : deletions [e] = [] → creations [e] = [] → s' = s
  length : s'.assignments.length ≤ s.assignments.length + (creations [e]).length
  granted : ∀ a ∈ s'.assignments, a ∈ s.assignments ∨ ∃ p ∈ s.profiles, p.id = a.profilesId

theorem serves_same {deadline : Instant} {e : Event glpi} (h : server.step deadline s e s) :
    server.Serves deadline s e s :=
  ⟨h, rfl, rfl, rfl, fun _ _ => rfl, Nat.le_add_right _ _, fun _ => Or.inl⟩

theorem length_of_serves {deadline : Instant} (h : Path (server.Serves deadline) s t s') :
    s'.assignments.length ≤ s.assignments.length + (creations t).length := by
  induction h with
  | nil => exact Nat.le_add_right _ _
  | @cons s s₁ s' e t hstep _ ih =>
      rw [← List.singleton_append, creations_append, List.length_append]
      have hlength := hstep.length
      omega

theorem ans_nonempty (o : glpi.Op) : Nonempty (glpi.Ans o) := by
  cases o with
  | isCancelled => exact ⟨false⟩
  | now => exact ⟨(0 : Nat)⟩
  | request call => exact ⟨(.error .transport : Except GlpiFailure RawResponse)⟩

/-- The creation of a row is answered. -/
theorem exists_creation (hroom : s.assignments.length + 1 < keyBound) {deadline : Instant} {call : Outbound}
    {usersId profilesId entitiesId : Nat} {isRecursive : Bool}
    (hcall : call.request = .postProfileUser usersId profilesId entitiesId isRecursive) :
    ∃ response s', server.Serves deadline s (exchanged call (.ok response)) s' := by
  have hcreations (response : RawResponse) : creations [exchanged call (.ok response)] =
      [(usersId, ⟨entitiesId, profilesId, isRecursive⟩)] := by
    simp [creations, requests, sent, exchanged, hcall, Request.created]
  by_cases hvalid : (∃ a ∈ s.accounts, a.id = usersId) ∧ (∃ p ∈ s.profiles, p.id = profilesId) ∧
      ∃ e ∈ s.entities, e.id = entitiesId
  · obtain ⟨howner, ⟨p, hp, rfl⟩, e, he, rfl⟩ := hvalid
    obtain ⟨id, hkey, hfresh⟩ := s.exists_fresh hroom
    let s' := s.adding ⟨id, usersId, p.id, e.id, isRecursive⟩ hkey hfresh howner
      ⟨s.profileKeys.2 p.id (List.mem_map_of_mem hp), s.entityKeys.2 e he⟩
    refine ⟨creationDocument id, s', ⟨⟨_, rfl, ?_⟩, rfl, rfl, rfl, fun _ hnone => ?_, ?_, fun a ha => ?_⟩⟩
    · rw [hcall]
      exact fun _ _ _ => ⟨id, creates_creationDocument id, rfl, rfl, rfl, hfresh, fun a => by simp [s', Store.adding]⟩
    · rw [hcreations] at hnone
      cases hnone
    · simp [s', Store.adding, hcreations]
    · rcases List.mem_append.mp ha with ha | ha
      · exact Or.inl ha
      · exact Or.inr ⟨p, hp, by rw [List.mem_singleton.mp ha]⟩
  · refine ⟨⟨500, ⟨[], none⟩⟩, s, serves_same ⟨_, rfl, ?_⟩⟩
    rw [hcall]
    exact fun ha hp he => absurd ⟨ha, hp, he⟩ hvalid

/-- Every request of a reconciliation of a user that exists is answered. -/
theorem serves_answers {desired : List CanonicalAssignment}
    (hoptions : ∀ itemtype, server.idOption itemtype ≠ server.nameOption itemtype)
    (hdeadline : 0 < request.context.deadline) (haccount : ∃ a ∈ s.accounts, a.name = request.username)
    (hdesired : parseAndNormalize request.payload = .ok desired)
    (hroom : s.assignments.length + desired.length + 1 < keyBound) {o : Op}
    (hpath : Path (server.Serves request.context.deadline) s t s')
    (hasks : Asks (I := glpi) (reconcile config request) t o) :
    ∃ x s'', server.Serves request.context.deadline s' ⟨o, x⟩ s'' := by
  have haccounts : s'.accounts = s.accounts :=
    hpath.invariant (P := fun s' => s'.accounts = s.accounts) rfl fun _ _ _ h hstep => hstep.accounts.trans h
  cases o with
  | isCancelled => exact ⟨false, s', serves_same ⟨rfl, rfl⟩⟩
  | now => exact ⟨(0 : Nat), s', serves_same ⟨rfl, hdeadline⟩⟩
  | request call =>
      obtain ⟨t', r, hrun⟩ := hasks.exists_run ans_nonempty (.error .transport : Except GlpiFailure RawResponse)
      have hanswer : ∃ response s'', server.Serves request.context.deadline s' (exchanged call (.ok response)) s'' := by
        cases hcall : call.request with
        | postUser name source =>
            -- the only user that can be asked for exists
            have hname := username_of_postUser hrun (List.mem_append_right _ List.mem_cons_self) hcall
            refine ⟨⟨500, ⟨[], none⟩⟩, s', serves_same ⟨_, rfl, ?_⟩⟩
            rw [hcall]
            intro hnone
            obtain ⟨a, ha, hn⟩ := haccount
            exact absurd (hn.trans hname.symm) (hnone a (haccounts ▸ ha))
        | postProfileUser usersId profilesId entitiesId isRecursive =>
            have hcreated := length_creations_le hrun hdesired
            rw [creations_append, List.length_append] at hcreated
            have hlength := length_of_serves hpath
            exact exists_creation (by omega) hcall
        | _ =>
            obtain ⟨response, s'', hdoc, hchange⟩ := exists_answer hoptions s' (r := call.request) (by rw [hcall]; rfl)
            refine ⟨response, s'', ?_⟩
            rcases hchange with rfl | ⟨id, hdelete, rfl⟩
            · exact serves_same ⟨_, rfl, hdoc⟩
            · refine ⟨⟨_, rfl, hdoc⟩, rfl, rfl, rfl, fun hnone _ => ?_, ?_, fun a ha => ?_⟩
              · simp [deletions, requests, sent, exchanged, hdelete, Request.deleted] at hnone
              · exact (List.length_filter_le _ _).trans (Nat.le_add_right _ _)
              · exact Or.inl (List.mem_of_mem_filter ha)
      obtain ⟨response, s'', hserves⟩ := hanswer
      exact ⟨_, s'', hserves⟩

end PermissionSync.Glpi
