import PermissionSync.Glpi.Lemmas.Cleanup

/-!
# The phases of a reconciliation

Up to the cleanup a reconciliation plans, which changes no assignment, and then executes the plan and verifies it.
-/

namespace PermissionSync.Glpi

open PermissionSync.Base PermissionSync.Wire

variable {config : ValidatedConfig} {context : SynchronizationContext} {session : GlpiSession}
variable {request : AdapterRequest}

/-- What a reconciliation knows when its user is resolved. -/
structure Identified where
  session : GlpiSession
  desired : List CanonicalAssignment
  references : References
  userId : Nat
  created : Nat

/-- Everything up to the resolution of the user. -/
def identify (config : ValidatedConfig) (request : AdapterRequest) : Io Identified := do
  let desired ← acceptRequest request
  let session ← timed config request.context (initSession config)
  let references ← prepare config session desired request.context
  let (userId, created) ←
    synchronizedUser config session references.userOptions request.username request.context
  pure ⟨session, desired, references, userId, created⟩

/-- What a reconciliation knows when it has planned. -/
structure Planned where
  session : GlpiSession
  desired : List CanonicalAssignment
  references : References
  userId : Nat
  created : Nat
  current : List CurrentRow
  desiredResolved : List DesiredAssignment

/-- The read of the assignments of the user of a request. -/
def Planned.read (config : ValidatedConfig) (request : AdapterRequest) (p : Planned) : Io (List CurrentRow) :=
  readCurrentAssignments config p.session p.references.profileUserOptions request.username p.userId request.context

/-- Everything before the first assignment is changed. -/
def plan (config : ValidatedConfig) (request : AdapterRequest) : Io Planned := do
  let desired ← acceptRequest request
  let session ← timed config request.context (initSession config)
  let references ← prepare config session desired request.context
  let (userId, created) ←
    synchronizedUser config session references.userOptions request.username request.context
  let current ←
    readCurrentAssignments config session references.profileUserOptions request.username userId request.context
  let desiredResolved ← .lift (resolveDesired references.resolved desired)
  pure ⟨session, desired, references, userId, created, current, desiredResolved⟩

def Planned.plan (p : Planned) : Plan := compute p.current p.desiredResolved

/-- The plan is applied and its result verified. -/
def execute (config : ValidatedConfig) (request : AdapterRequest) (p : Planned) : Io ReconciliationOutcome := do
  let total ← applyPlan config p.session p.userId request.context p.plan p.created
  verifyAssignments config p.session p.references.profileUserOptions request.username p.userId p.desiredResolved
    request.context
  pure (if 0 < total then .changed else .unchanged)

theorem primary_eq : primary config request = Glpi.plan config request >>= execute config request := by
  simp [primary, Glpi.plan, execute, reconcileWithSession, reconcileAssignments, Planned.plan]

/-- A reconciliation goes on with the user that it has identified. -/
theorem primary_eq_identify : primary config request = identify config request >>= fun i =>
    reconcileAssignments config i.session i.references request.username i.desired i.userId i.created
      request.context := by
  simp [primary, identify, reconcileWithSession]

theorem plan_sat {S : Request → Prop} {P Q : Trace → Prop} (h : Admits config request.context S P Q)
    (hinit : S .initSession) (hread : ∀ r, r.isRead = true → S r)
    (hpost : S (.postUser request.username config.authenticationSource)) :
    (Glpi.plan config request).Sat P Q := by
  have hc := h.toComposable
  have hsearch : ∀ q, S (.search q) := fun q => hread _ rfl
  refine .bind hc (acceptRequest_sat h) fun _ => .bind hc (initSession_sat h hinit) fun _ => ?_
  refine .bind hc (prepare_sat h hread) fun _ => .bind hc (synchronizedUser_sat h hsearch hpost) fun _ => ?_
  refine .bind hc (readCurrentAssignments_sat h hsearch fun _ => hread _ rfl) fun _ => ?_
  exact .bind hc (.lift hc) fun _ => .pure hc

/-- The parts of a completed planning. -/
structure PlanRun (config : ValidatedConfig) (request : AdapterRequest) (p : Planned)
    (tAccept tInit tPrepare tUser tRead : Trace) : Prop where
  accepted : Run (acceptRequest request) tAccept (.ok p.desired)
  began : Run (timed config request.context (initSession config)) tInit (.ok p.session)
  prepared : Run (prepare config p.session p.desired request.context) tPrepare (.ok p.references)
  user : Run (synchronizedUser config p.session p.references.userOptions request.username request.context) tUser
    (.ok (p.userId, p.created))
  read : Run (p.read config request) tRead (.ok p.current)
  resolved : resolveDesired p.references.resolved p.desired = .ok p.desiredResolved

theorem run_plan_ok {t : Trace} {p : Planned} :
    Run (Glpi.plan config request) t (.ok p) ↔
      ∃ tAccept tInit tPrepare tUser tRead, PlanRun config request p tAccept tInit tPrepare tUser tRead ∧
        t = tAccept ++ tInit ++ tPrepare ++ tUser ++ tRead := by
  constructor
  · intro h
    obtain ⟨desired, t₁, _, rfl, ha, h⟩ := run_bind_ok.mp h
    obtain ⟨session, t₂, _, rfl, hi, h⟩ := run_bind_ok.mp h
    obtain ⟨references, t₃, _, rfl, hp, h⟩ := run_bind_ok.mp h
    obtain ⟨⟨userId, created⟩, t₄, _, rfl, hu, h⟩ := run_bind_ok.mp h
    obtain ⟨current, t₅, _, rfl, hr, h⟩ := run_bind_ok.mp h
    rcases run_lift_bind.mp h with ⟨_, _, _, he⟩ | ⟨desiredResolved, hd, h⟩
    · cases he
    · obtain ⟨rfl, hp'⟩ := run_pure.mp h
      cases hp'
      exact ⟨t₁, t₂, t₃, t₄, t₅, ⟨ha, hi, hp, hu, hr, hd⟩, by simp⟩
  · rintro ⟨t₁, t₂, t₃, t₄, t₅, hp, rfl⟩
    simp only [List.append_assoc]
    refine Run.bind hp.accepted (Run.bind hp.began (Run.bind hp.prepared (Run.bind hp.user ?_)))
    rw [← List.append_nil t₅]
    exact Run.bind hp.read (run_lift_bind.mpr (Or.inr ⟨_, hp.resolved, run_pure.mpr ⟨rfl, rfl⟩⟩))

theorem run_execute_ok {t : Trace} {p : Planned} {outcome : ReconciliationOutcome} :
    Run (execute config request p) t (.ok outcome) ↔
      ∃ total tApply tVerify, t = tApply ++ tVerify ∧
        Run (applyPlan config p.session p.userId request.context p.plan p.created) tApply (.ok total) ∧
        Run (verifyAssignments config p.session p.references.profileUserOptions request.username p.userId
          p.desiredResolved request.context) tVerify (.ok ()) ∧
        outcome = if 0 < total then .changed else .unchanged := by
  constructor
  · intro h
    obtain ⟨total, t₁, _, rfl, ha, h⟩ := run_bind_ok.mp h
    obtain ⟨⟨⟩, t₂, _, rfl, hv, h⟩ := run_bind_ok.mp h
    obtain ⟨rfl, ho⟩ := run_pure.mp h
    exact ⟨total, t₁, t₂, by simp, ha, hv, Except.ok.inj ho⟩
  · rintro ⟨total, t₁, t₂, rfl, ha, hv, rfl⟩
    rw [← List.append_nil t₂]
    exact Run.bind ha (Run.bind hv (run_pure.mpr ⟨rfl, rfl⟩))

/-- A completed verification is a complete read that the plan would not change. -/
theorem run_verifyAssignments_ok {options : SearchOptions} {username : String} {userId : Nat}
    {desired : List DesiredAssignment} {t : Trace} :
    Run (verifyAssignments config session options username userId desired context) t (.ok ()) ↔
      ∃ n tRead verified, n < context.deadline ∧ t = [polled false, clock n] ++ tRead ∧
        Run (readCurrentAssignments config session options username userId context) tRead (.ok verified) ∧
        isCanonical verified desired = true := by
  constructor
  · intro h
    obtain ⟨⟨⟩, t₁, _, rfl, hc, hk⟩ := run_bind_ok.mp h
    obtain ⟨n, rfl, hn⟩ := run_checkContext_ok.mp hc
    obtain ⟨verified, t₂, _, rfl, hr, hl⟩ := run_bind_ok.mp hk
    obtain ⟨rfl, he⟩ := run_lift.mp hl
    exact ⟨n, t₂, verified, hn, by simp, hr, ensure_eq_ok.mp he.symm⟩
  · rintro ⟨n, t₂, verified, hn, rfl, hr, hcan⟩
    rw [← List.append_nil t₂]
    refine Run.bind (run_checkContext_ok.mpr ⟨n, rfl, hn⟩) (Run.bind hr (run_lift.mpr ⟨rfl, ?_⟩))
    exact (ensure_of hcan _).symm

/-- The parts of a reconciliation that succeeds. -/
theorem run_primary_ok {t : Trace} {outcome : ReconciliationOutcome} :
    Run (primary config request) t (.ok outcome) ↔
      ∃ p tPlan tExecute, t = tPlan ++ tExecute ∧ Run (Glpi.plan config request) tPlan (.ok p) ∧
        Run (execute config request p) tExecute (.ok outcome) := by
  rw [primary_eq, run_bind_ok]

/-- The phases in order are a reconciliation. -/
theorem run_reconcile_of_phases {tPlan tExecute tEnd : Trace} {p : Planned} {outcome : ReconciliationOutcome}
    {r : Except GlpiFailure ReconciliationOutcome} (hplan : Run (Glpi.plan config request) tPlan (.ok p))
    (hexecute : Run (execute config request p) tExecute (.ok outcome))
    (hend : Run (cleanup config p.session request.context (.ok outcome)) tEnd r) :
    Run (reconcile config request) (tPlan ++ tExecute ++ tEnd) r := by
  obtain ⟨tA, tI, tP, tU, tR, hp, rfl⟩ := run_plan_ok.mp hplan
  obtain ⟨total, tApply, tVerify, rfl, happly, hverify, rfl⟩ := run_execute_ok.mp hexecute
  have hsession : Run (reconcileWithSession config p.session request.username p.desired request.context)
      (tP ++ (tU ++ (tR ++ (tApply ++ (tVerify ++ []))))) (.ok (if 0 < total then .changed else .unchanged)) := by
    refine Run.bind hp.prepared (Run.bind hp.user (Run.bind hp.read ?_))
    refine run_lift_bind.mpr (Or.inr ⟨_, hp.resolved, Run.bind happly (Run.bind hverify ?_)⟩)
    exact run_pure.mpr ⟨rfl, rfl⟩
  have hrun : Run (reconcile config request) _ r :=
    Run.bind hp.accepted (Run.bind hp.began (run_attempt_bind.mpr ⟨_, _, _, rfl, hsession, hend⟩))
  simpa using hrun

end PermissionSync.Glpi
