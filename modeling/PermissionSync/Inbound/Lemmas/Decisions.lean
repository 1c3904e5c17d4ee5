import PermissionSync.Core.Lemmas.Checks
import PermissionSync.Inbound.Handler

/-!
# What the handler decides while its context stays available
-/

namespace PermissionSync.Inbound

open PermissionSync.Base PermissionSync.Core PermissionSync.Auth PermissionSync.Orchestration PermissionSync.Wire

variable {ε : Type} {read : JsonReader} {synchronizer : Synchronizer} {headers : List HeaderField} {body : InboundBody}
  {context : SynchronizationContext} {t : Trace} {outcome : HttpOutcome}

/-- How the handler ends after the authentication: by its failure, by the body, without a target, or by a
synchronization. -/
inductive Decision (read : JsonReader) (synchronizer : Synchronizer) (body : InboundBody)
    (context : SynchronizationContext) :
    Except AuthenticationError AuthenticatedTechnicalCaller → Trace → HttpOutcome → Prop where
  | unauthenticated {error : AuthenticationError} {t : Trace} (polls : ∀ e ∈ t, Polls e) :
      Decision read synchronizer body context (.error error) t (authenticationFailureOutcome error)
  | invalidBody {caller : AuthenticatedTechnicalCaller} {t : Trace} (polls : ∀ e ∈ t, Polls e)
      (refused : acceptedBody read body = none) : Decision read synchronizer body context (.ok caller) t .invalidRequest
  | targetless {caller : AuthenticatedTechnicalCaller} {login : LoginBody} {t : Trace} (polls : ∀ e ∈ t, Polls e)
      (accepted : acceptedBody read body = some login) (unselected : caller.targetSelection = .noTarget) :
      Decision read synchronizer body context (.ok caller) t .targetlessNoop
  | synchronized {caller : AuthenticatedTechnicalCaller} {login : LoginBody} {target : LogicalTarget} {t t' : Trace}
      {result : Except SelectedTargetSynchronizationError ReconciliationOutcome} (polls : ∀ e ∈ t, Polls e)
      (accepted : acceptedBody read body = some login) (selected : caller.targetSelection = .selected target)
      (run : Run (synchronize synchronizer ⟨⟨login.username, login.groups⟩, target, caller.bearerToken, context⟩) t'
        result) :
      Decision read synchronizer body context (.ok caller) (t ++ t') (synchronizationOutcome result)

/-- A decision after further checks. -/
theorem Decision.after {x : Except AuthenticationError AuthenticatedTechnicalCaller} {checks : Trace}
    (hchecks : ∀ e ∈ checks, Polls e) (h : Decision read synchronizer body context x t outcome) :
    Decision read synchronizer body context x (checks ++ t) outcome := by
  have hmore : ∀ {t : Trace}, (∀ e ∈ t, Polls e) → ∀ e ∈ checks ++ t, Polls e :=
    fun ht e he => (List.mem_append.mp he).elim (hchecks e) (ht e)
  cases h with
  | unauthenticated polls => exact .unauthenticated (hmore polls)
  | invalidBody polls refused => exact .invalidBody (hmore polls) refused
  | targetless polls accepted unselected => exact .targetless (hmore polls) accepted unselected
  | synchronized polls accepted selected run =>
      rw [← List.append_assoc]
      exact .synchronized (hmore polls) accepted selected run

theorem run_whileAvailable {next : Io ε HttpOutcome} {r : Except ε HttpOutcome}
    (h : Run (whileAvailable context next) t r) (hclear : Clear context t) :
    ∃ checks t', t = checks ++ t' ∧ (∀ e ∈ checks, Polls e) ∧ Run next t' r := by
  rcases run_bind.mp h with ⟨e, hcheck, _⟩ | ⟨stopped, checks, t', rfl, hcheck, hnext⟩
  · obtain ⟨_, _, hr, _⟩ := polls_of_unavailable hcheck
    cases hr
  · obtain ⟨hpolls, stopped', hr, hstopped⟩ := polls_of_unavailable hcheck
    cases hr
    rw [hstopped.mpr (clear_append.mp hclear).1] at hnext
    exact ⟨checks, t', rfl, hpolls, hnext⟩

theorem handleAuthenticated_decides {caller : AuthenticatedTechnicalCaller}
    (h : Run (handleAuthenticated read synchronizer caller.bearerToken caller.targetSelection body context :
      Io ε HttpOutcome)
      t (.ok outcome)) (hclear : Clear context t) : Decision read synchronizer body context (.ok caller) t outcome := by
  obtain ⟨checks, t', rfl, hchecks, hnext⟩ := run_whileAvailable h hclear
  refine Decision.after hchecks ?_
  cases haccepted : acceptedBody read body with
  | none =>
      rw [haccepted] at hnext
      obtain ⟨rfl, ho⟩ := run_pure.mp hnext
      cases ho
      exact .invalidBody (by simp) haccepted
  | some login =>
      rw [haccepted] at hnext
      cases hselection : caller.targetSelection with
      | noTarget =>
          rw [hselection] at hnext
          obtain ⟨checks', t'', rfl, hchecks', hend⟩ := run_whileAvailable hnext (clear_append.mp hclear).2
          obtain ⟨rfl, ho⟩ := run_pure.mp hend
          cases ho
          exact .targetless (by simpa using hchecks') haccepted hselection
      | selected target =>
          rw [hselection] at hnext
          obtain ⟨result, t₁, t₂, rfl, hrun, hend⟩ := run_attempt_bind.mp hnext
          obtain ⟨rfl, ho⟩ := run_pure.mp hend
          cases ho
          rw [List.append_nil]
          exact .synchronized (t := []) (by simp) haccepted hselection hrun

/-- In a context that stays available, the handler authenticates once and then decides. -/
theorem handle_decides (h : Run (handle read synchronizer headers body context : Io ε HttpOutcome) t (.ok outcome))
    (hclear : Clear context t) :
    ∃ checks x t', t = checks ++ ⟨.authenticate (extractBearer headers) context, x⟩ :: t' ∧
      (∀ e ∈ checks, Polls e) ∧ Decision read synchronizer body context x t' outcome := by
  obtain ⟨checks₁, t₁, rfl, hchecks₁, h₁⟩ := run_whileAvailable h hclear
  obtain ⟨checks₂, t₂, rfl, hchecks₂, h₂⟩ := run_whileAvailable h₁ (clear_append.mp hclear).2
  obtain ⟨x, t₃, rfl, h₃⟩ := run_ask_bind.mp h₂
  simp only [clear_append, clear_cons] at hclear
  obtain ⟨checks₃, t₄, rfl, hchecks₃, h₄⟩ := run_whileAvailable h₃ hclear.2.2.2
  refine ⟨checks₁ ++ checks₂, x, checks₃ ++ t₄, by simp, fun e he => ?_, Decision.after hchecks₃ ?_⟩
  · exact (List.mem_append.mp he).elim (hchecks₁ e) (hchecks₂ e)
  · cases x with
    | error error =>
        obtain ⟨rfl, ho⟩ := run_pure.mp h₄
        cases ho
        exact .unauthenticated (by simp)
    | ok caller => exact handleAuthenticated_decides h₄ (clear_append.mp hclear.2.2.2).2

end PermissionSync.Inbound
