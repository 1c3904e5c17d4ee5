import PermissionSync.Inbound.Lemmas.Decisions

/-!
# Responses that depend on no target
-/

namespace PermissionSync.Inbound

open PermissionSync.Base PermissionSync.Core PermissionSync.Auth PermissionSync.Orchestration

variable {ε : Type} {read : JsonReader} {synchronizer : Synchronizer} {headers : List HeaderField} {body : InboundBody}
  {context : SynchronizationContext} {t : Trace} {outcome : HttpOutcome}

/-- How an authenticator answers. -/
abbrev Authenticator :=
  Option String → SynchronizationContext → Except AuthenticationError AuthenticatedTechnicalCaller

/-- The authentications of the trace are answered by the authenticator. -/
def AnsweredBy (authenticator : Authenticator) (t : Trace) : Prop :=
  ∀ credential context x, ⟨.authenticate credential context, x⟩ ∈ t → x = authenticator credential context

/-- The operation is a check of the context or an authentication: no router, capacity, Provider or Adapter is
touched. -/
def TargetFree (e : Event service) : Prop := Polls e ∨ ∃ credential context, e.op = .authenticate credential context

/-- The outcome that the authentication and the body alone decide, if they do. -/
def earlyOutcome (read : JsonReader) (body : InboundBody) :
    Except AuthenticationError AuthenticatedTechnicalCaller → Option HttpOutcome
  | .error error => some (authenticationFailureOutcome error)
  | .ok caller =>
      match acceptedBody read body, caller.targetSelection with
      | none, _ => some .invalidRequest
      | some _, .noTarget => some .targetlessNoop
      | some _, .selected _ => none

/-- A decision that the authentication and the body make alone is made without the target. -/
theorem Decision.early {x : Except AuthenticationError AuthenticatedTechnicalCaller} {early : HttpOutcome}
    (h : Decision read synchronizer body context x t outcome) (he : earlyOutcome read body x = some early) :
    outcome = early ∧ ∀ e ∈ t, Polls e := by
  cases h with
  | unauthenticated polls =>
      cases he
      exact ⟨rfl, polls⟩
  | invalidBody polls refused =>
      simp only [earlyOutcome, refused] at he
      exact ⟨Option.some.inj he, polls⟩
  | targetless polls accepted unselected =>
      simp only [earlyOutcome, accepted, unselected] at he
      exact ⟨Option.some.inj he, polls⟩
  | synchronized polls accepted selected run =>
      simp only [earlyOutcome, accepted, selected] at he
      cases he

theorem handle_early {authenticator : Authenticator} {early : HttpOutcome}
    (h : Run (handle read synchronizer headers body context : Io ε HttpOutcome) t (.ok outcome))
    (hclear : Clear context t) (hauth : AnsweredBy authenticator t)
    (he : earlyOutcome read body (authenticator (extractBearer headers) context) = some early) :
    outcome = early ∧ ∀ e ∈ t, TargetFree e := by
  obtain ⟨checks, x, t', rfl, hchecks, hdecision⟩ := handle_decides h hclear
  rw [← hauth _ _ x (by simp)] at he
  obtain ⟨houtcome, hpolls⟩ := hdecision.early he
  refine ⟨houtcome, fun e hmem => ?_⟩
  rcases List.mem_append.mp hmem with hbefore | hafter
  · exact Or.inl (hchecks e hbefore)
  · rcases List.mem_cons.mp hafter with rfl | hafter
    · exact Or.inr ⟨_, _, rfl⟩
    · exact Or.inl (hpolls e hafter)

/-- Two applications with one authenticator and any routes, adapters, Provider and capacity answer a request alike, and
touch none of them, if the credential is rejected, the grant is forbidden, no target is selected, or the body is
invalid. -/
theorem handle_discloses_no_target {authenticator : Authenticator} {synchronizer₁ synchronizer₂ : Synchronizer}
    {t₁ t₂ : Trace} {outcome₁ outcome₂ : HttpOutcome}
    (hrun₁ : Run (handle read synchronizer₁ headers body context : Io ε HttpOutcome) t₁ (.ok outcome₁))
    (hrun₂ : Run (handle read synchronizer₂ headers body context : Io ε HttpOutcome) t₂ (.ok outcome₂))
    (hauth₁ : AnsweredBy authenticator t₁) (hauth₂ : AnsweredBy authenticator t₂)
    (hclear₁ : Clear context t₁) (hclear₂ : Clear context t₂)
    (hcase : authenticator (extractBearer headers) context = .error .rejected ∨
      authenticator (extractBearer headers) context = .error .forbidden ∨
      (∃ caller, authenticator (extractBearer headers) context = .ok caller ∧ caller.targetSelection = .noTarget) ∨
      acceptedBody read body = none) :
    outcome₁ = outcome₂ ∧ (∀ e ∈ t₁, TargetFree e) ∧ ∀ e ∈ t₂, TargetFree e := by
  obtain ⟨early, hearly⟩ :
      ∃ early, earlyOutcome read body (authenticator (extractBearer headers) context) = some early := by
    rcases hcase with h | h | ⟨caller, h, hnone⟩ | h
    · exact ⟨_, by rw [h, earlyOutcome]⟩
    · exact ⟨_, by rw [h, earlyOutcome]⟩
    · rw [h]
      cases hbody : acceptedBody read body with
      | none => exact ⟨.invalidRequest, by simp only [earlyOutcome, hbody]⟩
      | some login => exact ⟨.targetlessNoop, by simp only [earlyOutcome, hbody, hnone]⟩
    · cases authenticator (extractBearer headers) context with
      | error error => exact ⟨_, rfl⟩
      | ok caller => exact ⟨.invalidRequest, by simp only [earlyOutcome, h]⟩
  obtain ⟨houtcome₁, hfree₁⟩ := handle_early hrun₁ hclear₁ hauth₁ hearly
  obtain ⟨houtcome₂, hfree₂⟩ := handle_early hrun₂ hclear₂ hauth₂ hearly
  exact ⟨houtcome₁.trans houtcome₂.symm, hfree₁, hfree₂⟩

/-- A request without a credential, which the authenticator rejects. -/
def rejectedTrace : Trace :=
  [⟨.isCancelled 0, false⟩, ⟨.now, (1 : Nat)⟩, ⟨.isCancelled 0, false⟩, ⟨.now, (1 : Nat)⟩,
    ⟨.authenticate none ⟨10, 0⟩, .error .rejected⟩, ⟨.isCancelled 0, false⟩, ⟨.now, (1 : Nat)⟩]

theorem rejected_run (provider : Bool) :
    Run (handle (fun _ => none) ⟨provider, .port⟩ [] .boundExceeded ⟨10, 0⟩ : Io Empty HttpOutcome) rejectedTrace
      (.ok .authenticationRejected) := by
  cases provider <;> exact run_of_follow rfl

/-- It is answered alike with a Provider and without one. -/
theorem rejected_discloses_no_target : ∃ outcome₁ outcome₂,
    Run (handle (fun _ => none) ⟨true, .port⟩ [] .boundExceeded ⟨10, 0⟩ : Io Empty HttpOutcome)
      rejectedTrace (.ok outcome₁) ∧
    Run (handle (fun _ => none) ⟨false, .port⟩ [] .boundExceeded ⟨10, 0⟩ : Io Empty HttpOutcome)
      rejectedTrace (.ok outcome₂) ∧
    Clear ⟨10, 0⟩ rejectedTrace ∧ outcome₁ = outcome₂ ∧ ∀ e ∈ rejectedTrace, TargetFree e := by
  have hclear : Clear ⟨10, 0⟩ rejectedTrace := by simp [rejectedTrace, Stops]
  have hauth : AnsweredBy (fun _ _ => .error .rejected) rejectedTrace := by
    intro credential context x hx
    simp only [rejectedTrace, List.mem_cons, List.not_mem_nil, or_false] at hx
    rcases hx with h | h | h | h | h | h | h <;> cases h
    rfl
  obtain ⟨hsame, hfree, _⟩ :=
    handle_discloses_no_target (rejected_run true) (rejected_run false) hauth hauth hclear hclear (Or.inl rfl)
  exact ⟨_, _, rejected_run true, rejected_run false, hclear, hsame, hfree⟩

end PermissionSync.Inbound
