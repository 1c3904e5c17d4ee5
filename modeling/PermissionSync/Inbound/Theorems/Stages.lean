import PermissionSync.Core.Lemmas.Checks
import PermissionSync.Inbound.Handler

/-!
# The stages of a request

Capacity, the Provider and the Adapter are called at most once and in this order, only for an authenticated caller with
a selected target and an accepted body, and only while the context is available.
-/

namespace PermissionSync.Inbound

open PermissionSync.Base PermissionSync.Core PermissionSync.Auth PermissionSync.Orchestration

/-! ## Stages -/

inductive Stage where
  | acquire
  | resolve
  | reconcile
deriving DecidableEq, Repr

/-- The stage that an operation starts. -/
def stage : Op → Option Stage
  | .acquire _ => some .acquire
  | .resolve _ => some .resolve
  | .reconcile _ _ => some .reconcile
  | _ => none

/-- The stages that the trace has started, in order. -/
def stages (t : Trace) : List Stage := t.filterMap fun e => stage e.op

@[simp] theorem stages_append (t₁ t₂ : Trace) : stages (t₁ ++ t₂) = stages t₁ ++ stages t₂ := List.filterMap_append

theorem stages_polls {t : Trace} (h : ∀ e ∈ t, Polls e) : stages t = [] := by
  rw [stages, List.filterMap_eq_nil_iff]
  intro e he
  rcases h e he with ⟨signal, hop⟩ | hop <;> rw [hop] <;> rfl

variable {read : JsonReader} {provider : Bool} {headers : List HeaderField} {body : InboundBody}
  {context : SynchronizationContext} {caller : AuthenticatedTechnicalCaller} {target : LogicalTarget}
  {login : LoginBody} {adapter : AdapterIdentifier} {h t : Trace}

/-- What has been established before a stage starts. -/
structure Prepared (read : JsonReader) (provider : Bool) (headers : List HeaderField) (body : InboundBody)
    (context : SynchronizationContext) (caller : AuthenticatedTechnicalCaller) (target : LogicalTarget)
    (login : LoginBody) (adapter : AdapterIdentifier) (h : Trace) : Prop where
  authenticated : ⟨.authenticate (extractBearer headers) context, .ok caller⟩ ∈ h
  selected : caller.targetSelection = .selected target
  accepted : acceptedBody read body = some login
  routed : ⟨.resolveTarget target, .ok adapter⟩ ∈ h
  present : provider = true
  clear : Clear context h

theorem Prepared.append (hp : Prepared read provider headers body context caller target login adapter h)
    (hclear : Clear context t) : Prepared read provider headers body context caller target login adapter (h ++ t) where
  authenticated := List.mem_append_left _ hp.authenticated
  selected := hp.selected
  accepted := hp.accepted
  routed := List.mem_append_left _ hp.routed
  present := hp.present
  clear := clear_append.mpr ⟨hp.clear, hclear⟩

/-- What the Provider is asked for the body of an authenticated caller. -/
def providerRequest (context : SynchronizationContext) (caller : AuthenticatedTechnicalCaller) (target : LogicalTarget)
    (login : LoginBody) : PermissionProviderRequest :=
  ⟨⟨login.username, login.groups⟩, target, caller.bearerToken, context⟩

/-- The stages that precede the operation, and the arguments it gets. -/
def Given (context : SynchronizationContext) (caller : AuthenticatedTechnicalCaller) (target : LogicalTarget)
    (login : LoginBody) (adapter : AdapterIdentifier) (h : Trace) : Op → Prop
  | .acquire c => stages h = [] ∧ c = context
  | .resolve request => stages h = [.acquire] ∧ request = providerRequest context caller target login
  | .reconcile a request => stages h = [.acquire, .resolve] ∧ a = adapter ∧ ∃ envelope,
      ⟨.resolve (providerRequest context caller target login), .ok envelope⟩ ∈ h ∧
        request = ⟨⟨login.username, login.groups⟩, envelope, context⟩
  | _ => False

/-- Every stage starts after what it needs, with the arguments it should get. -/
def Proper (read : JsonReader) (provider : Bool) (headers : List HeaderField) (body : InboundBody)
    (context : SynchronizationContext) (h : Trace) (e : Event service) : Prop :=
  stage e.op ≠ none → ∃ caller target login adapter,
    Prepared read provider headers body context caller target login adapter h ∧
      Given context caller target login adapter h e.op

theorem proper_of_stage {e : Event service} (he : stage e.op = none) :
    Proper read provider headers body context h e :=
  fun hne => absurd he hne

theorem proper_of_polls {e : Event service} (he : Polls e) : Proper read provider headers body context h e := by
  refine proper_of_stage ?_
  rcases he with ⟨signal, hop⟩ | hop <;> rw [hop] <;> rfl

/-- The Adapter has returned the outcome, and nothing was observed afterwards. -/
def Reconciled (context : SynchronizationContext) (outcome : ReconciliationOutcome) (t : Trace) : Prop :=
  ∃ before adapter request after, t = before ++ ⟨.reconcile adapter request, .ok outcome⟩ :: after ∧ Clear context after

theorem Reconciled.append {outcome : ReconciliationOutcome} (hr : Reconciled context outcome h)
    (hclear : Clear context t) : Reconciled context outcome (h ++ t) := by
  obtain ⟨before, a, request, after, rfl, hafter⟩ := hr
  exact ⟨before, a, request, after ++ t, by simp, clear_append.mpr ⟨hafter, hclear⟩⟩

/-! ## Synchronization -/

/-- All three stages, in their order. -/
def allStages : List Stage := [.acquire, .resolve, .reconcile]

theorem failIfCancelled_holds {R : Except SelectedTargetSynchronizationError Unit → Trace → Prop}
    (hstop : ∀ t, (∀ e ∈ t, Polls e) → R (.error .cancelled) (h ++ t))
    (hgo : ∀ t, (∀ e ∈ t, Polls e) → Clear context t → R (.ok ()) (h ++ t)) :
    Holds (Proper read provider headers body context) h (failIfCancelled context) R := by
  refine Holds.bind (Holds.unavailable (fun _ _ => proper_of_polls) fun t stopped hpolls hclear => ?_)
  cases stopped with
  | true => exact .fail (hstop t hpolls)
  | false => exact .pure (hgo t hpolls (hclear rfl))

theorem withPermit_holds (hp : Prepared read provider headers body context caller target login adapter h)
    (hstages : stages h = [.acquire]) :
    Holds (Proper read provider headers body context) h
      (withPermit adapter ⟨⟨login.username, login.groups⟩, target, caller.bearerToken, context⟩)
      fun r h' => stages h' <+: allStages ∧ ∀ outcome, r = .ok outcome → Reconciled context outcome h' := by
  refine Holds.bind (failIfCancelled_holds (fun t hpolls => ?_) fun t hpolls hclear => ?_)
  · exact ⟨by simp [hstages, stages_polls hpolls, allStages], fun _ he => by cases he⟩
  have hp₁ := hp.append hclear
  have hs₁ : stages (h ++ t) = [.acquire] := by simp [hstages, stages_polls hpolls]
  refine Holds.ask_bind (fun _ _ => ⟨caller, target, login, adapter, hp₁, hs₁, rfl⟩) fun resolution => ?_
  set h₂ := h ++ t ++ [⟨.resolve (providerRequest context caller target login), resolution⟩] with hh₂
  have hp₂ : Prepared read provider headers body context caller target login adapter h₂ :=
    hp₁.append (by simp [Stops])
  have hs₂ : stages h₂ = [.acquire, .resolve] := by
    rw [hh₂, stages_append, hs₁]
    rfl
  refine Holds.bind (.lift ?_)
  cases resolution with
  | error e => exact ⟨(hs₂ ▸ ⟨_, rfl⟩ : stages h₂ <+: allStages), fun _ he => by cases he⟩
  | ok envelope =>
      refine Holds.bind (failIfCancelled_holds (fun t' hpolls' => ?_) fun t' hpolls' hclear' => ?_)
      · have hs₃ : stages (h₂ ++ t') = [.acquire, .resolve] := by simp [hs₂, stages_polls hpolls']
        exact ⟨(hs₃ ▸ ⟨_, rfl⟩ : stages (h₂ ++ t') <+: allStages), fun _ he => by cases he⟩
      have hs₃ : stages (h₂ ++ t') = [.acquire, .resolve] := by simp [hs₂, stages_polls hpolls']
      have hresolved : ⟨.resolve (providerRequest context caller target login), .ok envelope⟩ ∈ h₂ ++ t' :=
        List.mem_append_left _ (List.mem_append_right _ (List.mem_singleton_self _))
      refine Holds.ask_bind (fun _ _ => ⟨caller, target, login, adapter, hp₂.append hclear', hs₃, rfl, envelope,
        hresolved, rfl⟩) fun reconciliation => ?_
      set h₄ := h₂ ++ t' ++ [⟨.reconcile adapter ⟨⟨login.username, login.groups⟩, envelope, context⟩, reconciliation⟩]
        with hh₄
      have hs₄ : stages h₄ = allStages := by
        rw [hh₄, stages_append, hs₃]
        rfl
      refine Holds.bind (.lift ?_)
      cases reconciliation with
      | error e => exact ⟨(hs₄ ▸ List.prefix_rfl : stages h₄ <+: allStages), fun _ he => by cases he⟩
      | ok outcome =>
          have hdone : Reconciled context outcome h₄ := ⟨_, _, _, [], rfl, clear_nil⟩
          have hs₅ : ∀ t, (∀ e ∈ t, Polls e) → stages (h₄ ++ t) <+: allStages := by
            intro t hpolls
            simp [hs₄, stages_polls hpolls]
          refine Holds.bind (failIfCancelled_holds (fun t'' hpolls'' => ?_) fun t'' hpolls'' hclear'' => ?_)
          · exact ⟨hs₅ t'' hpolls'', fun _ he => by cases he⟩
          · refine .pure ⟨hs₅ t'' hpolls'', fun o ho => ?_⟩
            cases ho
            exact hdone.append hclear''

/-- The capacity port is asked once, and its answer is what it gives. -/
theorem acquire_holds {R : Except SynchronizationCapacityError Unit → Trace → Prop}
    (hG : ∀ x, Proper read provider headers body context h ⟨.acquire context, x⟩)
    (hR : ∀ x, R x (h ++ [⟨.acquire context, x⟩])) :
    Holds (Proper read provider headers body context) h (Capacity.port.acquire context) R :=
  Holds.ask_bind hG fun x => .lift (hR x)

theorem synchronize_holds
    (hauth : ⟨.authenticate (extractBearer headers) context, .ok caller⟩ ∈ h)
    (hselected : caller.targetSelection = .selected target) (haccepted : acceptedBody read body = some login)
    (hclear : Clear context h) (hstages : stages h = []) :
    Holds (Proper read provider headers body context) h
      (synchronize ⟨provider, .port⟩ ⟨⟨login.username, login.groups⟩, target, caller.bearerToken, context⟩)
      fun r h' => stages h' <+: allStages ∧ ∀ outcome, r = .ok outcome → Reconciled context outcome h' := by
  refine Holds.bind (failIfCancelled_holds (fun t hpolls => ?_) fun t hpolls hclear₁ => ?_)
  · exact ⟨by simp [hstages, stages_polls hpolls], fun _ he => by cases he⟩
  refine Holds.bind (Holds.ask_bind (fun _ => proper_of_stage rfl) fun resolution => ?_)
  have hs₂ : stages (h ++ t ++ [⟨.resolveTarget target, resolution⟩]) = [] := by
    rw [stages_append, stages_append, hstages, stages_polls hpolls]
    rfl
  have hnone : ∀ h', stages h' = [] → ∀ e : SelectedTargetSynchronizationError, stages h' <+: allStages ∧
      ∀ outcome, (.error e : Except _ ReconciliationOutcome) = .ok outcome → Reconciled context outcome h' :=
    fun h' hs e => ⟨by simp [hs], fun _ he => by cases he⟩
  match resolution with
  | .error .unknownLogicalTarget => exact .fail (hnone _ hs₂ _)
  | .error (.unavailableAdapter _) => exact .fail (hnone _ hs₂ _)
  | .ok adapter =>
      refine .pure (Holds.bind (failIfCancelled_holds (fun t' hpolls' => ?_) fun t' hpolls' hclear' => ?_))
      · exact hnone _ (by rw [stages_append, hs₂, stages_polls hpolls']; rfl) _
      have hs₃ : stages (h ++ t ++ [⟨.resolveTarget target, .ok adapter⟩] ++ t') = [] := by
        rw [stages_append, hs₂, stages_polls hpolls']
        rfl
      cases provider with
      | false => exact .fail (hnone _ hs₃ _)
      | true =>
          have hp : Prepared read true headers body context caller target login adapter
              (h ++ t ++ [⟨.resolveTarget target, .ok adapter⟩] ++ t') := by
            refine ⟨by simp [hauth], hselected, haccepted, by simp, rfl, ?_⟩
            simp only [clear_append]
            exact ⟨⟨⟨hclear, hclear₁⟩, by simp [Stops]⟩, hclear'⟩
          refine Holds.attempt_bind (acquire_holds (fun _ _ => ⟨caller, target, login, adapter, hp, hs₃, rfl⟩)
            fun acquired => ?_)
          refine Holds.bind (.lift ?_)
          have hs₄ : stages (h ++ t ++ [⟨.resolveTarget target, .ok adapter⟩] ++ t' ++ [⟨.acquire context, acquired⟩]) =
              [.acquire] := by
            rw [stages_append, hs₃]
            rfl
          cases acquired with
          | error e => exact ⟨(hs₄ ▸ ⟨_, rfl⟩ : stages _ <+: allStages), fun _ he => by cases he⟩
          | ok u =>
              refine Holds.attempt_bind ((withPermit_holds (hp.append (by simp [Stops])) hs₄).mono ?_)
              intro outcome h' houtcome
              refine Holds.ask_bind (fun _ => proper_of_stage rfl) fun _ => .lift ⟨?_, fun o ho => ?_⟩
              · simpa [stages, stage] using houtcome.1
              · exact (houtcome.2 o ho).append (by simp [Stops])

/-! ## The handler -/

/-- What a returned outcome says about the run. -/
structure Accounted (headers : List HeaderField) (context : SynchronizationContext)
    (outcome : HttpOutcome) (t : Trace) : Prop where
  stages : stages t <+: allStages
  reconciled : ∀ o, outcome = synchronizationOutcome (.ok o) → Reconciled context o t
  targetless : outcome = .targetlessNoop → Inbound.stages t = [] ∧ ∃ caller,
    ⟨.authenticate (extractBearer headers) context, .ok caller⟩ ∈ t ∧ caller.targetSelection = .noTarget

/-- An outcome that reports no success, of a run that started no stage. -/
theorem accounted_of_none {outcome : HttpOutcome} (hs : stages t = [])
    (hne : outcome ≠ .changed ∧ outcome ≠ .unchanged ∧ outcome ≠ .targetlessNoop) :
    Accounted headers context outcome t where
  stages := by simp [hs]
  reconciled := by
    intro o ho
    cases o with
    | changed => exact absurd ho hne.1
    | unchanged => exact absurd ho hne.2.1
  targetless ht := absurd ht hne.2.2

theorem accounted_of_synchronization {r : Except SelectedTargetSynchronizationError ReconciliationOutcome}
    (hs : stages t <+: allStages) (hr : ∀ outcome, r = .ok outcome → Reconciled context outcome t) :
    Accounted headers context (synchronizationOutcome r) t where
  stages := hs
  reconciled := by
    intro o ho
    match r with
    | .ok .changed => cases o <;> cases ho; exact hr _ rfl
    | .ok .unchanged => cases o <;> cases ho; exact hr _ rfl
    | .error e => cases e <;> cases o <;> cases ho
  targetless := by
    intro ht
    match r with
    | .ok .changed => cases ht
    | .ok .unchanged => cases ht
    | .error e => cases e <;> cases ht

variable {ε : Type}

/-- An outcome that accounts for the run. -/
def Accounts (headers : List HeaderField) (context : SynchronizationContext) (r : Except ε HttpOutcome) (t : Trace) :
    Prop :=
  ∀ outcome, r = .ok outcome → Accounted headers context outcome t

theorem whileAvailable_holds {next : Io ε HttpOutcome} (hs : stages h = [])
    (hnext : ∀ t, (∀ e ∈ t, Polls e) → Clear context t →
      Holds (Proper read provider headers body context) (h ++ t) next (Accounts headers context)) :
    Holds (Proper read provider headers body context) h (whileAvailable context next) (Accounts headers context) := by
  refine Holds.bind (Holds.unavailable (fun _ _ => proper_of_polls) fun t stopped hpolls hclear => ?_)
  cases stopped with
  | true =>
      refine .pure fun outcome ho => ?_
      cases ho
      exact accounted_of_none (by simp [hs, stages_polls hpolls]) (by decide)
  | false => exact hnext t hpolls (hclear rfl)

theorem handleAuthenticated_holds (hauth : ⟨.authenticate (extractBearer headers) context, .ok caller⟩ ∈ h)
    (hclear : Clear context h) (hs : stages h = []) :
    Holds (Proper read provider headers body context) h
      (handleAuthenticated read ⟨provider, .port⟩ caller.bearerToken caller.targetSelection body context :
        Io ε HttpOutcome)
      (Accounts headers context) := by
  refine whileAvailable_holds hs fun t hpolls hclear₁ => ?_
  have hs₁ : stages (h ++ t) = [] := by simp [hs, stages_polls hpolls]
  cases haccepted : acceptedBody read body with
  | none =>
      refine .pure fun outcome ho => ?_
      cases ho
      exact accounted_of_none hs₁ (by decide)
  | some login =>
      cases hselected : caller.targetSelection with
      | noTarget =>
          refine whileAvailable_holds hs₁ fun t' hpolls' _ => .pure fun outcome ho => ?_
          cases ho
          have hs₂ : stages (h ++ t ++ t') = [] := by
            rw [stages_append, hs₁, stages_polls hpolls']
            rfl
          have hmem := List.mem_append_left t' (List.mem_append_left t hauth)
          exact ⟨hs₂ ▸ List.nil_prefix, fun o ho => (by cases o <;> cases ho), fun _ => ⟨hs₂, caller, hmem, hselected⟩⟩
      | selected target =>
          refine Holds.attempt_bind ((synchronize_holds (List.mem_append_left _ hauth) hselected haccepted
            (clear_append.mpr ⟨hclear, hclear₁⟩) hs₁).mono fun r h' hr => ?_)
          refine .pure fun outcome ho => ?_
          cases ho
          exact accounted_of_synchronization hr.1 hr.2

theorem handle_holds :
    Holds (Proper read provider headers body context) []
      (handle read ⟨provider, .port⟩ headers body context : Io ε HttpOutcome) (Accounts headers context) := by
  refine whileAvailable_holds rfl fun t₁ hpolls₁ hclear₁ => whileAvailable_holds ?_ fun t₂ hpolls₂ hclear₂ => ?_
  · simp [stages_polls hpolls₁]
  refine Holds.ask_bind (fun _ => proper_of_stage rfl) fun authentication => ?_
  have hs : stages ([] ++ t₁ ++ t₂ ++ [⟨.authenticate (extractBearer headers) context, authentication⟩]) = [] := by
    rw [stages_append, stages_append, List.nil_append, stages_polls hpolls₁, stages_polls hpolls₂]
    rfl
  have hclear :
      Clear context ([] ++ t₁ ++ t₂ ++ [⟨.authenticate (extractBearer headers) context, authentication⟩]) := by
    simp only [List.nil_append, clear_append]
    exact ⟨⟨hclear₁, hclear₂⟩, by simp [Stops]⟩
  refine whileAvailable_holds hs fun t₃ hpolls₃ hclear₃ => ?_
  have hs₃ :
      stages ([] ++ t₁ ++ t₂ ++ [⟨.authenticate (extractBearer headers) context, authentication⟩] ++ t₃) = [] := by
    rw [stages_append, hs, stages_polls hpolls₃]
    rfl
  cases authentication with
  | error error =>
      refine .pure fun outcome ho => ?_
      cases ho
      exact accounted_of_none hs₃ (by cases error <;> decide)
  | ok caller => exact handleAuthenticated_holds (by simp) (clear_append.mpr ⟨hclear, hclear₃⟩) hs₃

/-- In every run of the handler, whatever the ports and the context answer, capacity, the Provider and the Adapter are
called at most once each and in this order. Each call follows an authentication with a selected target, an accepted
login body, the resolution of that target to the Adapter and the presence of a Provider, and no check before it observed
cancellation or expiry. The calls get the identity of the body, the authenticated bearer, the envelope of the Provider
and the context of the request. A success is the Adapter's, with nothing observed afterwards, and a targetless one
started no stage. -/
theorem handle_stages {t : Trace} {outcome : HttpOutcome}
    (hrun : Run (handle read ⟨provider, .port⟩ headers body context : Io ε HttpOutcome) t (.ok outcome)) :
    stages t <+: [.acquire, .resolve, .reconcile] ∧
    (∀ pre e post, t = pre ++ e :: post → stage e.op ≠ none → ∃ caller target login adapter,
      ⟨.authenticate (extractBearer headers) context, .ok caller⟩ ∈ pre ∧
      caller.targetSelection = .selected target ∧
      acceptedBody read body = some login ∧ login.eventType = "LOGIN" ∧
      ⟨.resolveTarget target, .ok adapter⟩ ∈ pre ∧
      provider = true ∧
      Clear context pre ∧
      Given context caller target login adapter pre e.op) ∧
    (∀ o, outcome = synchronizationOutcome (.ok o) → Reconciled context o t) ∧
    (outcome = .targetlessNoop → stages t = [] ∧ ∃ caller,
      ⟨.authenticate (extractBearer headers) context, .ok caller⟩ ∈ t ∧ caller.targetSelection = .noTarget) := by
  obtain ⟨hproper, haccounts⟩ := handle_holds t _ hrun
  have haccounted := haccounts outcome rfl
  refine ⟨haccounted.stages, fun pre e post ht hstage => ?_, haccounted.reconciled, haccounted.targetless⟩
  obtain ⟨caller, target, login, adapter, hp, hgiven⟩ := hproper pre e post ht hstage
  have hlogin : login.eventType = "LOGIN" := by
    have haccepted := hp.accepted
    cases body with
    | boundExceeded => cases haccepted
    | collected bytes => simpa using (Option.filter_eq_some_iff.mp haccepted).2
  exact ⟨caller, target, login, adapter, hp.authenticated, hp.selected, hp.accepted, hlogin, hp.routed, hp.present,
    hp.clear, hgiven⟩

/-! ## A request that changes its target -/

/-- `Authorization: bearer a`. -/
def sampleHeaders : List HeaderField := [⟨authorizationName, bearerScheme ++ [32, 97]⟩]

def sampleRead : JsonReader := fun _ =>
  some (.obj [("event_type", .str "LOGIN"), ("username", .str "ada"), ("groups", .arr [.str "/staff"])])

def sampleContext : SynchronizationContext := ⟨100, 0⟩

def sampleTarget : LogicalTarget := ⟨"glpi", by decide⟩

def sampleCaller : AuthenticatedTechnicalCaller := ⟨"caller", "a", .selected sampleTarget⟩

/-- One check that finds the sample context available. -/
def samplePassed : Trace := [⟨.isCancelled 0, false⟩, ⟨.now, (1 : Nat)⟩]

def sampleTrace : Trace :=
  samplePassed ++ samplePassed ++ [⟨.authenticate (some "a") sampleContext, .ok sampleCaller⟩] ++ samplePassed ++
    samplePassed ++ samplePassed ++ [⟨.resolveTarget sampleTarget, .ok "glpi"⟩] ++ samplePassed ++
    [⟨.acquire sampleContext, .ok ()⟩] ++ samplePassed ++
    [⟨.resolve ⟨⟨"ada", ["/staff"]⟩, sampleTarget, "a", sampleContext⟩, .ok ⟨1, "payload"⟩⟩] ++ samplePassed ++
    [⟨.reconcile "glpi" ⟨⟨"ada", ["/staff"]⟩, ⟨1, "payload"⟩, sampleContext⟩, .ok .changed⟩] ++ samplePassed ++
    [⟨.dropPermit, ()⟩]

theorem sample_run : Run (handle sampleRead ⟨true, .port⟩ sampleHeaders (.collected []) sampleContext :
    Io Empty HttpOutcome) sampleTrace (.ok .changed) :=
  run_of_follow rfl

theorem sample_stages : Reconciled sampleContext .changed sampleTrace :=
  (handle_stages sample_run).2.2.1 .changed rfl

end PermissionSync.Inbound
