import PermissionSync.Auth.Theorems.Acceptance
import PermissionSync.Auth.Theorems.Scope
import PermissionSync.Inbound.Lemmas.Decisions
import PermissionSync.Runtime.Lemmas.Body
import PermissionSync.Runtime.Theorems.Grace

/-!
# The order of the checks of a request

A request that is admitted and stays in time is authenticated before its body is judged, unless the body cannot be read.
-/

namespace PermissionSync.Runtime

open PermissionSync.Auth PermissionSync.Base PermissionSync.Core PermissionSync.Inbound PermissionSync.Wire

variable {ε K V : Type} {lib : Authenticator.Libraries K V} {config : Authenticator.Config}
  {context : SynchronizationContext} {frames : List Frame} {collected : List UInt8} {t : Trace}

/-! ## The body -/

/-- What a body that arrives in time is collected as. -/
def arrivesAs : List Frame → List UInt8 → CollectedBody
  | [], collected => .collected collected
  | .failed :: _, _ => .transportFailure
  | .trailers :: frames, collected => arrivesAs frames collected
  | .data bytes :: frames, collected =>
      if inboundBodyLimitBytes < collected.length + bytes.length then .boundExceeded
      else arrivesAs frames (collected ++ bytes)

theorem collectBody_arrivesAs (context : SynchronizationContext) (frames : List Frame) (collected : List UInt8) :
    Yields (InTime context) (collectBody context frames collected : Io ε CollectedBody)
      (.ok (arrivesAs frames collected)) := by
  induction frames generalizing collected with
  | nil => exact nextFrame_yields (fun _ => id) .pure
  | cons frame frames ih =>
      cases frame with
      | failed => exact nextFrame_yields (fun _ => id) .pure
      | trailers => exact nextFrame_yields (fun _ => id) (ih collected)
      | data bytes =>
          refine nextFrame_yields (fun _ => id) ?_
          rw [arrivesAs]
          split
          · exact .pure
          · exact ih _

/-- Reading the body fails before more than the limit was received. -/
def ReadFails (frames : List Frame) : Prop :=
  ∃ front back, frames = front ++ .failed :: back ∧ .failed ∉ front ∧ (dataOf front).length ≤ inboundBodyLimitBytes

theorem arrivesAs_eq_transportFailure (hcollected : collected.length ≤ inboundBodyLimitBytes) :
    arrivesAs frames collected = .transportFailure ↔ ∃ front back, frames = front ++ .failed :: back ∧
      .failed ∉ front ∧ collected.length + (dataOf front).length ≤ inboundBodyLimitBytes := by
  induction frames generalizing collected with
  | nil => simp [arrivesAs]
  | cons frame frames ih =>
      cases frame with
      | failed => exact iff_of_true rfl ⟨[], frames, rfl, List.not_mem_nil, hcollected⟩
      | trailers =>
          rw [arrivesAs, ih hcollected]
          constructor
          · rintro ⟨front, back, rfl, hfront, hlength⟩
            exact ⟨.trailers :: front, back, rfl, by simpa using hfront, hlength⟩
          · rintro ⟨front, back, heq, hfront, hlength⟩
            cases front with
            | nil => cases heq
            | cons frame front =>
                obtain ⟨rfl, rfl⟩ := List.cons.inj heq
                exact ⟨front, back, rfl, fun h => hfront (List.mem_cons_of_mem _ h), hlength⟩
      | data bytes =>
          have hdata (front : List Frame) :
              (dataOf (.data bytes :: front)).length = bytes.length + (dataOf front).length := by
            simp [dataOf]
          rw [arrivesAs]
          split
          · rename_i hlong
            refine iff_of_false (by rintro ⟨⟩) ?_
            rintro ⟨front, back, heq, hfront, hlength⟩
            cases front with
            | nil => cases heq
            | cons frame front =>
                obtain ⟨rfl, rfl⟩ := List.cons.inj heq
                rw [hdata] at hlength
                omega
          · rename_i hfits
            rw [ih (by simpa using hfits)]
            constructor
            · rintro ⟨front, back, rfl, hfront, hlength⟩
              refine ⟨.data bytes :: front, back, rfl, by simpa using hfront, ?_⟩
              rw [hdata]
              simpa [Nat.add_assoc] using hlength
            · rintro ⟨front, back, heq, hfront, hlength⟩
              cases front with
              | nil => cases heq
              | cons frame front =>
                  obtain ⟨rfl, rfl⟩ := List.cons.inj heq
                  refine ⟨front, back, rfl, fun h => hfront (List.mem_cons_of_mem _ h), ?_⟩
                  rw [hdata] at hlength
                  simpa [Nat.add_assoc] using hlength

theorem readFails_iff : ReadFails frames ↔ arrivesAs frames [] = .transportFailure := by
  rw [arrivesAs_eq_transportFailure (Nat.zero_le _)]
  simp [ReadFails]

theorem arrivesAs_ne_unavailable : arrivesAs frames collected ≠ .unavailable := by
  induction frames generalizing collected with
  | nil => nofun
  | cons frame frames ih =>
      cases frame with
      | failed => nofun
      | trailers => exact ih
      | data bytes =>
          rw [arrivesAs]
          split
          · nofun
          · exact ih

/-! ## The answer of the authenticator -/

/-- The answer shows no cancellation and no expiry. -/
def Uninterrupted (context : SynchronizationContext) : Event (Authenticator.auth V) → Prop
  | ⟨.isCancelled _, cancelled⟩ => cancelled = false
  | ⟨.now, instant⟩ => instant < context.deadline
  | ⟨.readCache _, cache⟩ => cache.isSome = true
  | ⟨.writeCache _, cache⟩ => cache.isSome = true
  | ⟨.lockRefresh _, locked⟩ => locked = true
  | _ => True

/-- The authenticator answers for the request, in time. -/
def Answers (lib : Authenticator.Libraries K V) (config : Authenticator.Config)
    (request : Authenticator.AuthenticationRequest) (u : Authenticator.Trace V)
    (x : Except AuthenticationError AuthenticatedTechnicalCaller) : Prop :=
  Run (Authenticator.authenticate lib config request) u x ∧ ∀ e ∈ u, Uninterrupted request.context e

/-- Every authentication of the trace is answered by the authenticator. -/
def AnsweredBy (lib : Authenticator.Libraries K V) (config : Authenticator.Config) (t : Trace) : Prop :=
  ∀ credential context x, ⟨.authenticate credential context, x⟩ ∈ t → ∃ u, Answers lib config ⟨credential, context⟩ u x

theorem checkContext_yields :
    Yields (Uninterrupted context) (Authenticator.checkContext context : Authenticator.Io V Unit)
    (.ok ()) := by
  have hunavailable : Yields (Uninterrupted context) (Authenticator.unavailable context : Authenticator.Io V Bool)
      (.ok false) := by
    refine .ask_bind fun cancelled hcancelled => ?_
    obtain rfl : cancelled = false := hcancelled
    refine .ask_bind fun n hn => ?_
    have hlt : n < context.deadline := hn
    rw [decide_eq_false (Nat.not_le.mpr hlt)]
    exact .pure
  refine hunavailable.bind (g := fun _ => .ok ()) fun stopped hstopped => ?_
  cases hstopped
  exact .pure

/-- Without a credential the authenticator rejects. -/
theorem rejected_of_missing {u : Authenticator.Trace V} {x : Except AuthenticationError AuthenticatedTechnicalCaller}
    (h : Answers lib config ⟨none, context⟩ u x) : x = .error .rejected := by
  have hpreflight : Yields (Uninterrupted context)
      (Authenticator.preflight lib config ⟨none, context⟩ : Authenticator.Io V _) (.error .rejected) :=
    checkContext_yields.bind (g := fun _ => .error .rejected) fun _ _ =>
      Yields.lift.bind (g := fun _ => .error .rejected) fun _ htoken => by cases htoken
  refine (hpreflight.bind (g := fun _ => .error .rejected) fun _ hok => nomatch hok) u x h.2 h.1

/-- Several tokens of the scope start with `permissionsync:`, or one whose rest is no target. -/
def ScopeForbidden (value : Option Json) : Prop :=
  ∃ scope tokens, value = some (.str scope) ∧ Spells scope tokens ∧
    (1 < (tokens.filter startsWithTargetScope).length ∨
      ∃ target, tokens.filter startsWithTargetScope = [targetScope ++ target] ∧ ¬ TargetGrammar target)

theorem scopeForbidden_iff {scope : String} {tokens : List String} (h : Spells scope tokens) :
    ScopeForbidden (some (.str scope)) ↔ 1 < (tokens.filter startsWithTargetScope).length ∨
      ∃ target, tokens.filter startsWithTargetScope = [targetScope ++ target] ∧ ¬ TargetGrammar target := by
  constructor
  · rintro ⟨scope', tokens', hvalue, hspells, htokens⟩
    cases hvalue
    rwa [h.unique hspells]
  · exact fun htokens => ⟨scope, tokens, rfl, h, htokens⟩

theorem scopeSelection_forbidden (value : Option Json) :
    scopeSelection value = .error .forbidden ↔ ScopeForbidden value := by
  rcases malformed_or_spells value with hmalformed | rfl | ⟨scope, tokens, rfl, hspells⟩
  · rw [scopeSelection_of_malformed hmalformed]
    refine iff_of_false nofun ?_
    rintro ⟨scope, tokens, rfl, hspells, _⟩
    exact not_malformed_of_spells hspells hmalformed
  · exact iff_of_false nofun fun ⟨_, _, hnone, _⟩ => nomatch hnone
  · rw [scopeSelection_of_spells hspells, scopeForbidden_iff hspells]
    rcases selectTarget_cases tokens with ⟨hnone, hresult⟩ | ⟨target, hone, hresult⟩ | ⟨hsome, hinvalid, hresult⟩
    · rw [hresult, hnone]
      exact iff_of_false nofun (by simp)
    · rw [hresult, hone]
      refine iff_of_false nofun ?_
      rintro (hlong | ⟨target', heq, hinvalid⟩)
      · simp at hlong
      · rw [← targetScope_append_inj.mp heq] at hinvalid
        exact hinvalid (isLogicalTarget_iff.mp target.valid)
    · rw [hresult]
      refine iff_of_true rfl ?_
      match hfilter : tokens.filter startsWithTargetScope with
      | [] => exact absurd hfilter hsome
      | [token] =>
          have hmem : token ∈ tokens.filter startsWithTargetScope := by simp [hfilter]
          obtain ⟨target, rfl⟩ := startsWithTargetScope_iff.mp (List.mem_filter.mp hmem).2
          exact Or.inr ⟨target, rfl, hinvalid target hfilter⟩
      | _ :: _ :: _ => exact Or.inl (by simp)

/-- The claims of the token that the authenticator accepted, at a wall time that it read. -/
def Authenticated (lib : Authenticator.Libraries K V) (config : Authenticator.Config) (credential : Option String)
    (u : Authenticator.Trace V) (claims : List (String × Json)) : Prop :=
  ∃ token algorithm candidate, credential = some token ∧
    Authenticator.Authenticates lib config token algorithm candidate u claims

theorem forbidden_iff {u : Authenticator.Trace V} {request : Authenticator.AuthenticationRequest}
    {x : Except AuthenticationError AuthenticatedTechnicalCaller}
    (h : Run (Authenticator.authenticate lib config request) u x) (hx : Authenticator.Accepted x) :
    ∃ claims, Authenticated lib config request.rawCompactToken u claims ∧
      (x = .error .forbidden ↔ ScopeForbidden (member claims "scope")) := by
  rcases Authenticator.run_authenticate h with
    rfl | ⟨rfl, _⟩ | ⟨token, algorithm, t₀, t₁, t₂, g, c, htoken, _, htrace, _, _, hafter⟩
  · exact absurd hx (Authenticator.not_accepted nofun)
  · exact absurd hx (Authenticator.not_accepted nofun)
  obtain ⟨v, w, c', verification, hconcluded⟩ := Authenticator.concludes_of_run hafter hx
  have hclass : c' ≠ .coldOrExpired := by
    rcases hconcluded.age with rfl | ⟨rfl, _⟩ <;> nofun
  obtain ⟨pre, snapshot, body, n, _, hw, hverified⟩ := Authenticator.run_verified hclass hconcluded.run
  have hsub : body ⊆ u := by
    intro e he
    rw [htrace, hconcluded.trace, hw]
    simp [he]
  have hverdict := hverified.verdict.mono hsub
  have hresult := hconcluded.result
  simp only [← scopeSelection_forbidden]
  cases verification with
  | valid caller =>
      obtain ⟨candidate, _, claims, hauth, _, _, hscope⟩ := hverdict
      exact ⟨claims, ⟨token, algorithm, candidate, htoken, hauth⟩,
        by rw [hscope, ← hresult]; exact iff_of_false nofun nofun⟩
  | forbidden =>
      obtain ⟨candidate, _, claims, hauth, hscope⟩ := hverdict
      exact ⟨claims, ⟨token, algorithm, candidate, htoken, hauth⟩, iff_of_true hresult.symm hscope⟩
  | rejected | verifierUnavailable | noCandidate | signatureInvalid =>
      subst hresult
      exact absurd hx (Authenticator.not_accepted nofun)

/-! ## The route -/

variable {state : RuntimeState} {request : Request} {response : Response}

/-- The request is admitted and answered, and its context is never seen cancelled or expired. -/
structure InTimeRun (state : RuntimeState) (request : Request) (context : SynchronizationContext) (t : Trace)
    (response : Response) : Prop where
  run : Run (synchronizeRoute state request) t (.ok response)
  admitted : ∃ (acceptedAt : Instant) (t₁ t₂ : Trace), t = ⟨.now, acceptedAt⟩ :: (t₁ ++ t₂) ∧
    Glpi.Instant.checkedAdd acceptedAt state.overallRequestDeadline = some context.deadline ∧
    Run (admitRequest context.deadline : Io Panic Admission) t₁ (.ok .admitted)
  signal : context.cancellation = lifecycleSignal
  inTime : ∀ e ∈ t, InTime context e

/-- The request was authenticated, and the response follows the order of the checks. -/
structure Ordered (lib : Authenticator.Libraries K V) (config : Authenticator.Config) (request : Request)
    (context : SynchronizationContext) (t : Trace) (response : Response) (u : Authenticator.Trace V)
    (x : Except AuthenticationError AuthenticatedTechnicalCaller) : Prop where
  authenticated : ⟨.authenticate (extractBearer request.headers) context, x⟩ ∈ t
  answered : Answers lib config ⟨extractBearer request.headers, context⟩ u x
  missing : extractBearer request.headers = none → response = .status 401
  rejected : x = .error .rejected → response = .status 401
  forbidden : x = .error .forbidden → response = .status 403
  scope : Authenticator.Accepted x → ∃ claims, Authenticated lib config (extractBearer request.headers) u claims ∧
    (x = .error .forbidden ↔ ScopeForbidden (member claims "scope"))
  body : response = .status 400 → ∃ caller, x = .ok caller

/-- What is done once the body has arrived. -/
def handleArrived (state : RuntimeState) (request : Request) (context : SynchronizationContext) :
    CollectedBody → Io Panic HttpOutcome
  | .collected bytes => handle state.read state.synchronizer request.headers (.collected bytes) context
  | .boundExceeded => handle state.read state.synchronizer request.headers .boundExceeded context
  | .transportFailure => pure .invalidRequest
  | .unavailable => pure .cancelledOrExpired

theorem run_handleAdmitted {outcome : HttpOutcome}
    (h : Run (handleAdmitted state request context : Io Panic HttpOutcome) t (.ok outcome))
    (hin : ∀ e ∈ t, InTime context e) :
    ∃ t₁ t₂, t = t₁ ++ t₂ ∧ Run (handleArrived state request context (arrivesAs request.body [])) t₂ (.ok outcome) := by
  obtain ⟨body, t₁, t₂, rfl, hcollect, hrest⟩ := run_bind_ok.mp h
  have hbody :=
    collectBody_arrivesAs context request.body [] t₁ _ (fun e he => hin e (List.mem_append_left _ he)) hcollect
  cases hbody
  refine ⟨t₁, t₂, rfl, ?_⟩
  cases harrives : arrivesAs request.body [] <;> rw [harrives] at hrest <;> exact hrest

/-- The rest of the run after the admission. -/
theorem InTimeRun.handled (h : InTimeRun state request context t response) :
    ∃ (t₁ t₂ t₃ : Trace) (outcome : HttpOutcome), t = t₁ ++ t₂ ++ t₃ ∧ response = finish outcome ∧
      Run (handleArrived state request context (arrivesAs request.body [])) t₂ (.ok outcome) := by
  obtain ⟨acceptedAt, t₁, t₂, rfl, hdeadline, hadmission⟩ := h.admitted
  obtain ⟨acceptedAt', t', ht, hrun⟩ := run_ask_bind.mp h.run
  cases ht
  rw [hdeadline] at hrun
  have hcontext : (⟨context.deadline, lifecycleSignal⟩ : SynchronizationContext) = context := by rw [← h.signal]
  obtain ⟨outcome, u₁, u₂, rfl, hhandle, hleave⟩ := run_bind_ok.mp (hadmission.bind_iff.mp hrun)
  rw [hcontext] at hhandle
  obtain ⟨left, u₃, rfl, hrelease⟩ := run_ask_bind.mp hleave
  obtain ⟨released, u₄, rfl, hend⟩ := run_ask_bind.mp hrelease
  obtain ⟨rfl, hresponse⟩ := run_pure.mp hend
  obtain ⟨v₁, v₂, rfl, harrived⟩ := run_handleAdmitted hhandle fun e he => h.inTime e (by simp [he])
  exact ⟨⟨.now, acceptedAt⟩ :: (t₁ ++ v₁), v₂,
    [⟨.leave .admittedRequest, left⟩, ⟨.release .permits, released⟩], outcome,
    by simp, Except.ok.inj hresponse, harrived⟩

/-- A body that can be read is judged after the authentication. -/
theorem InTimeRun.ordered (h : InTimeRun state request context t response) (hanswered : AnsweredBy lib config t)
    (hbody : ¬ ReadFails request.body) : ∃ u x, Ordered lib config request context t response u x := by
  obtain ⟨t₁, t₂, t₃, outcome, rfl, rfl, hrun⟩ := h.handled
  have hclear : Clear context t₂ := fun e he => not_stops_of_inTime (h.inTime e (by simp [he]))
  obtain ⟨body, hhandle⟩ :
    ∃ body, Run (handle state.read state.synchronizer request.headers body context : Io Panic _) t₂
      (.ok outcome) := by
    cases harrives : arrivesAs request.body [] with
    | collected bytes => exact ⟨.collected bytes, by rwa [harrives] at hrun⟩
    | boundExceeded => exact ⟨.boundExceeded, by rwa [harrives] at hrun⟩
    | transportFailure => exact absurd (readFails_iff.mpr harrives) hbody
    | unavailable => exact absurd harrives arrivesAs_ne_unavailable
  obtain ⟨checks, x, rest, rfl, _, hdecision⟩ := handle_decides hhandle hclear
  have hmem : ⟨.authenticate (extractBearer request.headers) context, x⟩ ∈
      t₁ ++ (checks ++ ⟨.authenticate (extractBearer request.headers) context, x⟩ :: rest) ++ t₃ := by simp
  obtain ⟨u, hu⟩ := hanswered _ _ _ hmem
  have hrejected : x = .error .rejected → finish outcome = .status 401 := by
    rintro rfl
    cases hdecision
    rfl
  refine ⟨u, x, hmem, hu, fun hmissing => hrejected (rejected_of_missing (hmissing ▸ hu)), hrejected, ?_,
    forbidden_iff hu.1, ?_⟩
  · rintro rfl
    cases hdecision
    rfl
  · intro h400
    cases x with
    | ok caller => exact ⟨caller, rfl⟩
    | error error =>
        cases hdecision
        cases error <;> cases h400

/-- The operation is not a call of the authenticator. -/
def Unauthenticating (o : Op) : Prop := ∀ credential context, o ≠ .authenticate credential context

theorem nextFrame_only {next : Io ε CollectedBody} (h : Only Unauthenticating next) :
    Only Unauthenticating (nextFrame context .unavailable next) := by
  have hunavailable : Only Unauthenticating (unavailable context : Io ε Bool) := by
    refine .bind (.ask nofun) fun cancelled => ?_
    cases cancelled with
    | true => exact .pure
    | false => exact .bind (.ask nofun) fun _ => .pure
  refine .bind hunavailable fun stopped => .ite .pure (.bind (.ask nofun) fun arrived => ?_)
  exact .ite h .pure

theorem collectBody_only (frames : List Frame) (collected : List UInt8) :
    Only Unauthenticating (collectBody context frames collected : Io ε CollectedBody) := by
  induction frames generalizing collected with
  | nil => exact nextFrame_only .pure
  | cons frame frames ih =>
      cases frame with
      | failed => exact nextFrame_only .pure
      | trailers => exact nextFrame_only (ih collected)
      | data bytes => exact nextFrame_only (.ite .pure (ih _))

/-- The operations of a request that is admitted at once. -/
def admittedAtOnce : Trace :=
  [⟨.isShuttingDown, false⟩, ⟨.now, (0 : Nat)⟩, ⟨.tryAcquireOwned .permits, true⟩, ⟨.isShuttingDown, false⟩,
    ⟨.now, (0 : Nat)⟩, ⟨.enter .admittedRequest, ()⟩]

/-- A body that cannot be read is answered without authentication. -/
theorem exists_unauthenticated (request : Request) (hbody : ReadFails request.body) :
    ∃ state context t, InTimeRun state request context t (.status 400) ∧
      ∀ credential context' x, ⟨.authenticate credential context', x⟩ ∉ t := by
  obtain ⟨u, hu, hcollect⟩ := (collectBody_arrivesAs (ε := Panic) ⟨1, lifecycleSignal⟩ request.body []).exists_run
    (exists_inTime (by decide))
  rw [readFails_iff.mp hbody] at hcollect
  have hadmission : Run (admitRequest 1 : Io Panic Admission) admittedAtOnce (.ok .admitted) :=
    run_of_follow (by decide)
  have hhandle : Run (handleAdmitted ⟨fun _ => none, false, 1⟩ request ⟨1, lifecycleSignal⟩ : Io Panic HttpOutcome) u
      (.ok .invalidRequest) := by
    refine run_bind_ok.mpr ⟨_, u, [], by simp, hcollect, run_pure.mpr ⟨rfl, rfl⟩⟩
  refine ⟨⟨fun _ => none, false, 1⟩, ⟨1, lifecycleSignal⟩, ⟨.now, (0 : Nat)⟩ :: (admittedAtOnce ++
    (u ++ [⟨.leave .admittedRequest, ()⟩, ⟨.release .permits, ()⟩])),
      ⟨?_, ⟨0, _, _, rfl, rfl, hadmission⟩, rfl, ?_⟩, ?_⟩
  · refine run_ask_bind.mpr ⟨(0 : Nat), _, rfl, hadmission.bind (hhandle.bind ?_)⟩
    exact run_of_follow (by decide)
  · simp only [List.forall_mem_cons, List.forall_mem_append, admittedAtOnce]
    refine ⟨?_, ?_, hu, ?_⟩
    all_goals simp [InTime, Stops]
  · have hops : ∀ e ∈ (⟨.now, (0 : Nat)⟩ :: (admittedAtOnce ++
        (u ++ [⟨.leave .admittedRequest, ()⟩, ⟨.release .permits, ()⟩])) : Trace), Unauthenticating e.op := by
      simp only [List.forall_mem_cons, List.forall_mem_append, admittedAtOnce]
      refine ⟨?_, ?_, (collectBody_only request.body []).of_run hcollect, ?_⟩
      all_goals simp [Unauthenticating]
    exact fun credential context' x hmem => hops _ hmem credential context' rfl

/-- The route settles the credential before the body, unless the body cannot be read: then it never authenticates. -/
theorem synchronizeRoute_ordered (lib : Authenticator.Libraries K V)
    (config : Authenticator.Config) (request : Request) :
    (∀ state context t response, InTimeRun state request context t response → AnsweredBy lib config t →
      ∃ u x, Ordered lib config request context t response u x) ↔ ¬ ReadFails request.body := by
  constructor
  · intro hall hbody
    obtain ⟨state, context, t, hrun, hno⟩ := exists_unauthenticated request hbody
    obtain ⟨u, x, hordered⟩ := hall state context t _ hrun fun credential context' x hmem => absurd hmem (hno _ _ _)
    exact hno _ _ _ hordered.authenticated
  · exact fun hbody state context t response h hanswered => h.ordered hanswered hbody

/-- Without a credential, a body that cannot be read is a bad request. -/
theorem unreadable_body_precedes_credential :
    ¬ ∀ state context t response, InTimeRun state ⟨[], [.failed]⟩ context t response →
      AnsweredBy Authenticator.sampleLibraries Authenticator.sampleConfig t →
      ∃ u x, Ordered Authenticator.sampleLibraries Authenticator.sampleConfig ⟨[], [.failed]⟩
        context t response u x := by
  intro hall
  obtain ⟨state, context, t, hrun, hno⟩ := exists_unauthenticated ⟨[], [.failed]⟩ ⟨[], [], rfl, nofun, by decide⟩
  obtain ⟨u, x, hordered⟩ := hall state context t _ hrun fun credential context' x hmem => absurd hmem (hno _ _ _)
  cases hordered.missing rfl

end PermissionSync.Runtime
