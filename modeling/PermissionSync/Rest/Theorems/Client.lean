import PermissionSync.Net.Lemmas.Attempt
import PermissionSync.Net.Lemmas.Outcome
import PermissionSync.Rest.Client
import PermissionSync.Wire.Lemmas.Document

/-!
# One resolution of the generic REST Provider
-/

namespace PermissionSync.GenericRest

open PermissionSync.Base PermissionSync.Core PermissionSync.Net PermissionSync.Wire
open PermissionSync.Base.Tracks (Returns)
open PermissionSync.Glpi (operationDeadline)

variable {N : Type} {lib : Library N} {provider : Provider N} {request : PermissionProviderRequest}
  {t : List (Event (bounded N))} {r : Except ProviderFailure DesiredStateEnvelope}

/-! ## A sample -/

theorem sampleEndpoint_valid : "provider.test" ≠ "" ∧ "/resolve" ≠ "" ∧ '@' ∉ "provider.test".toList := by decide

def sampleEndpoint : Endpoint :=
  ⟨"provider.test", "provider.test", none, "/resolve", sampleEndpoint_valid.1, sampleEndpoint_valid.2.1,
    sampleEndpoint_valid.2.2⟩

def sampleNameServer : UdpNameServer := ⟨⟨.v4 3221225985, 53⟩, none⟩

def sampleProvider : Provider String := ⟨sampleEndpoint, ⟨443, .hostname "provider.test" sampleNameServer⟩, 20⟩

def sampleLibrary : Library String where
  parseUri _ := some ⟨some .https, some "provider.test", some "provider.test", none, "/resolve", none⟩
  parseIp _ := none
  parseName name := some name
  parseMime _ := some ⟨"application", "json", []⟩

theorem sampleTarget_valid : isLogicalTarget "glpi" = true := by decide

def sampleRequest : PermissionProviderRequest :=
  ⟨⟨"alice", ["/staff"]⟩, ⟨"glpi", sampleTarget_valid⟩, "token", ⟨100, 0⟩⟩

def sampleHttpRequest : HttpRequest where
  method := .post
  target := "/resolve"
  headers := [("host", "provider.test"), ("content-type", "application/json"), ("accept", "application/json"),
    ("accept-encoding", ""), ("authorization", "Bearer token")]
  body := serializeRequestBody ⟨"alice", ["/staff"]⟩

def sampleAnswers : Answer String × Answer String :=
  (⟨3, .ok ⟨.noError, false, [⟨"provider.test", .a 3221225986⟩]⟩⟩, ⟨1, .error .timeout⟩)

/-- A check at the time. -/
def sampleCheck (t : Nat) : List (Event (bounded String)) := [⟨.isCancelled 0, .ok false⟩, ⟨.now, .ok t⟩]

/-- A resolution up to the request. -/
def sampleOpening : List (Event (bounded String)) :=
  sampleCheck 1 ++ [⟨.tryCurrent, .ok true⟩] ++ sampleCheck 2 ++ sampleCheck 3 ++
    [⟨.now, .ok 4⟩, ⟨.queries "provider.test" sampleNameServer 17, .ok sampleAnswers⟩] ++ sampleCheck 5 ++
    [⟨.connect ⟨.v4 3221225986, 443⟩, .ok true⟩] ++ sampleCheck 6 ++ [⟨.tlsConnect "provider.test", .ok true⟩] ++
    sampleCheck 7 ++ [⟨.handshake, .ok true⟩] ++ sampleCheck 8

def sampleUnanswered : List (Event (bounded String)) := sampleOpening ++ [⟨.sendRequest sampleHttpRequest, .ok none⟩]

/-- A version and an empty payload, in two frames. -/
def sampleResponse : HttpResponse where
  status := 200
  headers := [("content-type", asBytes "application/json")]
  frames := [.data (asBytes "\x7b\"version\":1,"), .data (asBytes "\"payload\":\x7b\x7d\x7d")]

def sampleAnswered : List (Event (bounded String)) :=
  sampleOpening ++ [⟨.sendRequest sampleHttpRequest, .ok (some sampleResponse)⟩] ++
    sampleCheck 9 ++ [⟨.frame, .ok ()⟩] ++ sampleCheck 10 ++ [⟨.frame, .ok ()⟩] ++ sampleCheck 11 ++
    [⟨.frame, .ok ()⟩] ++ sampleCheck 12 ++ sampleCheck 13 ++ sampleCheck 14

/-- The clock has reached the twenty units after the first reading, long before the caller's deadline. -/
def sampleExpired : List (Event (bounded String)) := sampleCheck 1 ++ [⟨.tryCurrent, .ok true⟩] ++ sampleCheck 21

theorem sampleUnanswered_run :
    Run (resolve sampleLibrary sampleProvider sampleRequest) sampleUnanswered (.error .transport) :=
  run_of_follow (by decide +kernel)

theorem sampleAnswered_run :
    Run (resolve sampleLibrary sampleProvider sampleRequest) sampleAnswered (.ok ⟨1, "\x7b\x7d"⟩) :=
  run_of_follow (by decide +kernel)

theorem sampleExpired_run :
    Run (resolve sampleLibrary sampleProvider sampleRequest) sampleExpired (.error .deadlineExceeded) :=
  run_of_follow (by decide +kernel)

/-! ## The beginning -/

theorem run_effectiveDeadline {context : SynchronizationContext} {operationTimeout : Nat}
    {r : Except ProviderFailure Instant}
    (h : Run (timeoutAt failures (effectiveDeadline context operationTimeout)) t r) :
    (t = [⟨.isCancelled context.cancellation, .ok true⟩] ∧ r = .error .cancelled) ∨
    (∃ x : Nat, context.deadline ≤ x ∧
      t = [⟨.isCancelled context.cancellation, .ok false⟩, ⟨.now, .ok x⟩] ∧ r = .error .deadlineExceeded) ∨
    ∃ x : Nat, x < context.deadline ∧ t = [⟨.isCancelled context.cancellation, .ok false⟩, ⟨.now, .ok x⟩] ∧
      r = .ok (operationDeadline ⟨context.deadline⟩ operationTimeout x) := by
  rcases run_timeoutAt_ask_bind.mp h with ⟨cancelled, t₁, rfl, h₁⟩ | ⟨x, _⟩
  · cases cancelled with
    | true =>
        obtain ⟨rfl, rfl⟩ := run_fail.mp h₁
        exact Or.inl ⟨rfl, rfl⟩
    | false =>
        rcases run_timeoutAt_ask_bind.mp h₁ with ⟨x, t₂, rfl, h₂⟩ | ⟨x, _⟩
        · split at h₂
          · obtain ⟨rfl, rfl⟩ := run_fail.mp h₂
            exact Or.inr (Or.inl ⟨x, ‹_›, rfl, rfl⟩)
          · obtain ⟨rfl, rfl⟩ := run_pure.mp h₂
            exact Or.inr (Or.inr ⟨x, Nat.lt_of_not_le ‹_›, rfl, rfl⟩)
        · cases x
  · cases x

variable [BEq N] [EquivBEq N]

/-- A resolution ends before its attempt, or has its deadline and goes on. -/
theorem resolve_cases (h : Run (resolve lib provider request) t r) :
    (t = [⟨.isCancelled request.context.cancellation, .ok true⟩] ∧ r = .error .cancelled) ∨
    (∃ x : Nat, request.context.deadline ≤ x ∧
      t = [⟨.isCancelled request.context.cancellation, .ok false⟩, ⟨.now, .ok x⟩] ∧ r = .error .deadlineExceeded) ∨
    ∃ (x : Nat) (ok : Bool) (u : List (Event (bounded N))), x < request.context.deadline ∧
      t = [⟨.isCancelled request.context.cancellation, .ok false⟩, ⟨.now, .ok x⟩, ⟨.tryCurrent, .ok ok⟩] ++ u ∧
      Run (timeoutAt failures (if ok then
        resolveWithinDeadline lib provider request
          (operationDeadline ⟨request.context.deadline⟩ provider.operationTimeout x)
        else .fail .runtimeUnavailable)) u r := by
  rw [resolve, timeoutAt, interruptible_bind] at h
  rcases run_bind.mp h with ⟨e, hfail, rfl⟩ | ⟨deadline, t₁, t₂, rfl, hfirst, hrest⟩
  · rcases run_effectiveDeadline hfail with ⟨rfl, he⟩ | ⟨x, hx, rfl, he⟩ | ⟨x, _, _, he⟩
    · cases he
      exact Or.inl ⟨rfl, rfl⟩
    · cases he
      exact Or.inr (Or.inl ⟨x, hx, rfl, rfl⟩)
    · cases he
  · rcases run_effectiveDeadline hfirst with ⟨_, he⟩ | ⟨_, _, _, he⟩ | ⟨x, hx, rfl, he⟩
    · cases he
    · cases he
    · cases he
      rcases run_timeoutAt_ask_bind.mp hrest with ⟨ok, u, rfl, h₃⟩ | ⟨x, _⟩
      · exact Or.inr (Or.inr ⟨x, ok, u, hx, rfl, h₃⟩)
      · cases x

/-! ## The attempt -/

/-- Where an attempt begins. -/
def EndpointHost.start (endpointHost : EndpointHost N) : Stage :=
  match endpointHost.kind with
  | .literal address => .connecting address
  | .hostname _ nameServer => .resolving (some nameServer)

def EndpointHost.name (endpointHost : EndpointHost N) : Option N :=
  match endpointHost.kind with
  | .literal _ => none
  | .hostname name _ => some name

omit [BEq N] [EquivBEq N] in
theorem isStart_start (endpointHost : EndpointHost N) : endpointHost.start.isStart = true := by
  unfold EndpointHost.start
  split <;> rfl

/-- What the attempt of a resolution is for. -/
def plan (provider : Provider N) (request : PermissionProviderRequest) (httpRequest : HttpRequest)
    (deadline : Instant) : Plan N where
  name := provider.endpointHost.name
  port := provider.endpointHost.port
  domain := bareHost provider.endpoint
  request := httpRequest
  signal := some request.context.cancellation
  deadline := deadline

variable {httpRequest : HttpRequest} {deadline : Instant} {s : Standing}

theorem guides_resolveOneAddress (hstage : s.stage = provider.endpointHost.start)
    (halive : (plan provider request httpRequest deadline).Alive s) :
    (plan provider request httpRequest deadline).Guides failures s (resolveOneAddress provider.endpointHost deadline)
      fun address s' => s'.stage = .connecting address.ip ∧ address.port = provider.endpointHost.port := by
  cases hkind : provider.endpointHost.kind with
  | literal address =>
      rw [EndpointHost.start, hkind] at hstage
      rw [resolveOneAddress, hkind]
      exact Tracks.pure ⟨hstage, rfl⟩
  | hostname name nameServer =>
      rw [EndpointHost.start, hkind] at hstage
      have hname : (plan provider request httpRequest deadline).name = some name := by
        simp [plan, EndpointHost.name, hkind]
      rw [resolveOneAddress, hkind]
      refine Tracks.returns_bind (guides_resolveHostname hname hstage halive) fun ip s' hs' => ?_
      exact Tracks.pure ⟨hs', rfl⟩

theorem guides_readResponse {response : HttpResponse} (hstage : s.stage = .receiving)
    (halive : (plan provider request httpRequest deadline).Alive s) :
    (plan provider request httpRequest deadline).Guides failures s (readResponse lib request.context deadline response)
      fun _ _ => True := by
  unfold readResponse
  split
  · exact Tracks.fail trivial
  · refine Tracks.returns_bind (guides_lift (Q := fun _ s' => s' = s) fun _ _ => rfl) fun _ s₁ hs₁ => ?_
    subst hs₁
    refine Tracks.returns_bind (Q := fun _ _ => True) ?_ fun body s₂ _ => ?_
    · refine Tracks.returns_bind (guides_readFrames hstage halive) fun bytes s₃ _ => ?_
      exact guides_check_bind fun _ _ _ => Tracks.pure trivial
    · refine guides_check_bind fun s₃ _ _ => ?_
      refine Tracks.returns_bind (guides_lift (Q := fun _ _ => True) fun _ _ => trivial) fun envelope s₄ _ => ?_
      exact guides_check_bind fun _ _ _ => Tracks.pure trivial

theorem guides_resolveWithinDeadline (hrequest : outboundRequest provider request = .ok httpRequest)
    (hstage : s.stage = provider.endpointHost.start) :
    (plan provider request httpRequest deadline).Guides failures s (resolveWithinDeadline lib provider request deadline)
      fun _ _ => True := by
  refine guides_check_bind fun s₁ hstage₁ _ => ?_
  rw [hrequest]
  refine guides_attempt (hstage₁.trans hstage) (fun s₂ hstage₂ halive₂ => guides_resolveOneAddress hstage₂ halive₂) ?_
  exact fun response s₂ hstage₂ halive₂ => guides_readResponse hstage₂ halive₂

/-- Without a request the network is not used. -/
theorem only_resolveWithinDeadline {f : ProviderFailure} (hrequest : outboundRequest provider request = .error f) :
    Only (fun o : Op N => o.network = false) (resolveWithinDeadline lib provider request deadline) := by
  refine Only.bind only_check fun _ => ?_
  rw [hrequest]
  exact Only.fail

/-- A resolution does not use the network, or follows the plan of its request from some point on. -/
theorem resolve_follows (h : Run (resolve lib provider request) t r) : (∀ e ∈ t, e.op.network = false) ∨
    ∃ httpRequest deadline pre u, outboundRequest provider request = .ok httpRequest ∧
      deadline ≤ request.context.deadline ∧ t = pre ++ u ∧ (∀ e ∈ pre, e.op.network = false) ∧
      (plan provider request httpRequest deadline).Follows failures provider.endpointHost.start u := by
  rcases resolve_cases h with ⟨rfl, _⟩ | ⟨x, _, rfl, _⟩ | ⟨x, ok, u, hx, rfl, hrun⟩
  · exact Or.inl (by simp [Op.network])
  · exact Or.inl (by simp [Op.network])
  · have hbefore :
        ∀ e ∈ ([⟨.isCancelled request.context.cancellation, .ok false⟩, ⟨.now, .ok x⟩, ⟨.tryCurrent, .ok ok⟩] :
        List (Event (bounded N))), e.op.network = false := by
      simp [Op.network]
    cases ok with
    | false =>
        obtain ⟨rfl, _⟩ := run_fail.mp hrun
        exact Or.inl (by simpa using hbefore)
    | true =>
        cases hrequest : outboundRequest provider request with
        | error f =>
            refine Or.inl fun e he => ?_
            rcases List.mem_append.mp he with he | he
            · exact hbefore e he
            · exact (only_resolveWithinDeadline hrequest).interruptible nonempty_ans hrun e he
        | ok httpRequest =>
            refine Or.inr ⟨httpRequest, operationDeadline ⟨request.context.deadline⟩ provider.operationTimeout x, _, u,
              rfl, min_le_left _ _, rfl, hbefore, ?_⟩
            exact Tracks.interruptible nonempty_ans (guides_resolveWithinDeadline hrequest rfl) hrun

/-- Whatever the network does, a resolution sends at most one request, and the network is only used while the context is
alive. The request is the one with the caller's bearer token, and goes over a connection to the configured host that was
secured for its name. -/
theorem resolve_sends_at_most_once (h : Run (resolve lib provider request) t r) :
    t.countP isSend ≤ 1 ∧ ∃ deadline ≤ request.context.deadline,
      (∀ pre e post, t = pre ++ e :: post → e.op.network = true →
        Checked (some request.context.cancellation) deadline pre) ∧
      ∀ pre httpRequest x post, t = pre ++ ⟨.sendRequest httpRequest, x⟩ :: post →
        outboundRequest provider request = .ok httpRequest ∧ ∃ c d, pre = c ++ ⟨.handshake, .ok true⟩ :: d ∧
          Opened failures (plan provider request httpRequest deadline) provider.endpointHost.start c := by
  rcases resolve_follows h with hquiet | ⟨httpRequest, deadline, before, u, hrequest, hdeadline, rfl, hbefore, hfollows⟩
  · have hnot : ∀ pre e post, t = pre ++ e :: post → e.op.network ≠ true := by
      rintro pre e post rfl
      simp [hquiet e (List.mem_append_right _ List.mem_cons_self)]
    refine ⟨?_, request.context.deadline, le_rfl, ?_, ?_⟩
    · rw [List.countP_eq_zero.mpr fun e he hsend => ?_]
      · exact Nat.zero_le 1
      · exact absurd (network_of_isSend hsend) (by simp [hquiet e he])
    · exact fun pre e post ht hnetwork => absurd hnetwork (hnot pre e post ht)
    · exact fun pre httpRequest x post ht => absurd rfl (hnot pre _ post ht)
  · -- the operations before the attempt do not use the network
    have hlater : ∀ pre e post, before ++ u = pre ++ e :: post → e.op.network = true →
        ∃ pre', pre = before ++ pre' ∧ u = pre' ++ e :: post := by
      intro pre e post ht hnetwork
      rcases append_cons_eq_append ht.symm with ⟨post', rfl, _⟩ | ⟨pre', hpre, hu⟩
      · rw [hbefore e (List.mem_append_right _ List.mem_cons_self)] at hnetwork
        cases hnetwork
      · exact ⟨pre', hpre, hu⟩
    refine ⟨?_, deadline, hdeadline, ?_, ?_⟩
    · rw [List.countP_append, List.countP_eq_zero.mpr fun e he hsend => ?_, Nat.zero_add]
      · exact hfollows.sends_once
      · exact absurd (network_of_isSend hsend) (by simp [hbefore e he])
    · intro pre e post ht hnetwork
      obtain ⟨pre', rfl, rfl⟩ := hlater pre e post ht hnetwork
      exact (hfollows.checked hnetwork).append before
    · intro pre httpRequest' x post ht
      obtain ⟨pre', rfl, rfl⟩ := hlater pre _ post ht rfl
      obtain ⟨rfl, c, d, rfl, hopened⟩ := hfollows.sent (isStart_start _)
      exact ⟨hrequest, before ++ c, d, by simp, hopened.append before⟩

theorem sample_sends_once : sampleUnanswered.countP isSend = 1 ∧ sampleUnanswered.countP isSend ≤ 1 :=
  ⟨by decide, (resolve_sends_at_most_once sampleUnanswered_run).1⟩

/-! ## The result -/

/-- What a response stands for. -/
def interpret (lib : Library N) (response : HttpResponse) : Except ProviderFailure DesiredStateEnvelope := do
  ensure (response.status = 200) .unexpectedStatus
  let _ ← validateSuccessHeaders lib response.headers responseBodyLimitBytes
  let body ← collect failures responseBodyLimitBytes response.frames []
  parseSuccessEnvelope body

omit [BEq N] [EquivBEq N] in
theorem interpret_eq_ok {response : HttpResponse} {envelope : DesiredStateEnvelope} :
    interpret lib response = .ok envelope ↔ response.status = 200 ∧
      (∃ declaredLength, validateSuccessHeaders lib response.headers responseBodyLimitBytes = .ok declaredLength) ∧
      .failed ∉ response.frames ∧ (dataOf response.frames).length ≤ responseBodyLimitBytes ∧
      parseSuccessEnvelope (dataOf response.frames) = .ok envelope := by
  have hcollect := @collect_eq_ok _ failures responseBodyLimitBytes response.frames []
  simp [interpret, hcollect, and_assoc]

theorem limit_lt : responseBodyLimitBytes < u64Bound := by decide

theorem comes_readResponse {context : SynchronizationContext} {response : HttpResponse} :
    Comes failures deadline (readResponse lib context deadline response) fun _ r => r = interpret lib response := by
  unfold readResponse interpret
  split
  · rename_i hstatus
    exact Settles.fail (by simp [ensure, hstatus])
  · rename_i hstatus
    rw [ensure_of (not_not.mp hstatus)]
    refine Settles.bind_eq (Settles.lift rfl) fun _ _ => ?_
    have hbody : Comes failures deadline (readBody response.frames responseBodyLimitBytes context deadline : Io N _ _)
        fun _ r => r = collect failures responseBodyLimitBytes response.frames [] := by
      refine Settles.bind (comes_readFrames limit_lt response.frames []) (fun _ _ h => h) fun _ bytes h => ?_
      exact comes_check_bind (fun _ _ _ h => h) (Settles.pure h)
    refine Settles.bind_eq hbody fun body _ => ?_
    refine comes_check_bind (fun _ _ _ h => h) ?_
    refine Settles.bind (Q := fun _ r => r = parseSuccessEnvelope body) (Settles.lift rfl) (fun _ _ h => h)
      fun _ envelope h => ?_
    exact comes_check_bind (fun _ _ _ h => h) (Settles.pure h)

theorem comes_resolveOneAddress {endpointHost : EndpointHost N} :
    Comes failures deadline (resolveOneAddress endpointHost deadline) fun _ r => ∃ address, r = .ok address := by
  unfold resolveOneAddress
  split
  · exact Settles.pure ⟨_, rfl⟩
  · refine Settles.bind comes_resolveHostname (fun _ e h => ?_) fun _ ip _ => Settles.pure ⟨_, rfl⟩
    obtain ⟨_, h⟩ := h
    cases h

theorem comes_resolveWithinDeadline :
    Comes failures deadline (resolveWithinDeadline lib provider request deadline) fun t r =>
    (∃ f, outboundRequest provider request = .error f ∧ r = .error f) ∨
      ∃ httpRequest response, outboundRequest provider request = .ok httpRequest ∧
        ⟨.sendRequest httpRequest, some response⟩ ∈ t ∧ r = interpret lib response := by
  refine comes_check_bind ?_ ?_
  · rintro t u r (hfail | ⟨httpRequest, response, hrequest, hmem, hr⟩)
    · exact Or.inl hfail
    · exact Or.inr ⟨httpRequest, response, hrequest, List.mem_append_right t hmem, hr⟩
  · cases hrequest : outboundRequest provider request with
    | error f => exact Settles.fail (Or.inl ⟨f, rfl, rfl⟩)
    | ok httpRequest =>
        refine Settles.mono (comes_attempt comes_resolveOneAddress fun response => comes_readResponse) fun t r hR => ?_
        obtain ⟨response, hmem, hr⟩ := hR
        exact Or.inr ⟨httpRequest, response, rfl, hmem, hr⟩

/-- What an event reads the clock as. -/
def reading : Event (bounded N) → Option Instant
  | ⟨.now, .ok x⟩ => some x
  | _ => none

/-- The deadline in force after the operations: the caller's until the clock is read for the first time, and the one
that this reading fixes from then on. -/
def deadlineAfter (provider : Provider N) (request : PermissionProviderRequest) (t : List (Event (bounded N))) :
    Instant :=
  match t.findSome? reading with
  | some x => operationDeadline ⟨request.context.deadline⟩ provider.operationTimeout x
  | none => request.context.deadline

/-- How a resolution ends: without a request, with what the response to its request stands for, with the failure that
the answer to its last operation stands for under the deadline in force, or given up in it. -/
inductive Outcome (lib : Library N) (provider : Provider N) (request : PermissionProviderRequest) :
    List (Event (bounded N)) → Except ProviderFailure DesiredStateEnvelope → Prop
  | noRequest {t : List (Event (bounded N))} {f : ProviderFailure} : outboundRequest provider request = .error f →
      (∀ e ∈ t, e.op.network = false) → Outcome lib provider request t (.error f)
  | answered {t : List (Event (bounded N))} {httpRequest : HttpRequest} {response : HttpResponse} :
      outboundRequest provider request = .ok httpRequest → ⟨.sendRequest httpRequest, .ok (some response)⟩ ∈ t →
      Outcome lib provider request t (interpret lib response)
  | stopped (pre : List (Event (bounded N))) {e : Event (outbound N)} {f : ProviderFailure} :
      Stops failures (deadlineAfter provider request pre) e f →
        Outcome lib provider request (pre ++ [e.complete]) (.error f)
  | interrupted {pre : List (Event (bounded N))} {o : Op N} {x : Reason o} :
      Outcome lib provider request (pre ++ [Event.interrupted (I := outbound N) o x])
        (.error (failures.interrupted o x))

/-- The attempt of a resolution ends in one of the ways, whatever was done before it that used no network. -/
theorem outcome_of_attempt {before u : List (Event (bounded N))}
    (hbefore : deadlineAfter provider request before = deadline) (hread : before.findSome? reading ≠ none)
    (hquiet : ∀ f, outboundRequest provider request = .error f → ∀ e ∈ before ++ u, e.op.network = false)
    (hrun : Run (timeoutAt failures (resolveWithinDeadline lib provider request deadline)) u r) :
    Outcome lib provider request (before ++ u) r := by
  rcases comes_resolveWithinDeadline.interruptible hrun with
    ⟨u, rfl, _, hcalm⟩ | ⟨u, rfl, pre, e, f, rfl, _, hstops, rfl⟩ | ⟨u, o, x, rfl, rfl⟩
  · rcases hcalm with ⟨f, hrequest, rfl⟩ | ⟨httpRequest, response, hrequest, hmem, rfl⟩
    · exact .noRequest hrequest (hquiet f hrequest)
    · exact .answered hrequest (List.mem_append_right _ (List.mem_map_of_mem hmem))
  · -- the first reading is among the operations before the attempt, and no later one moves the deadline
    have hsame : deadlineAfter provider request (before ++ pre.map Event.complete) = deadline := by
      obtain ⟨x, hx⟩ := Option.ne_none_iff_exists'.mp hread
      rw [← hbefore, deadlineAfter, deadlineAfter, List.findSome?_append, hx, Option.some_or]
    rw [List.map_append, ← List.append_assoc]
    exact .stopped _ (hsame ▸ hstops)
  · rw [← List.append_assoc]
    exact .interrupted

/-- A resolution ends in one of the ways. An envelope is the reading of a response to the request of this resolution:
one with status 200, acceptable headers and a whole body within the limit. -/
theorem resolve_outcome (h : Run (resolve lib provider request) t r) :
    Outcome lib provider request t r ∧
      ∀ envelope, r = .ok envelope → ∃ httpRequest response, outboundRequest provider request = .ok httpRequest ∧
        ⟨.sendRequest httpRequest, .ok (some response)⟩ ∈ t ∧ response.status = 200 ∧
        (∃ declaredLength, validateSuccessHeaders lib response.headers responseBodyLimitBytes = .ok declaredLength) ∧
        .failed ∉ response.frames ∧ (dataOf response.frames).length ≤ responseBodyLimitBytes ∧
        parseSuccessEnvelope (dataOf response.frames) = .ok envelope := by
  have houtcome : Outcome lib provider request t r := by
    have hfollows := resolve_follows h
    rcases resolve_cases h with ⟨rfl, rfl⟩ | ⟨x, hx, rfl, rfl⟩ | ⟨x, ok, u, hx, rfl, hrun⟩
    · exact .stopped [] .cancelled
    · exact .stopped [_] (.late hx)
    · cases ok with
      | false =>
          obtain ⟨rfl, rfl⟩ := run_fail.mp hrun
          exact .stopped [_, _] .noRuntime
      | true =>
          refine outcome_of_attempt rfl (by simp [reading]) (fun f hrequest => hfollows.resolve_right ?_) hrun
          rintro ⟨_, _, _, _, hok, _⟩
          rw [hrequest] at hok
          cases hok
  refine ⟨houtcome, fun envelope hr => ?_⟩
  cases houtcome with
  | answered hrequest hmem => exact ⟨_, _, hrequest, hmem, interpret_eq_ok.mp hr⟩
  | noRequest | stopped | interrupted => cases hr

theorem sample_outcome : Outcome sampleLibrary sampleProvider sampleRequest sampleAnswered (.ok ⟨1, "\x7b\x7d"⟩) ∧
    parseSuccessEnvelope (dataOf sampleResponse.frames) = .ok ⟨1, "\x7b\x7d"⟩ ∧
    Outcome sampleLibrary sampleProvider sampleRequest sampleExpired (.error .deadlineExceeded) :=
  ⟨(resolve_outcome sampleAnswered_run).1, by decide +kernel, (resolve_outcome sampleExpired_run).1⟩

end PermissionSync.GenericRest
