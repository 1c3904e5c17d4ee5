import PermissionSync.Rest.Theorems.Client

/-!
# Where the requests of a Provider go, and what they say
-/

namespace PermissionSync.GenericRest

open PermissionSync.Base PermissionSync.Core PermissionSync.Net PermissionSync.Wire
open PermissionSync.Glpi (headerValueOk)

variable {N : Type} {lib : Library N} {provider : Provider N} {request : PermissionProviderRequest}

/-! ## The configured endpoint -/

/-- The endpoint is the one of the text, with the path that an empty one stands for. -/
structure Accepts (lib : Library N) (text : String) (endpoint : Endpoint) (uri : Uri) : Prop where
  plain : ∀ c ∈ text.toList, c ≠ '\x7b' ∧ c ≠ '\x7d' ∧ c ≠ '#'
  parsed : lib.parseUri text = some uri
  https : uri.scheme = some .https
  host : uri.host = some endpoint.host
  authority : uri.authority = some endpoint.authority
  noQuery : uri.query = none
  port : endpoint.port = uri.port
  path : endpoint.path = if uri.path = "" then "/" else uri.path

theorem accepts_of_parseEndpoint {text : String} {endpoint : Endpoint} (h : parseEndpoint lib text = .ok endpoint) :
    ∃ uri, Accepts lib text endpoint uri := by
  unfold parseEndpoint at h
  split at h
  · cases h
  · rename_i hplain
    have hchars : ∀ c ∈ text.toList, c ≠ '\x7b' ∧ c ≠ '\x7d' ∧ c ≠ '#' := by
      simpa [not_or, and_assoc] using hplain
    cases hparsed : lib.parseUri text with
    | none => simp [hparsed] at h
    | some uri =>
        simp only [hparsed] at h
        split at h
        · rename_i hhost hauthority
          split_ifs at h with hvalid hpath
          · cases h
            exact ⟨uri, hchars, hparsed, hvalid.1, hhost, hauthority, hvalid.2.2.1, rfl, (if_pos hpath).symm⟩
          · cases h
            exact ⟨uri, hchars, hparsed, hvalid.1, hhost, hauthority, hvalid.2.2.1, rfl, (if_neg hpath).symm⟩
        · cases h

/-- What the host of the endpoint leads to, and what was read of the system for it: nothing for a literal, the first
usable name server for a name. -/
inductive Leads (lib : Library N) (endpoint : Endpoint) : List (Event (outbound N)) → EndpointHostKind N → Prop
  | literal {address : IpAddr} : lib.parseIp (bareHost endpoint) = some address →
      Leads lib endpoint [] (.literal address)
  | hostname {name : N} {conf : List NameServerConfig} {nameServer : UdpNameServer} :
      lib.parseIp (bareHost endpoint) = none → lib.parseName (bareHost endpoint) = some name →
      firstUdpNameServer conf = some nameServer →
      Leads lib endpoint [⟨.readSystemConf, some conf⟩] (.hostname name nameServer)

theorem leads_of_classifyEndpointHost {endpoint : Endpoint} {t : List (Event (outbound N))}
    {endpointHost : EndpointHost N} (h : Run (classifyEndpointHost lib endpoint) t (.ok endpointHost)) :
    endpointHost.port = endpoint.port.getD 443 ∧ Leads lib endpoint t endpointHost.kind := by
  unfold classifyEndpointHost at h
  cases hip : lib.parseIp (bareHost endpoint) with
  | some address =>
      simp only [hip] at h
      obtain ⟨rfl, hr⟩ := run_pure.mp h
      cases hr
      exact ⟨rfl, .literal hip⟩
  | none =>
      simp only [hip] at h
      rcases run_lift_bind.mp h with ⟨_, _, _, hr⟩ | ⟨name, hname, h⟩
      · cases hr
      · obtain ⟨nameServer, t₁, t₂, rfl, hserver, hrest⟩ := run_bind_ok.mp h
        obtain ⟨rfl, hr⟩ := run_pure.mp hrest
        cases hr
        obtain ⟨answer, t₁, rfl, hanswer⟩ := run_ask_bind.mp hserver
        obtain ⟨rfl, hr⟩ := run_lift.mp hanswer
        obtain ⟨conf, rfl, hfirst⟩ := Option.bind_eq_some_iff.mp (okOr_eq_ok.mp hr.symm)
        exact ⟨rfl, .hostname hip (okOr_eq_ok.mp hname) hfirst⟩

/-- A Provider has what was configured. -/
theorem configured_of_new {text : String} {operationTimeout : Nat} {t : List (Event (outbound N))}
    (h : Run (Provider.new lib text operationTimeout) t (.ok provider)) :
    0 < operationTimeout ∧ provider.operationTimeout = operationTimeout ∧
      (∃ uri, Accepts lib text provider.endpoint uri) ∧ provider.endpointHost.port = provider.endpoint.port.getD 443 ∧
      Leads lib provider.endpoint t provider.endpointHost.kind := by
  unfold Provider.new at h
  split at h
  · cases (run_fail.mp h).2
  · rename_i hpos
    rcases run_lift_bind.mp h with ⟨_, _, _, hr⟩ | ⟨endpoint, hendpoint, h⟩
    · cases hr
    · obtain ⟨endpointHost, t₁, t₂, rfl, hhost, hrest⟩ := run_bind_ok.mp h
      obtain ⟨rfl, hr⟩ := run_pure.mp hrest
      cases hr
      obtain ⟨hport, hleads⟩ := leads_of_classifyEndpointHost hhost
      rw [List.append_nil]
      exact ⟨Nat.pos_of_ne_zero hpos, rfl, accepts_of_parseEndpoint hendpoint, hport, hleads⟩

/-! ## What a resolution does on the network -/

/-- The operations on the network that a resolution is for. -/
def Aims (provider : Provider N) (request : PermissionProviderRequest) : Op N → Prop
  | .queries name nameServer _ => provider.endpointHost.kind = .hostname name nameServer
  | .connect address => address.port = provider.endpointHost.port ∧
      ∀ ip, provider.endpointHost.kind = .literal ip → address.ip = ip
  | .tlsConnect domain => domain = bareHost provider.endpoint
  | .sendRequest httpRequest => outboundRequest provider request = .ok httpRequest
  | _ => True

theorem aims_quiet (o : Op N) (h : o.network = false) : Aims provider request o := by
  cases o with
  | tryCurrent | isCancelled | now | readSystemConf => trivial
  | queries | connect | tlsConnect | handshake | sendRequest | frame => cases h

theorem only_readResponse {context : SynchronizationContext} {deadline : Nat} {response : HttpResponse} :
    Only (Aims provider request) (readResponse lib context deadline response) := by
  unfold readResponse
  refine Only.ite Only.fail (Only.bind Only.lift fun _ => ?_)
  refine Only.bind (Only.bind (only_readFrames aims_quiet trivial _ _) fun _ =>
    only_check_bind aims_quiet Only.pure) fun _ => ?_
  exact only_check_bind aims_quiet (Only.bind Only.lift fun _ => only_check_bind aims_quiet Only.pure)

variable [BEq N] [EquivBEq N] {t : List (Event (bounded N))} {r : Except ProviderFailure DesiredStateEnvelope}

theorem only_resolveOneAddress {deadline : Nat} :
    Only (Aims provider request) (resolveOneAddress provider.endpointHost deadline) := by
  unfold resolveOneAddress
  split
  · exact Only.pure
  · rename_i name nameServer hkind
    refine Only.bind (Only.bind (Only.ask trivial) fun t => ?_) fun _ => Only.pure
    exact Only.ite Only.fail (Only.bind (Only.ask hkind) fun _ => Only.lift)

theorem aims_connect {deadline : Nat} {t : List (Event (outbound N))} {address : SocketAddr}
    (h : Run (resolveOneAddress provider.endpointHost deadline) t (.ok address)) :
    Aims provider request (.connect address) := by
  unfold resolveOneAddress at h
  split at h
  · rename_i ip hkind
    cases (run_pure.mp h).2
    refine ⟨rfl, fun ip' hkind' => ?_⟩
    rw [hkind] at hkind'
    cases hkind'
    rfl
  · rename_i name nameServer hkind
    obtain ⟨ip, t₁, t₂, _, _, hrest⟩ := run_bind_ok.mp h
    cases (run_pure.mp hrest).2
    refine ⟨rfl, fun ip' hkind' => ?_⟩
    rw [hkind] at hkind'
    cases hkind'

theorem only_resolveWithin {deadline : Nat} :
    Only (Aims provider request) (resolveWithinDeadline lib provider request deadline) := by
  refine only_check_bind aims_quiet (Only.bind_of_run Only.lift fun t httpRequest hrun => ?_)
  have hrequest := (run_lift.mp hrun).2.symm
  exact only_attempt aims_quiet only_resolveOneAddress (fun _ _ => aims_connect) rfl trivial hrequest
    fun _ => only_readResponse

theorem resolve_aims (h : Run (resolve lib provider request) t r) : ∀ e ∈ t, Aims provider request e.op := by
  refine Only.interruptible nonempty_ans ?_ h
  refine Only.bind ?_ fun deadline => Only.bind (Only.ask trivial) fun _ => Only.ite only_resolveWithin Only.fail
  refine Only.bind (Only.ask trivial) fun _ => Only.ite Only.fail ?_
  exact Only.bind (Only.ask trivial) fun _ => Only.ite Only.fail Only.pure

/-! ## Where it goes -/

/-- The operations on the network that are for the endpoint, when this was read of the system: queries are for its host
and go to the first usable name server, connections go to its port, and to its address if the host is one. -/
def StaysOn (lib : Library N) (endpoint : Endpoint) (conf : List (Event (outbound N))) : Op N → Prop
  | .queries name nameServer _ => Leads lib endpoint conf (.hostname name nameServer)
  | .connect address =>
      address.port = endpoint.port.getD 443 ∧ ∀ ip, lib.parseIp (bareHost endpoint) = some ip → address.ip = ip
  | .tlsConnect domain => domain = bareHost endpoint
  | .sendRequest httpRequest => httpRequest.target = endpoint.path ∧
      httpRequest.headers.filter (·.1 = "host") = [("host", endpoint.authority)]
  | _ => True

omit [BEq N] [EquivBEq N] in
theorem outboundRequest_eq_ok {httpRequest : HttpRequest} : outboundRequest provider request = .ok httpRequest ↔
    headerValueOk ("Bearer " ++ request.technicalCallerBearerToken) = true ∧
    headerValueOk provider.endpoint.authority = true ∧ httpRequest = {
        method := .post
        target := provider.endpoint.path
        headers := [("host", provider.endpoint.authority), ("content-type", "application/json"),
          ("accept", "application/json"), ("accept-encoding", ""),
          ("authorization", "Bearer " ++ request.technicalCallerBearerToken)]
        body := serializeRequestBody request.identity } := by
  unfold outboundRequest authorizationHeader buildRequest
  by_cases htoken : headerValueOk ("Bearer " ++ request.technicalCallerBearerToken) = true
  · by_cases hauthority : headerValueOk provider.endpoint.authority = true
    · simp [htoken, hauthority, eq_comm]
    · simp [htoken, hauthority]
  · simp [htoken]

omit [BEq N] [EquivBEq N] in
theorem staysOn_of_aims {conf : List (Event (outbound N))} {o : Op N} (h : Aims provider request o)
    (hport : provider.endpointHost.port = provider.endpoint.port.getD 443)
    (hleads : Leads lib provider.endpoint conf provider.endpointHost.kind) : StaysOn lib provider.endpoint conf o := by
  cases o with
  | queries name nameServer timeout =>
      have hkind : provider.endpointHost.kind = .hostname name nameServer := h
      rw [hkind] at hleads
      exact hleads
  | connect address =>
      refine ⟨h.1.trans hport, fun ip hip => h.2 ip ?_⟩
      generalize provider.endpointHost.kind = kind at hleads
      cases hleads with
      | literal haddress =>
          rw [hip] at haddress
          cases haddress
          rfl
      | hostname hnone =>
          rw [hip] at hnone
          cases hnone
  | tlsConnect domain => exact h
  | sendRequest httpRequest =>
      obtain ⟨_, _, rfl⟩ := outboundRequest_eq_ok.mp h
      exact ⟨rfl, rfl⟩
  | handshake | frame | tryCurrent | isCancelled | now | readSystemConf => trivial

/-- A Provider is only made of an `https` endpoint without userinfo and query. Whatever the network answers, its
resolutions then query, connect to, secure for and send to this endpoint only. -/
theorem resolve_stays_on_endpoint {text : String} {operationTimeout : Nat} {conf : List (Event (outbound N))}
    (hnew : Run (Provider.new lib text operationTimeout) conf (.ok provider))
    (h : Run (resolve lib provider request) t r) :
    0 < provider.operationTimeout ∧ (∃ uri, Accepts lib text provider.endpoint uri) ∧
      ∀ e ∈ t, StaysOn lib provider.endpoint conf e.op := by
  obtain ⟨hpos, rfl, haccepts, hport, hleads⟩ := configured_of_new hnew
  exact ⟨hpos, haccepts, fun e he => staysOn_of_aims (resolve_aims h e he) hport hleads⟩

/-- The first connection of the name server is not one for datagrams. -/
def sampleConf : List (Event (outbound String)) :=
  [⟨.readSystemConf, some [⟨.v4 3221225985, [⟨.tcp, 53, none⟩, ⟨.udp, 53, none⟩]⟩]⟩]

theorem sampleProvider_new :
    Run (Provider.new sampleLibrary "https://provider.test/resolve" 20) sampleConf (.ok sampleProvider) := by
  have hendpoint : parseEndpoint sampleLibrary "https://provider.test/resolve" = .ok sampleEndpoint := by
    simp [parseEndpoint, sampleLibrary, sampleEndpoint]
  rw [Provider.new, if_neg (by decide), hendpoint]
  exact .call .ret

theorem sample_stays_on_endpoint :
    (∃ uri, Accepts sampleLibrary "https://provider.test/resolve" sampleProvider.endpoint uri) ∧
      ∀ e ∈ sampleAnswered, StaysOn sampleLibrary sampleProvider.endpoint sampleConf e.op :=
  (resolve_stays_on_endpoint sampleProvider_new sampleAnswered_run).2

/-! ## What it says -/

theorem serializeRequestBody_injective {a b : IdentityContext} (h : serializeRequestBody a = serializeRequestBody b) :
    a = b := by
  have hread := congrArg readDocument h
  simp only [serializeRequestBody, readDocument_write, Option.some.injEq, Value.obj.injEq,
    List.cons.injEq, Prod.mk.injEq, Value.str.injEq, Value.arr.injEq] at hread
  obtain ⟨⟨_, husername⟩, ⟨_, hgroups⟩, _⟩ := hread
  have hinjective : Function.Injective Value.str := fun _ _ h => Value.str.inj h
  cases a
  cases b
  rw [IdentityContext.mk.injEq]
  exact ⟨husername, hinjective.list_map hgroups⟩

/-- A request that is sent is a `POST` with the caller's bearer token as its only authorization, without a byte in a
header that could end it. Its body reads as exactly the caller's identity, and no other caller has this request. -/
theorem sent_identifies_caller {httpRequest : HttpRequest} {x : Except Interruption (Option HttpResponse)}
    (h : Run (resolve lib provider request) t r) (hmem : ⟨.sendRequest httpRequest, x⟩ ∈ t) :
    httpRequest.method = .post ∧
      httpRequest.headers.filter (·.1 = "authorization") =
        [("authorization", "Bearer " ++ request.technicalCallerBearerToken)] ∧
      (∀ header ∈ httpRequest.headers, headerValueOk header.2 = true) ∧
      readDocument httpRequest.body = some (.obj [("username", .str request.identity.username),
        ("groups", .arr (request.identity.groups.map .str))]) ∧
      ∀ other, outboundRequest provider other = .ok httpRequest →
        other.identity = request.identity ∧ other.technicalCallerBearerToken = request.technicalCallerBearerToken := by
  obtain ⟨htoken, hauthority, rfl⟩ := outboundRequest_eq_ok.mp (resolve_aims h _ hmem)
  refine ⟨rfl, rfl, ?_, readDocument_write _, fun other hother => ?_⟩
  · simp only [List.forall_mem_cons, hauthority, htoken]
    decide
  · obtain ⟨_, _, hsame⟩ := outboundRequest_eq_ok.mp hother
    simp only [HttpRequest.mk.injEq, List.cons.injEq, Prod.mk.injEq, true_and, and_true] at hsame
    exact ⟨(serializeRequestBody_injective hsame.2).symm, (String.append_right_inj _ |>.mp hsame.1).symm⟩

theorem sample_identifies_caller : ⟨.sendRequest sampleHttpRequest, .ok (some sampleResponse)⟩ ∈ sampleAnswered ∧
    readDocument sampleHttpRequest.body =
      some (.obj [("username", .str "alice"), ("groups", .arr [.str "/staff"])]) := by
  have hmem : ⟨.sendRequest sampleHttpRequest, .ok (some sampleResponse)⟩ ∈ sampleAnswered := by simp [sampleAnswered]
  exact ⟨hmem, (sent_identifies_caller sampleAnswered_run hmem).2.2.2.1⟩

end PermissionSync.GenericRest
