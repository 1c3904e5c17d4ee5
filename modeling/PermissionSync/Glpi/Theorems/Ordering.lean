import PermissionSync.Glpi.Lemmas.Lookups
import PermissionSync.Glpi.Theorems.Targets

/-!
# The order of a reconciliation

Nothing is assumed about the clock, the cancellation signal or the answers.
-/

namespace PermissionSync.Glpi

open PermissionSync.Base PermissionSync.Wire

variable {config : ValidatedConfig} {session : GlpiSession} {request : AdapterRequest}
variable {desired : List CanonicalAssignment} {references : References}

/-! ## When a mutation is allowed -/

/-- The requests that change something in GLPI. -/
def Request.isMutation : Request → Bool
  | .postUser _ _ | .postProfileUser _ _ _ _ | .deleteProfileUser _ => true
  | _ => false

/-- The request of the event was answered by a response that its reader accepts. -/
def Confirmed (e : Event glpi) : Prop :=
  ∃ call response, e = exchanged call (.ok response) ∧ Accepts call.request response

/-- Every user that was created in the history answered the username in a lookup made after it. -/
def Relooked (config : ValidatedConfig) (request : AdapterRequest) (session : GlpiSession) (references : References)
    (h : Trace) : Prop :=
  ∀ h₁ e h₂ name source id, h = h₁ ++ e :: h₂ → Accepted (.postUser name source) readCreatedUser id e →
    Occurs (resolveUserId config session references.userOptions request.username request.context) (some id) h₂

/-- The history allows the mutation. -/
structure Allowed (config : ValidatedConfig) (request : AdapterRequest) (h : Trace) (r : Request) : Prop where
  established : ∃ session desired references, Prerequisites config request session desired references h ∧
    Relooked config request session references h ∧
    ∀ name source, r = .postUser name source →
      name = request.username ∧ AbsentUser config session request.username request.context h
  confirmed : ∀ e ∈ h, ∀ r', sent e = some r' → r'.isMutation = true → Confirmed e
  firstUser : ∀ name source, r = .postUser name source → ∀ r' ∈ requests h, r'.isMutation = false
  deletesFirst : ∀ id, r = .deleteProfileUser id → ∀ r' ∈ requests h, r'.created = none

/-- Every mutation is allowed by the history before it. -/
def Guard (config : ValidatedConfig) (request : AdapterRequest) (h : Trace) (e : Event glpi) : Prop :=
  ∀ r, sent e = some r → r.isMutation = true → Allowed config request h r

/-- The event is no mutation. -/
def Harmless (e : Event glpi) : Prop := ∀ r, sent e = some r → r.isMutation = false

/-- The trace has no mutation. -/
def Quiet (t : Trace) : Prop := ∀ e ∈ t, Harmless e

theorem quiet_append {t₁ t₂ : Trace} : Quiet (t₁ ++ t₂) ↔ Quiet t₁ ∧ Quiet t₂ := List.forall_mem_append

theorem quiet_poll (n : Instant) : Quiet [polled false, clock n] := by simp [Quiet, Harmless]

theorem Quiet.requests {t : Trace} (h : Quiet t) {r : Request} (hr : r ∈ requests t) : r.isMutation = false := by
  obtain ⟨e, he, hs⟩ := mem_requests.mp hr
  exact h e he r hs

theorem guard_of_harmless {h : Trace} {e : Event glpi} (he : Harmless e) : Guard config request h e := by
  intro r hr hm
  rw [he r hr] at hm
  cases hm

theorem isMutation_of_isRead {r : Request} (h : r.isRead = true) : r.isMutation = false := by
  cases r with
  | postUser | postProfileUser | deleteProfileUser => cases h
  | _ => rfl

theorem quiet_admits (config : ValidatedConfig) (context : SynchronizationContext) :
    Admits config context (fun r => r.isMutation = false) Quiet Quiet :=
  sends_admits config context _

/-! ## Histories that allow assignments to change -/

/-- The history allows assignments to be changed, and its mutations are in `S`. -/
structure Ready (config : ValidatedConfig) (request : AdapterRequest) (session : GlpiSession)
    (desired : List CanonicalAssignment) (references : References) (S : Request → Prop) (h : Trace) : Prop where
  prerequisites : Prerequisites config request session desired references h
  relooked : Relooked config request session references h
  confirmed : ∀ e ∈ h, ∀ r, sent e = some r → r.isMutation = true → Confirmed e
  only : ∀ r ∈ requests h, r.isMutation = true → S r

theorem relooked_append {h t : Trace} (hr : Relooked config request session references h)
    (ht : ∀ e ∈ t, ∀ name source, sent e ≠ some (.postUser name source)) :
    Relooked config request session references (h ++ t) := by
  intro h₁ e h₂ name source id he hacc
  rcases append_cons_eq_append he.symm with ⟨h₂', rfl, rfl⟩ | ⟨h₁', rfl, rfl⟩
  · exact (hr h₁ e h₂' name source id rfl hacc).append t
  · exact absurd hacc.sent_eq (ht e (by simp) name source)

theorem Ready.append {S : Request → Prop} {h t : Trace} (hr : Ready config request session desired references S h)
    (hconf : ∀ e ∈ t, ∀ r, sent e = some r → r.isMutation = true → Confirmed e ∧ S r)
    (ht : ∀ e ∈ t, ∀ name source, sent e ≠ some (.postUser name source)) :
    Ready config request session desired references S (h ++ t) where
  prerequisites := hr.prerequisites.append t
  relooked := relooked_append hr.relooked ht
  confirmed e he r hs hm := by
    rcases List.mem_append.mp he with he | he
    · exact hr.confirmed e he r hs hm
    · exact (hconf e he r hs hm).1
  only r hmem hm := by
    rw [requests_append, List.mem_append] at hmem
    rcases hmem with hmem | hmem
    · exact hr.only r hmem hm
    · obtain ⟨e, he, hs⟩ := mem_requests.mp hmem
      exact (hconf e he r hs hm).2

theorem Ready.quiet {S : Request → Prop} {h t : Trace} (hr : Ready config request session desired references S h)
    (ht : Quiet t) : Ready config request session desired references S (h ++ t) := by
  refine hr.append (fun e he r hs hm => ?_) fun e he name source hs => ?_
  · rw [ht e he r hs] at hm
    cases hm
  · cases ht e he _ hs

theorem Ready.mono {S S' : Request → Prop} {h : Trace} (hr : Ready config request session desired references S h)
    (hS : ∀ r, S r → S' r) : Ready config request session desired references S' h :=
  { hr with only := fun r hmem hm => hS r (hr.only r hmem hm) }

theorem ready_of_quiet {S : Request → Prop} {h : Trace}
    (hp : Prerequisites config request session desired references h) (hq : Quiet h) :
    Ready config request session desired references S h where
  prerequisites := hp
  relooked h₁ e h₂ name source id he hacc := by cases hq e (by simp [he]) _ hacc.sent_eq
  confirmed e he r hs hm := by rw [hq e he r hs] at hm; cases hm
  only r hmem hm := by rw [hq.requests hmem] at hm; cases hm

/-- A change of an assignment, which creates no user. -/
theorem Ready.allowed {S : Request → Prop} {h : Trace} (hr : Ready config request session desired references S h)
    {r : Request} (huser : ∀ name source, r ≠ .postUser name source)
    (hdel : ∀ id, r = .deleteProfileUser id → ∀ r', S r' → r'.created = none) : Allowed config request h r where
  established := ⟨session, desired, references, hr.prerequisites, hr.relooked,
    fun name source he => absurd he (huser name source)⟩
  confirmed := hr.confirmed
  firstUser name source he := absurd he (huser name source)
  deletesFirst id he r' hmem := by
    by_cases hm : r'.isMutation = true
    · exact hdel id he r' (hr.only r' hmem hm)
    · cases r' with
      | postProfileUser => exact absurd rfl hm
      | _ => rfl

/-! ## Mutations -/

theorem timed_holds {α : Type} {r : Request} {headers : Except GlpiFailure Headers}
    {read : RawResponse → Except GlpiFailure α} {h : Trace}
    (hallow : ∀ n, Allowed config request (h ++ [polled false, clock n]) r) :
    Holds (Guard config request) h (timed config request.context (exchange r headers read)) fun res h' =>
      ∀ a, res = .ok a → ∃ n hs response, read response = .ok a ∧
        h' = h ++ callTrace config request.context r hs n (.ok response) := by
  intro t res hrun
  have hsilent : ∀ t : Trace, (∀ e ∈ t, sent e = none) → ∀ pre e post, t = pre ++ e :: post →
      Guard config request (h ++ pre) e := by
    rintro t ht pre e post rfl r hr
    rw [ht e (by simp)] at hr
    cases hr
  rcases run_timed.mp hrun with ⟨rfl, rfl⟩ | ⟨n, _, rfl, rfl⟩ | ⟨n, e, _, _, rfl, rfl⟩ |
    ⟨n, hs, answer, _, _, rfl, rfl⟩
  · exact ⟨hsilent _ (by simp), fun a ha => by cases ha⟩
  · exact ⟨hsilent _ (by simp), fun a ha => by cases ha⟩
  · exact ⟨hsilent _ (by simp), fun a ha => by cases ha⟩
  · refine ⟨fun pre e post ht r' hr' _ => ?_, fun a ha => ?_⟩
    · obtain ⟨rfl, rfl, _⟩ := eq_of_callTrace ht (by rw [hr']; simp)
      cases hr'
      exact hallow n
    · obtain ⟨response, rfl, hread⟩ := bind_eq_ok.mp ha
      exact ⟨n, hs, response, hread, rfl⟩

/-- The events of a confirmed mutation that creates no user. -/
theorem confirmed_callTrace {S : Request → Prop} {context : SynchronizationContext} {r : Request} {hs : Headers}
    {n : Instant} {response : RawResponse} (haccept : Accepts r response) (hS : S r) :
    ∀ e ∈ callTrace config context r hs n (.ok response), ∀ r', sent e = some r' → r'.isMutation = true →
      Confirmed e ∧ S r' := by
  intro e he r' hr' _
  simp only [callTrace, List.mem_cons, List.not_mem_nil, or_false] at he
  rcases he with rfl | rfl | rfl
  · cases hr'
  · cases hr'
  · cases hr'
    exact ⟨⟨_, response, rfl, haccept⟩, hS⟩

theorem callTrace_no_user {context : SynchronizationContext} {r : Request} {hs : Headers} {n : Instant}
    {answer : Except GlpiFailure RawResponse} (huser : ∀ name source, r ≠ .postUser name source) :
    ∀ e ∈ callTrace config context r hs n answer, ∀ name source, sent e ≠ some (.postUser name source) := by
  intro e he name source hs'
  exact huser name source (sends_callTrace (S := (· = r)) rfl e he _ hs').symm

/-- A loop over mutations of assignments keeps the history ready. -/
theorem mutations_hold {α β : Type} {S : Request → Prop} {f : Nat → α → Io Nat}
    {headers : Except GlpiFailure Headers} (requestOf : α → Request) (read : α → RawResponse → Except GlpiFailure β)
    (hf : ∀ n a, f n a = timed config request.context (exchange (requestOf a) headers (read a)) >>= fun _ =>
      pure (n + 1))
    (hread : ∀ a response b, read a response = .ok b → Accepts (requestOf a) response)
    (huser : ∀ a name source, requestOf a ≠ .postUser name source)
    (hdel : ∀ a id, requestOf a = .deleteProfileUser id → ∀ r', S r' → r'.created = none)
    (hS : ∀ a, S (requestOf a)) {l : List α} {n : Nat} {h : Trace}
    (hr : Ready config request session desired references S h) :
    Holds (Guard config request) h (l.foldlM f n) fun res h' =>
      ∀ m, res = .ok m → Ready config request session desired references S h' := by
  refine Holds.foldlM (J := fun _ h => Ready config request session desired references S h) ?_ hr
  intro n a h _ hready
  rw [hf]
  refine Holds.bind ((timed_holds fun k => ?_).mono fun res h' hres => ?_)
  · exact (hready.quiet (quiet_poll k)).allowed (huser a) (hdel a)
  · cases res with
    | error e => exact fun m hm => by cases hm
    | ok b =>
        obtain ⟨k, hs, response, hok, rfl⟩ := hres b rfl
        intro t r hrun
        obtain ⟨rfl, rfl⟩ := run_pure.mp hrun
        refine ⟨by simp, fun m _ => ?_⟩
        rw [List.append_nil]
        exact hready.append (confirmed_callTrace (hread a response b hok) (hS a)) (callTrace_no_user (huser a))

/-! ## The whole reconciliation -/

theorem resolveUserId_quiet {options : SearchOptions} {username : String} {context : SynchronizationContext} :
    (resolveUserId config session options username context).Sat Quiet Quiet :=
  resolveUserId_sat (quiet_admits config context) fun _ => rfl

/-- A confirmed creation whose account answered the lookup after it. -/
theorem ready_of_created {h t : Trace} {hs : Headers} {n : Instant} {response : RawResponse} {id : Nat}
    {name : String} {source : AuthenticationSource}
    (hp : Prerequisites config request session desired references h) (hq : Quiet h)
    (hread : readCreatedUser response = .ok id)
    (hrun : Run (resolveUserId config session references.userOptions request.username request.context) t
      (.ok (some id))) :
    Ready config request session desired references (fun r => r.created = none)
      (h ++ callTrace config request.context (.postUser name source) hs n (.ok response) ++ t) := by
  have ht : Quiet t := resolveUserId_quiet.of_run hrun
  refine ⟨(hp.append _).append _, ?_, ?_, ?_⟩
  · intro h₁ e h₂ name' source' id' he hacc
    rw [List.append_assoc] at he
    rcases append_cons_eq_append he.symm with ⟨_, rfl, _⟩ | ⟨h₁', rfl, he'⟩
    · cases hq e (by simp) _ hacc.sent_eq
    · rcases append_cons_eq_append he'.symm with ⟨post, hcall, rfl⟩ | ⟨_, _, rfl⟩
      · obtain ⟨_, rfl, rfl⟩ := eq_of_callTrace hcall (by rw [hacc.sent_eq]; simp)
        obtain ⟨call, response', hexch, _, hread'⟩ := hacc
        cases hexch
        cases hread.symm.trans hread'
        exact hrun.occurs []
      · cases ht e (by simp) _ hacc.sent_eq
  · intro e he r hr hm
    rcases List.mem_append.mp he with he | he
    · rcases List.mem_append.mp he with he | he
      · rw [hq e he r hr] at hm
        cases hm
      · have haccept : Accepts (.postUser name source) response := ⟨id, hread⟩
        exact (confirmed_callTrace (S := fun _ => True) haccept trivial e he r hr hm).1
    · rw [ht e he r hr] at hm
      cases hm
  · intro r hmem hm
    simp only [requests_append, requests_callTrace, List.mem_append, List.mem_singleton] at hmem
    rcases hmem with (hmem | rfl) | hmem
    · rw [hq.requests hmem] at hm
      cases hm
    · rfl
    · rw [ht.requests hmem] at hm
      cases hm

/-- Creating the user is allowed, and leaves a history in which the lookup after it found the created account. -/
theorem createUser_holds {h : Trace} (hp : Prerequisites config request session desired references h)
    (hq : Quiet h) (habsent : AbsentUser config session request.username request.context h) :
    Holds (Guard config request) h
      (createUserAndResolveOutcome config session references.userOptions request.username request.context)
      fun res h' => ∀ user, res = .ok user →
        Ready config request session desired references (fun r => r.created = none) h' := by
  refine Holds.bind ((timed_holds fun n => ?_).mono fun res h' hres => ?_)
  · have hq' : Quiet (h ++ [polled false, clock n]) := quiet_append.mpr ⟨hq, quiet_poll n⟩
    have hready := ready_of_quiet (S := fun _ => True) (hp.append [polled false, clock n]) hq'
    refine ⟨⟨session, desired, references, hready.prerequisites, hready.relooked, fun name source he => ?_⟩,
      hready.confirmed, fun _ _ _ r' hmem => hq'.requests hmem, fun id he => by cases he⟩
    cases he
    obtain ⟨idField, nameField, active, deleted, ha, hd, hids⟩ := habsent
    exact ⟨rfl, idField, nameField, active, deleted, ha.append _, hd.append _, hids⟩
  · cases res with
    | error e => exact fun user hu => by cases hu
    | ok createdId =>
        obtain ⟨n, hs, response, hread, rfl⟩ := hres createdId rfl
        refine Holds.of_sat_bind resolveUserId_quiet (fun _ _ => guard_of_harmless) (fun found t hrun => ?_)
          fun e t _ user hu => by cases hu
        intro t' r hr
        rcases run_lift_bind.mp hr with ⟨e, _, rfl, rfl⟩ | ⟨_, hfound, hpure⟩
        · exact ⟨by simp, fun user hu => by cases hu⟩
        · obtain ⟨rfl, rfl⟩ := run_pure.mp hpure
          obtain rfl : found = some createdId := ensure_eq_ok.mp hfound
          refine ⟨by simp, fun user _ => ?_⟩
          rw [List.append_nil]
          exact ready_of_created hp hq hread hrun

theorem synchronizedUser_holds {h : Trace} (hp : Prerequisites config request session desired references h)
    (hq : Quiet h) :
    Holds (Guard config request) h
      (synchronizedUser config session references.userOptions request.username request.context)
      fun res h' => ∀ user, res = .ok user →
        Ready config request session desired references (fun r => r.created = none) h' := by
  refine Holds.of_sat_bind resolveUserId_quiet (fun _ _ => guard_of_harmless) (fun found t hrun => ?_)
    fun e t _ user hu => by cases hu
  have hq' : Quiet (h ++ t) := quiet_append.mpr ⟨hq, resolveUserId_quiet.of_run hrun⟩
  cases found with
  | some id =>
      intro t' r hr
      obtain ⟨rfl, rfl⟩ := run_pure.mp hr
      refine ⟨by simp, fun user _ => ?_⟩
      rw [List.append_nil]
      exact ready_of_quiet (hp.append t) hq'
  | none =>
      refine createUser_holds (hp.append t) hq' ?_
      simpa using absentUser_of_run hrun h []

theorem removals_hold {h : Trace} {ids : List Nat} {n : Nat}
    (hr : Ready config request session desired references (fun r => r.created = none) h) :
    Holds (Guard config request) h (ids.foldlM (removeAssignment config session request.context) n) fun res h' =>
      ∀ m, res = .ok m → Ready config request session desired references (fun r => r.created = none) h' :=
  mutations_hold .deleteProfileUser readDeletedAssignment (fun _ _ => rfl) (fun _ _ _ hok => hok)
    (fun _ _ _ => by simp) (fun _ _ _ _ => id) (fun _ => rfl) hr

theorem additions_hold {h : Trace} {adds : List Addition} {userId n : Nat}
    (hr : Ready config request session desired references (fun _ => True) h) :
    Holds (Guard config request) h (adds.foldlM (addAssignment config session userId request.context) n) fun res h' =>
      ∀ m, res = .ok m → Ready config request session desired references (fun _ => True) h' :=
  mutations_hold (Addition.request userId) (fun _ => readCreatedAssignment) (fun _ _ => rfl)
    (fun _ _ b hok => ⟨b, hok⟩) (fun _ _ _ => by simp [Addition.request])
    (fun _ _ he => by simp [Addition.request] at he) (fun _ => trivial) hr

theorem applyPlan_holds {h : Trace} {plan : Plan} {userId n : Nat}
    (hr : Ready config request session desired references (fun r => r.created = none) h) :
    Holds (Guard config request) h (applyPlan config session userId request.context plan n) fun _ _ => True := by
  refine Holds.bind ((removals_hold hr).mono fun res h' hres => ?_)
  cases res with
  | error e => trivial
  | ok removed =>
      have hall : Ready config request session desired references (fun _ => True) h' :=
        (hres removed rfl).mono fun _ _ => trivial
      exact (additions_hold hall).mono fun _ _ _ => trivial

theorem verifyAssignments_quiet {options : SearchOptions} {username : String} {userId : Nat}
    {desired : List DesiredAssignment} {context : SynchronizationContext} :
    (verifyAssignments config session options username userId desired context).Sat Quiet Quiet :=
  verifyAssignments_sat (quiet_admits config context) fun _ => isMutation_of_isRead

theorem pure_holds {α : Type} {h : Trace} {a : α} :
    Holds (Guard config request) h (pure a : Io α) fun _ _ => True := by
  intro t r hr
  obtain ⟨rfl, rfl⟩ := run_pure.mp hr
  exact ⟨by simp, trivial⟩

theorem execute_holds {h : Trace} {p : Planned}
    (hr : Ready config request p.session p.desired p.references (fun r => r.created = none) h) :
    Holds (Guard config request) h (execute config request p) fun _ _ => True := by
  refine Holds.bind ((applyPlan_holds hr).mono fun res h' _ => ?_)
  cases res with
  | error e => trivial
  | ok total =>
      exact Holds.of_sat_bind verifyAssignments_quiet (fun _ _ => guard_of_harmless) (fun _ _ _ => pure_holds)
        fun _ _ _ => trivial

/-- Planning changes at most the user, and leaves a history that allows assignments to be changed. -/
theorem plan_holds :
    Holds (Guard config request) [] (Glpi.plan config request) fun res h' => ∀ p, res = .ok p →
      Ready config request p.session p.desired p.references (fun r => r.created = none) h' := by
  have ha := quiet_admits config request.context
  have haccept := acceptRequest_sat ha
  have hinit := initSession_sat ha rfl
  refine Holds.of_sat_bind haccept (fun _ _ => guard_of_harmless) (fun desired tA hA => ?_)
    fun _ _ _ p hp => by cases hp
  refine Holds.of_sat_bind hinit (fun _ _ => guard_of_harmless) (fun session tI hI => ?_) fun _ _ _ p hp => by cases hp
  have hprepare : (prepare config session desired request.context).Sat Quiet Quiet :=
    prepare_sat ha fun _ => isMutation_of_isRead
  refine Holds.of_sat_bind hprepare (fun _ _ => guard_of_harmless) (fun references tP hP => ?_)
    fun _ _ _ p hp => by cases hp
  have hprereq := prerequisites_of_run hA hI hP
  have hquiet : Quiet (tA ++ tI ++ tP) := by
    rw [quiet_append, quiet_append]
    exact ⟨⟨haccept.of_run hA, hinit.of_run hI⟩, hprepare.of_run hP⟩
  rw [List.nil_append]
  refine Holds.bind ((synchronizedUser_holds hprereq hquiet).mono fun res h' hres => ?_)
  cases res with
  | error e => exact fun p hp => by cases hp
  | ok user =>
      obtain ⟨userId, created⟩ := user
      have hready := hres _ rfl
      have hread : (readCurrentAssignments config session references.profileUserOptions request.username userId
          request.context).Sat Quiet Quiet := readCurrentAssignments_sat ha (fun _ => rfl) fun _ => rfl
      refine Holds.of_sat_bind hread (fun _ _ => guard_of_harmless) (fun current tR hR => ?_)
        fun _ _ _ p hp => by cases hp
      intro t r hr
      rcases run_lift_bind.mp hr with ⟨e, _, rfl, rfl⟩ | ⟨desiredResolved, _, hpure⟩
      · exact ⟨by simp, fun p hp => by cases hp⟩
      · obtain ⟨rfl, rfl⟩ := run_pure.mp hpure
        refine ⟨by simp, fun p hp => ?_⟩
        cases hp
        rw [List.append_nil]
        exact hready.quiet (hread.of_run hR)

theorem primary_holds : Holds (Guard config request) [] (primary config request) fun _ _ => True := by
  rw [primary_eq]
  refine Holds.bind (plan_holds.mono fun res h' hres => ?_)
  cases res with
  | error e => trivial
  | ok p => exact execute_holds (hres p rfl)

/-! ## Failures -/

/-- The event is a failure of its own: an observed cancellation or expiry, or an answer that is not accepted. -/
def Failed (context : SynchronizationContext) (e : Event glpi) : Prop :=
  match e with
  | ⟨.isCancelled, b⟩ => b = true
  | ⟨.now, n⟩ => context.deadline ≤ n
  | ⟨.request call, answer⟩ => ∀ response, answer = .ok response → ¬ Accepts call.request response

variable {context : SynchronizationContext}

theorem failed_polled {b : Bool} : Failed context (polled b) ↔ b = true := Iff.rfl

theorem failed_clock {n : Instant} : Failed context (clock n) ↔ context.deadline ≤ n := Iff.rfl

theorem failed_exchanged {call : Outbound} {answer : Except GlpiFailure RawResponse} :
    Failed context (exchanged call answer) ↔ ∀ response, answer = .ok response → ¬ Accepts call.request response :=
  Iff.rfl

theorem not_failed_poll {n : Instant} (hn : n < context.deadline) :
    ∀ e ∈ [polled false, clock n], ¬ Failed context e := by
  simp [failed_polled, failed_clock, hn]

/-- The first failure of the trace is its last event. -/
def EndsAtFailure (context : SynchronizationContext) (t : Trace) : Prop :=
  ∀ pre e post, t = pre ++ e :: post → Failed context e → post = []

theorem endsAtFailure_concat {a : Trace} {x : Event glpi} (ha : ∀ e ∈ a, ¬ Failed context e) :
    EndsAtFailure context (a ++ [x]) :=
  fun _ e _ he hf => (eq_of_notMem_append (fun hmem => ha e hmem hf) he).2.2

/-- A returning stage has seen no failure; a failing one ends with the first. -/
theorem failures_admits (config : ValidatedConfig) (context : SynchronizationContext) (S : Request → Prop) :
    Admits config context S (fun t => ∀ e ∈ t, ¬ Failed context e) (EndsAtFailure context) where
  nil := by simp
  append h₁ h₂ := List.forall_mem_append.mpr ⟨h₁, h₂⟩
  fail := by simp [EndsAtFailure]
  appendFail {t₁ t₂} h₁ h₂ pre e post he hf := by
    rcases append_cons_eq_append he.symm with ⟨_, rfl, _⟩ | ⟨pre', rfl, rfl⟩
    · exact absurd hf (h₁ e (by simp))
    · exact h₂ pre' e post rfl hf
  checked n hn := not_failed_poll hn
  cancelled := endsAtFailure_concat (a := []) (by simp)
  expired n _ := endsAtFailure_concat (a := [polled false]) (by simp [failed_polled])
  accepted r hs n response _ hn haccept := by
    refine List.forall_mem_append.mpr ⟨not_failed_poll hn, ?_⟩
    simpa [failed_exchanged] using haccept
  answered r hs n answer _ hn := endsAtFailure_concat (not_failed_poll hn)

/-- In a whole reconciliation only the end of the session may follow a failure. -/
theorem only_kill_after_failure {t : Trace} {r : Except GlpiFailure ReconciliationOutcome}
    (h : Run (reconcile config request) t r) {pre post : Trace} {e : Event glpi} (ht : t = pre ++ e :: post)
    (hf : Failed request.context e) : ∀ r' ∈ requests post, r' = .killSession := by
  obtain ⟨t₁, t₂, outcome, rfl, hp, hend⟩ := run_reconcile h
  have hclean : ∀ r' ∈ requests t₂, r' = .killSession := by
    rcases hend with ⟨rfl, _⟩ | ⟨session, _, hc⟩
    · simp [requests]
    · exact sends_iff.mp (cleanup_sends hc)
  have hsat := primary_sat (failures_admits config request.context fun _ => True) trivial fun _ _ => trivial
  rcases append_cons_eq_append ht.symm with ⟨post', rfl, rfl⟩ | ⟨pre', rfl, rfl⟩
  · cases outcome with
    | ok o => exact absurd hf (hsat.of_returns hp e (by simp))
    | error x =>
        obtain rfl := hsat.of_fails hp pre e post' rfl hf
        exact hclean
  · intro r' hr'
    refine hclean r' ?_
    rw [requests_append]
    exact List.mem_append_right _ (by simpa [requests] using Or.inr hr')

/-! ## Success -/

/-- The trace has a mutation. -/
def HasMutation (t : Trace) : Prop := ∃ r ∈ requests t, r.isMutation = true

theorem hasMutation_append {t₁ t₂ : Trace} : HasMutation (t₁ ++ t₂) ↔ HasMutation t₁ ∨ HasMutation t₂ := by
  simp [HasMutation, or_and_right, exists_or]

theorem Quiet.not_hasMutation {t : Trace} (h : Quiet t) : ¬ HasMutation t := by
  rintro ⟨r, hr, hm⟩
  rw [h.requests hr] at hm
  cases hm

/-- The count of the user's resolution is positive exactly when it created the user. -/
theorem hasMutation_user {options : SearchOptions} {username : String} {t : Trace} {userId created : Nat}
    (h : Run (synchronizedUser config session options username context) t (.ok (userId, created))) :
    HasMutation t ↔ 0 < created := by
  obtain ⟨found, t₁, t₂, rfl, hlookup, hk⟩ := run_bind_ok.mp h
  have hq : Quiet t₁ := resolveUserId_quiet.of_run hlookup
  cases found with
  | some id =>
      obtain ⟨rfl, hr⟩ := run_pure.mp hk
      cases hr
      simpa using hq.not_hasMutation
  | none =>
      obtain ⟨createdId, t₃, t₄, rfl, hc, hk'⟩ := run_bind_ok.mp hk
      obtain ⟨found, t₅, t₆, rfl, _, hk''⟩ := run_bind_ok.mp hk'
      rcases run_lift_bind.mp hk'' with ⟨_, _, _, hr⟩ | ⟨_, _, hp⟩
      · cases hr
      · obtain ⟨_, hr⟩ := run_pure.mp hp
        cases hr
        obtain ⟨n, hs, response, _, _, _, rfl⟩ := run_timed_ok.mp hc
        refine iff_of_true ⟨.postUser username config.authenticationSource, ?_, rfl⟩ Nat.one_pos
        simp

theorem isMutation_of_mem_plan {plan : Plan} {userId : Nat} {r : Request} (h : r ∈ plan.requests userId) :
    r.isMutation = true := by
  rcases List.mem_append.mp h with h | h
  · obtain ⟨id, _, rfl⟩ := List.mem_map.mp h
    rfl
  · obtain ⟨a, _, rfl⟩ := List.mem_map.mp h
    rfl

/-- Applying a plan increases the count exactly when it mutates. -/
theorem hasMutation_apply {userId n total : Nat} {plan : Plan} {t : Trace}
    (h : Run (applyPlan config session userId context plan n) t (.ok total)) :
    0 < total ↔ 0 < n ∨ HasMutation t := by
  obtain ⟨hreq, rfl⟩ := (run_applyPlan h).2 total rfl
  have hm : HasMutation t ↔ 0 < (plan.requests userId).length := by
    rw [HasMutation, hreq, List.length_pos_iff_exists_mem]
    exact exists_congr fun r => and_iff_left_of_imp isMutation_of_mem_plan
  rw [hm]
  omega

theorem hasMutation_plan {t : Trace} {p : Planned} (h : Run (Glpi.plan config request) t (.ok p)) :
    HasMutation t ↔ 0 < p.created := by
  have ha := quiet_admits config request.context
  obtain ⟨tA, tI, tP, tU, tR, hrun, rfl⟩ := run_plan_ok.mp h
  have hA : Quiet tA := (acceptRequest_sat ha).of_run hrun.accepted
  have hI : Quiet tI := (initSession_sat ha rfl).of_run hrun.began
  have hP : Quiet tP := (prepare_sat ha fun _ => isMutation_of_isRead).of_run hrun.prepared
  have hR : Quiet tR := (readCurrentAssignments_sat ha (fun _ => rfl) fun _ => rfl).of_run hrun.read
  simp only [hasMutation_append, hA.not_hasMutation, hI.not_hasMutation, hP.not_hasMutation, hR.not_hasMutation,
    hasMutation_user hrun.user, false_or, or_false]

/-- A successful reconciliation ends with a complete read, after its last mutation, that is canonical for the
resolved desired assignments; it reports a change exactly when it mutated something. -/
theorem primary_success {t : Trace} {outcome : ReconciliationOutcome}
    (h : Run (primary config request) t (.ok outcome)) :
    ∃ p tPlan tApply tRead verified, t = tPlan ++ tApply ++ tRead ∧ Run (Glpi.plan config request) tPlan (.ok p) ∧
      Run (p.read config request) tRead (.ok verified) ∧ isCanonical verified p.desiredResolved = true ∧
      Quiet tRead ∧ (outcome = .changed ↔ HasMutation t) := by
  obtain ⟨p, tPlan, _, rfl, hplan, hexec⟩ := run_primary_ok.mp h
  obtain ⟨total, tApply, tVerify, rfl, happly, hverify, rfl⟩ := run_execute_ok.mp hexec
  obtain ⟨n, tRead, verified, _, rfl, hread, hcan⟩ := run_verifyAssignments_ok.mp hverify
  have hq : Quiet tRead :=
    (readCurrentAssignments_sat (quiet_admits config request.context) (fun _ => rfl) fun _ => rfl).of_run hread
  refine ⟨p, tPlan, tApply ++ [polled false, clock n], tRead, verified, by simp, hplan, hread, hcan, hq, ?_⟩
  have hout : (if 0 < total then ReconciliationOutcome.changed else .unchanged) = .changed ↔ 0 < total := by
    split <;> simp_all
  rw [hout, hasMutation_apply happly]
  simp only [hasMutation_append, hasMutation_plan hplan, (quiet_poll n).not_hasMutation, hq.not_hasMutation, or_false]

/-- What follows the primary result only ends the session. -/
theorem run_reconcile_end {t : Trace} {r : Except GlpiFailure ReconciliationOutcome}
    (h : Run (reconcile config request) t r) :
    ∃ t₁ t₂ result, t = t₁ ++ t₂ ∧ Run (primary config request) t₁ result ∧ Sends (· = .killSession) t₂ ∧
      ∀ outcome, r = .ok outcome → result = .ok outcome := by
  obtain ⟨t₁, t₂, result, rfl, hp, hend⟩ := run_reconcile h
  refine ⟨t₁, t₂, result, rfl, hp, ?_⟩
  rcases hend with ⟨rfl, rfl, _⟩ | ⟨session, _, hc⟩
  · exact ⟨by simp [Sends], fun _ => id⟩
  · exact ⟨cleanup_sends hc, fun outcome ho => ((cleanup_result hc).2 outcome ho).1⟩

theorem quiet_of_kill {t : Trace} (h : Sends (· = .killSession) t) : Quiet t :=
  h.mono fun r hr => by rw [hr]; rfl

theorem reconcile_success {t : Trace} {outcome : ReconciliationOutcome}
    (h : Run (reconcile config request) t (.ok outcome)) :
    ∃ p tPlan tApply tRead tEnd verified, t = tPlan ++ tApply ++ tRead ++ tEnd ∧
      Run (Glpi.plan config request) tPlan (.ok p) ∧ Run (p.read config request) tRead (.ok verified) ∧
      isCanonical verified p.desiredResolved = true ∧ Quiet (tRead ++ tEnd) ∧
      (outcome = .changed ↔ HasMutation t) := by
  obtain ⟨t₁, t₂, result, rfl, hp, hkill, hok⟩ := run_reconcile_end h
  have hquiet := quiet_of_kill hkill
  rw [hok outcome rfl] at hp
  obtain ⟨p, tPlan, tApply, tRead, verified, rfl, hplan, hread, hcan, hq, hchanged⟩ := primary_success hp
  refine ⟨p, tPlan, tApply, tRead, t₂, verified, rfl, hplan, hread, hcan, quiet_append.mpr ⟨hq, hquiet⟩, ?_⟩
  exact hchanged.trans (iff_of_eq (by simp [hasMutation_append, hquiet.not_hasMutation]))

/-- The order of every reconciliation. Each mutation is allowed by the history before it; only the end of the session
follows a failure; and success means that a complete read after the last mutation was canonical. -/
theorem reconcile_ordered {t : Trace} {r : Except GlpiFailure ReconciliationOutcome}
    (h : Run (reconcile config request) t r) :
    (∀ pre e post, t = pre ++ e :: post → Guard config request pre e) ∧
    (∀ pre e post, t = pre ++ e :: post → Failed request.context e → ∀ r' ∈ requests post, r' = .killSession) ∧
    (∃ t₁ t₂ result, t = t₁ ++ t₂ ∧ Run (primary config request) t₁ result ∧
      ∀ r' ∈ requests t₂, r' = .killSession) ∧
    ∀ outcome, r = .ok outcome → ∃ p tPlan tApply tRead tEnd verified, t = tPlan ++ tApply ++ tRead ++ tEnd ∧
      Run (Glpi.plan config request) tPlan (.ok p) ∧ Run (p.read config request) tRead (.ok verified) ∧
      isCanonical verified p.desiredResolved = true ∧ Quiet (tRead ++ tEnd) ∧
      (outcome = .changed ↔ HasMutation t) := by
  obtain ⟨t₁, t₂, result, rfl, hp, hkill, _⟩ := run_reconcile_end h
  refine ⟨fun pre e post ht => ?_, fun pre e post ht hf => only_kill_after_failure h ht hf,
    ⟨t₁, t₂, result, rfl, hp, sends_iff.mp hkill⟩, fun outcome ho => reconcile_success (ho ▸ h)⟩
  rcases append_cons_eq_append ht.symm with ⟨post', ht', _⟩ | ⟨pre', rfl, rfl⟩
  · exact (primary_holds t₁ result hp).1 pre e post' ht'
  · exact guard_of_harmless (quiet_of_kill hkill e (by simp))

theorem sample_ordered : ∃ t, Run (reconcile sampleConfig grantRequest) t (.ok .changed) ∧ HasMutation t ∧
    ∀ pre e post, t = pre ++ e :: post → Guard sampleConfig grantRequest pre e := by
  obtain ⟨t, s', hrun, _⟩ := grant_changed
  obtain ⟨hguard, _, _, hsuccess⟩ := reconcile_ordered hrun
  obtain ⟨_, _, _, _, _, _, _, _, _, _, _, hchanged⟩ := hsuccess _ rfl
  exact ⟨t, hrun, hchanged.mp rfl, hguard⟩

end PermissionSync.Glpi
