import PermissionSync.Net.Attempt

/-!
# The clients follow the protocol
-/

namespace PermissionSync.Net

open PermissionSync.Base
open PermissionSync.Base.Tracks (Returns)

variable {N ε α β : Type}

theorem nonempty_ans (o : Op N) : Nonempty ((outbound N).Ans o) := by
  cases o with
  | queries => exact ⟨⟨⟨0, .error .timeout⟩, ⟨0, .error .timeout⟩⟩⟩
  | sendRequest => exact ⟨none⟩
  | readSystemConf => exact ⟨none⟩
  | frame => exact ⟨()⟩
  | now => exact ⟨(0 : Nat)⟩
  | tryCurrent => exact ⟨true⟩
  | isCancelled => exact ⟨true⟩
  | connect => exact ⟨true⟩
  | tlsConnect => exact ⟨true⟩
  | handshake => exact ⟨true⟩

theorem only_check {F : Failures ε} {signal : Option Nat} {deadline : Glpi.Instant} :
    Only (fun o : Op N => o.network = false) (check F signal deadline) := by
  have hclock : Only (fun o : Op N => o.network = false)
      (do let t ← (now : Io N ε _); if deadline ≤ t then .fail F.deadlineExceeded else pure ()) := by
    refine Only.bind (Only.ask ?_) fun t => Only.ite Only.fail Only.pure
    rfl
  unfold check
  cases signal with
  | none => exact hclock
  | some signal =>
      refine Only.bind (Only.ask ?_) fun cancelled => Only.ite Only.fail hclock
      rfl

theorem only_check_bind {E : Op N → Prop} {F : Failures ε} {signal : Option Nat}
    {deadline : Glpi.Instant} {f : Unit → Io N ε α} (hquiet : ∀ o : Op N, o.network = false → E o)
    (hf : Only E (f ())) : Only E (check F signal deadline >>= f) :=
  Only.bind (only_check.mono hquiet) fun _ => hf

/-- An attempt does what it is for. -/
theorem only_attempt {E : Op N → Prop} {F : Failures ε} {signal : Option Nat} {deadline : Glpi.Instant}
    {resolveOneAddress : Io N ε SocketAddr} {domain : String} {request : HttpRequest} {read : HttpResponse → Io N ε α}
    (hquiet : ∀ o : Op N, o.network = false → E o) (hresolve : Only E resolveOneAddress)
    (hconnect : ∀ t address, Run resolveOneAddress t (.ok address) → E (.connect address))
    (hsecure : E (.tlsConnect domain)) (hshake : E .handshake) (hsend : E (.sendRequest request))
    (hread : ∀ response, Only E (read response)) :
    Only E (attempt F signal deadline resolveOneAddress domain request read) := by
  refine only_check_bind hquiet (Only.bind_of_run hresolve fun t address hrun => ?_)
  refine only_check_bind hquiet (Only.bind (Only.ask (hconnect t address hrun)) fun _ =>
    Only.bind Only.lift fun _ => ?_)
  refine only_check_bind hquiet (Only.bind (Only.ask hsecure) fun _ => Only.bind Only.lift fun _ => ?_)
  refine only_check_bind hquiet (Only.bind (Only.ask hshake) fun _ => Only.bind Only.lift fun _ => ?_)
  refine only_check_bind hquiet (Only.bind (Only.ask hsend) fun _ => Only.bind Only.lift fun response => ?_)
  exact only_check_bind hquiet (hread response)

theorem only_readFrames {E : Op N → Prop} {F : Failures ε} {signal : Option Nat} {deadline : Glpi.Instant} {limit : Nat}
    (hquiet : ∀ o : Op N, o.network = false → E o) (hframe : E .frame) (frames : List BodyFrame) (bytes : List UInt8) :
    Only E (readFrames F signal deadline limit frames bytes) := by
  induction frames generalizing bytes with
  | nil => exact Only.bind (Only.ask hframe) fun _ => Only.pure
  | cons frame frames ih =>
      refine Only.bind (Only.ask hframe) fun _ => only_check_bind hquiet ?_
      cases frame with
      | failed => exact Only.fail
      | trailers => exact ih bytes
      | data data => exact Only.bind Only.lift fun _ => ih (bytes ++ data)

variable [BEq N] [EquivBEq N] {F : Failures ε} {plan : Plan N} {s : Standing}

/-- Every run of the client from the standing is permitted, and what holds if it returns. -/
abbrev Plan.Guides (F : Failures ε) (plan : Plan N) (s : Standing) (p : Io N ε α) (Q : α → Standing → Prop) : Prop :=
  Tracks (Standing.after F) (fun s e => plan.Permits s e.op) s p (Returns Q)

theorem guides_lift {x : Except ε α} {Q : α → Standing → Prop} (h : ∀ a, x = .ok a → Q a s) :
    plan.Guides F s (.lift x : Io N ε α) Q := by
  refine Tracks.lift ?_
  cases x with
  | ok a => exact h a rfl
  | error e => trivial

/-- The second half of a check. -/
theorem guides_clock (h : plan.signal ≠ none → s.polled = true) :
    plan.Guides F s (do let t ← (now : Io N ε _); if plan.deadline ≤ t then .fail F.deadlineExceeded else pure ())
      fun _ s' => s'.stage = s.stage ∧ plan.Alive s' := by
  refine Tracks.ask_bind (fun _ => trivial) fun t => ?_
  by_cases ht : plan.deadline ≤ t
  · rw [if_pos ht]
    exact Tracks.fail trivial
  · rw [if_neg ht]
    exact Tracks.pure ⟨rfl, h, t, rfl, Nat.lt_of_not_le ht⟩

/-- A check that passes leaves the stage and finds the context alive. -/
theorem guides_check : plan.Guides F s (check F plan.signal plan.deadline : Io N ε Unit)
    fun _ s' => s'.stage = s.stage ∧ plan.Alive s' := by
  unfold check
  cases hsignal : plan.signal with
  | none => exact guides_clock fun h => absurd hsignal h
  | some signal =>
      refine Tracks.ask_bind (fun _ => hsignal) fun cancelled => ?_
      cases cancelled with
      | true => exact Tracks.fail trivial
      | false => exact guides_clock (s := { s with polled := true }) fun _ => rfl

/-- A program after a check that has passed. -/
theorem guides_check_bind {f : Unit → Io N ε α} {Q : α → Standing → Prop}
    (hf : ∀ s', s'.stage = s.stage → plan.Alive s' → plan.Guides F s' (f ()) Q) :
    plan.Guides F s (check F plan.signal plan.deadline >>= f) Q :=
  Tracks.returns_bind guides_check fun _ s' h => hf s' h.1 h.2

/-- A step that succeeds or fails the attempt. -/
theorem guides_step_bind {o : Op N} {ok : (outbound N).Ans o → Except ε β} {f : β → Io N ε α} {Q : α → Standing → Prop}
    (hpermits : plan.Permits s o) (hf : ∀ x b, ok x = .ok b → plan.Guides F (s.after F ⟨o, x⟩) (f b) Q) :
    plan.Guides F s (ask o >>= fun x => .lift (ok x) >>= f) Q := by
  refine Tracks.ask_bind (fun _ => hpermits) fun x => ?_
  exact Tracks.returns_bind (guides_lift (Q := fun b s' => ok x = .ok b ∧ s' = s.after F ⟨o, x⟩) fun b hb => ⟨hb, rfl⟩)
    fun b s' h => h.2 ▸ hf x b h.1

theorem stage_reached {stage : Stage} {ok : Bool} {u : Unit} (h : connected F ok = .ok u) :
    (Standing.reached stage ok).stage = stage := by
  rw [connected, ensure_eq_ok] at h
  rw [h]
  rfl

/-- What follows one that succeeded. -/
theorem guides_connected {o : Op N} {ok : (outbound N).Ans o → Bool} {stage : Stage} {f : Unit → Io N ε α}
    {Q : α → Standing → Prop} (hafter : ∀ x, s.after F ⟨o, x⟩ = .reached stage (ok x)) (hpermits : plan.Permits s o)
    (hf : ∀ s', s'.stage = stage → plan.Alive s' → plan.Guides F s' (f ()) Q) :
    plan.Guides F s (ask o >>= fun x => .lift (connected F (ok x)) >>= fun _ =>
      check F plan.signal plan.deadline >>= f) Q := by
  refine guides_step_bind hpermits fun x _ hok => guides_check_bind fun s' hstage halive => hf s' ?_ halive
  rw [hstage, hafter]
  exact stage_reached hok

theorem guides_attempt {start : Stage} {resolveOneAddress : Io N ε SocketAddr} {read : HttpResponse → Io N ε α}
    {Q : α → Standing → Prop} (hstart : s.stage = start)
    (hresolve : ∀ s, s.stage = start → plan.Alive s → plan.Guides F s resolveOneAddress fun address s' =>
      s'.stage = .connecting address.ip ∧ address.port = plan.port)
    (hread : ∀ response s, s.stage = .receiving → plan.Alive s → plan.Guides F s (read response) Q) :
    plan.Guides F s (attempt F plan.signal plan.deadline resolveOneAddress plan.domain plan.request read) Q := by
  unfold attempt
  refine guides_check_bind fun s₁ hstage₁ halive₁ => ?_
  refine Tracks.returns_bind (hresolve s₁ (hstage₁.trans hstart) halive₁) fun address s₂ hresolved => ?_
  refine guides_check_bind fun s₃ hstage₃ halive₃ => ?_
  refine guides_connected (fun _ => rfl) ⟨halive₃, hstage₃.trans hresolved.1, hresolved.2⟩ fun s₄ hstage₄ halive₄ => ?_
  refine guides_connected (fun _ => rfl) ⟨halive₄, hstage₄, rfl⟩ fun s₅ hstage₅ halive₅ => ?_
  refine guides_connected (fun _ => rfl) ⟨halive₅, hstage₅⟩ fun s₆ hstage₆ halive₆ => ?_
  refine guides_step_bind ⟨halive₆, hstage₆, rfl⟩ fun response₀ response hresponse => ?_
  refine guides_check_bind fun s₇ hstage₇ halive₇ => hread response s₇ ?_ halive₇
  have hsome : response₀ = some response := okOr_eq_ok.mp hresponse
  rw [hstage₇, hsome]
  rfl

/-- The queries lead to the address they select. -/
theorem guides_resolveHostname {name : N} {nameServer : UdpNameServer} (hname : plan.name = some name)
    (hstage : s.stage = .resolving (some nameServer)) (halive : plan.Alive s) :
    plan.Guides F s (resolveHostname F name nameServer plan.deadline) fun ip s' => s'.stage = .connecting ip := by
  refine Tracks.ask_bind (fun _ => trivial) fun t => ?_
  by_cases ht : plan.deadline ≤ t
  · rw [if_pos ht]
    exact Tracks.fail trivial
  · rw [if_neg ht]
    refine Tracks.ask_bind (fun _ => ⟨⟨halive.1, t, rfl, Nat.lt_of_not_le ht⟩, hstage, hname, t,
      rfl, rfl⟩) fun answers => ?_
    refine guides_lift fun ip hip => ?_
    simp [Standing.after, hip, Standing.at]

theorem guides_readFrames {limit : Nat} {frames : List BodyFrame} {bytes : List UInt8} (hstage : s.stage = .receiving)
    (halive : plan.Alive s) :
    plan.Guides F s (readFrames F plan.signal plan.deadline limit frames bytes) fun _ s' => s'.stage = .receiving := by
  induction frames generalizing s bytes with
  | nil => exact Tracks.ask_bind (fun _ => ⟨halive, hstage⟩) fun _ => Tracks.pure rfl
  | cons frame frames ih =>
      refine Tracks.ask_bind (fun _ => ⟨halive, hstage⟩) fun _ => guides_check_bind fun s' hstage' halive' => ?_
      cases frame with
      | failed => exact Tracks.fail trivial
      | trailers => exact ih hstage' halive'
      | data data =>
          refine Tracks.returns_bind (guides_lift (Q := fun _ s'' => s'' = s') fun _ _ => rfl) fun _ s'' heq => ?_
          exact heq ▸ ih hstage' halive'

/-! ## What has been done when a request is sent -/

section Follows

variable {start : Stage} {t : List (Event (bounded N))} {e : Event (bounded N)}

/-- One operation of an attempt that may be given up. -/
abbrev Standing.step (F : Failures ε) : Standing → Event (bounded N) → Standing :=
  completing Reason (Standing.after F) Standing.stop

/-- How a permitted operation moves an attempt on. -/
inductive Move (F : Failures ε) (plan : Plan N) (s : Standing) : Event (bounded N) → Stage → Prop
  | same {e : Event (bounded N)} {stage : Stage} : s.stage = stage → Move F plan s e stage
  | ended {e : Event (bounded N)} : Move F plan s e .ended
  | configured {e : Event (bounded N)} {nameServer nameServer' : Option UdpNameServer} :
      s.stage = .resolving nameServer → Move F plan s e (.resolving nameServer')
  | selected {name : N} {nameServer : UdpNameServer} {timeout : Nat} {answers : Answer N × Answer N} {ip : IpAddr} :
      s.stage = .resolving (some nameServer) → plan.name = some name → resolved F name answers = .ok ip →
      Move F plan s ⟨.queries name nameServer timeout, .ok answers⟩ (.connecting ip)
  | connected {address : SocketAddr} : s.stage = .connecting address.ip → address.port = plan.port →
      Move F plan s ⟨.connect address, .ok true⟩ .securing
  | secured : s.stage = .securing → Move F plan s ⟨.tlsConnect plan.domain, .ok true⟩ .shaking
  | shaken : s.stage = .shaking → Move F plan s ⟨.handshake, .ok true⟩ .sending
  | sent {response : HttpResponse} : s.stage = .sending →
      Move F plan s ⟨.sendRequest plan.request, .ok (some response)⟩ .receiving

theorem move_step (h : plan.Permits s e.op) : Move F plan s e (s.step F e).stage := by
  obtain ⟨o, x⟩ := e
  cases x with
  | error x => exact .ended
  | ok x =>
      cases o with
      | tryCurrent => exact .same rfl
      | isCancelled signal => exact .same rfl
      | now => exact .same rfl
      | readSystemConf => exact .configured h.choose_spec
      | queries name nameServer timeout =>
          change Move F plan s _ (s.after F ⟨.queries name nameServer timeout, x⟩).stage
          rw [Standing.after]
          split
          · exact .selected h.2.1 h.2.2.1 ‹_›
          · exact .ended
      | connect address =>
          cases x with
          | true => exact .connected h.2.1 h.2.2
          | false => exact .ended
      | tlsConnect domain =>
          obtain ⟨_, hstage, rfl⟩ := h
          cases x with
          | true => exact .secured hstage
          | false => exact .ended
      | handshake =>
          cases x with
          | true => exact .shaken h.2
          | false => exact .ended
      | sendRequest request =>
          obtain ⟨_, hstage, rfl⟩ := h
          cases x with
          | some response => exact .sent hstage
          | none => exact .ended
      | frame => exact .same h.2

/-- Where the attempt stands after the operations. -/
abbrev standing (F : Failures ε) (start : Stage) (t : List (Event (bounded N))) : Standing :=
  t.foldl (Standing.step F) (.at start)

/-- The operation that brought the attempt to a stage. -/
theorem exists_move {stage : Stage} (h : plan.Follows F start t) (hstart : start ≠ stage)
    (hend : (standing F start t).stage = stage) :
    ∃ pre e post, t = pre ++ e :: post ∧ plan.Follows F start pre ∧ (standing F start pre).stage ≠ stage ∧
      Move F plan (standing F start pre) e stage := by
  obtain ⟨pre, e, post, rfl, hpermits, hbefore, hafter⟩ :=
    Along.exists_established (P := fun s : Standing => s.stage = stage) h hstart hend
  exact ⟨pre, e, post, rfl, (along_append.mp h).1, hbefore, hafter ▸ move_step hpermits⟩

/-- An attempt begins without a connection. -/
def Stage.isStart : Stage → Bool
  | .resolving _ | .connecting _ => true
  | _ => false

/-- The address is given, or the queries have selected it. -/
def Located (F : Failures ε) (plan : Plan N) (start : Stage) (address : SocketAddr) (t : List (Event (bounded N))) :
    Prop :=
  address.port = plan.port ∧ (start = .connecting address.ip ∨ ∃ name nameServer timeout answers,
    ⟨.queries name nameServer timeout, .ok answers⟩ ∈ t ∧ plan.name = some name ∧
      resolved F name answers = .ok address.ip)

/-- The connection was opened to an address of the plan, and secured for its domain. -/
def Opened (F : Failures ε) (plan : Plan N) (start : Stage) (t : List (Event (bounded N))) : Prop :=
  ∃ address a b c, t = a ++ ⟨.connect address, .ok true⟩ :: (b ++ ⟨.tlsConnect plan.domain, .ok true⟩ :: c) ∧
    Located F plan start address a

theorem Opened.append (h : Opened F plan start t) (pre : List (Event (bounded N))) :
    Opened F plan start (pre ++ t) := by
  obtain ⟨address, a, b, c, rfl, hport, hip⟩ := h
  refine ⟨address, pre ++ a, b, c, by simp, hport, hip.imp_right ?_⟩
  rintro ⟨name, nameServer, timeout, answers, hmem, hname, hresolved⟩
  exact ⟨name, nameServer, timeout, answers, List.mem_append_right _ hmem, hname, hresolved⟩

theorem opened_of_shaking (hstart : start.isStart = true) (h : plan.Follows F start t)
    (hend : (standing F start t).stage = .shaking) : Opened F plan start t := by
  obtain ⟨t₁, e₁, c, rfl, h₁, hne₁, hmove₁⟩ := exists_move h (by rintro rfl; cases hstart) hend
  cases hmove₁ with
  | same hstage => exact absurd hstage hne₁
  | secured hsecuring =>
      obtain ⟨t₂, e₂, b, rfl, h₂, hne₂, hmove₂⟩ := exists_move h₁ (by rintro rfl; cases hstart) hsecuring
      cases hmove₂ with
      | same hstage => exact absurd hstage hne₂
      | @connected address hconnecting hport =>
          refine ⟨address, t₂, b, c, by simp, hport, ?_⟩
          by_cases hgiven : start = .connecting address.ip
          · exact Or.inl hgiven
          · obtain ⟨t₃, e₃, rest, rfl, h₃, hne₃, hmove₃⟩ := exists_move h₂ hgiven hconnecting
            cases hmove₃ with
            | same hstage => exact absurd hstage hne₃
            | selected _ hname hresolved =>
                exact Or.inr ⟨_, _, _, _, List.mem_append_right _ List.mem_cons_self, hname, hresolved⟩

/-! ## The checks -/

/-- After the network has been used nothing has been seen of the context. -/
theorem step_network (h : e.op.network = true) : ∃ stage, s.step F e = .at stage := by
  obtain ⟨o, x⟩ := e
  cases x with
  | error x => exact ⟨.ended, rfl⟩
  | ok x =>
      cases o with
      | queries name nameServer timeout =>
          change ∃ stage, s.after F ⟨.queries name nameServer timeout, x⟩ = .at stage
          rw [Standing.after]
          split <;> exact ⟨_, rfl⟩
      | connect | tlsConnect | handshake | sendRequest | frame => exact ⟨_, rfl⟩
      | tryCurrent | isCancelled | now | readSystemConf => cases h

theorem polled_step (hbefore : s.polled ≠ true) (hafter : (s.step F e).polled = true) :
    ∃ signal, e = ⟨.isCancelled signal, .ok false⟩ := by
  by_cases hnetwork : e.op.network = true
  · obtain ⟨stage, hstep⟩ := step_network (s := s) (F := F) hnetwork
    rw [hstep] at hafter
    cases hafter
  · obtain ⟨o, x⟩ := e
    cases x with
    | error x => cases hafter
    | ok x =>
        cases o with
        | tryCurrent | now | readSystemConf => exact absurd hafter hbefore
        | isCancelled signal =>
            cases x with
            | false => exact ⟨signal, rfl⟩
            | true => cases hafter
        | queries | connect | tlsConnect | handshake | sendRequest | frame => exact absurd rfl hnetwork

theorem clock_step {x : Nat} (hbefore : s.clock ≠ some x) (hafter : (s.step F e).clock = some x) :
    e = ⟨.now, .ok x⟩ := by
  by_cases hnetwork : e.op.network = true
  · obtain ⟨stage, hstep⟩ := step_network (s := s) (F := F) hnetwork
    rw [hstep] at hafter
    cases hafter
  · obtain ⟨o, y⟩ := e
    cases y with
    | error y => cases hafter
    | ok y =>
        cases o with
        | tryCurrent | isCancelled | readSystemConf => exact absurd hafter hbefore
        | now =>
            cases hafter
            rfl
        | queries | connect | tlsConnect | handshake | sendRequest | frame => exact absurd rfl hnetwork

/-- Since the network was last used, the context was found alive. -/
def Checked (signal : Option Nat) (deadline : Glpi.Instant) (t : List (Event (bounded N))) : Prop :=
  ∃ t₁ t₂, t = t₁ ++ t₂ ∧ (∀ e ∈ t₂, e.op.network = false) ∧
    (∀ s, signal = some s → ⟨.isCancelled s, .ok false⟩ ∈ t₂) ∧ ∃ x < deadline, ⟨.now, .ok x⟩ ∈ t₂

omit [BEq N] [EquivBEq N] in
theorem Checked.append {signal : Option Nat} {deadline : Glpi.Instant} (h : Checked signal deadline t)
    (pre : List (Event (bounded N))) : Checked signal deadline (pre ++ t) := by
  obtain ⟨t₁, t₂, rfl, hchecked⟩ := h
  exact ⟨pre ++ t₁, t₂, by simp, hchecked⟩

omit [BEq N] [EquivBEq N] in
theorem exists_last_network (t : List (Event (bounded N))) : ∃ t₁ t₂, t = t₁ ++ t₂ ∧ (∀ e ∈ t₂, e.op.network = false) ∧
    (t₁ = [] ∨ ∃ t₀ e, t₁ = t₀ ++ [e] ∧ e.op.network = true) := by
  induction t using List.reverseRecOn with
  | nil => exact ⟨[], [], rfl, by simp, Or.inl rfl⟩
  | append_singleton t e ih =>
      by_cases hnetwork : e.op.network = true
      · exact ⟨t ++ [e], [], by simp, by simp, Or.inr ⟨t, e, rfl, hnetwork⟩⟩
      · obtain ⟨t₁, t₂, rfl, hquiet, hlast⟩ := ih
        refine ⟨t₁, t₂ ++ [e], by simp, fun x hx => ?_, hlast⟩
        rcases List.mem_append.mp hx with hx | hx
        · exact hquiet x hx
        · rw [List.mem_singleton.mp hx]
          simpa using hnetwork

/-- The context is checked between any two uses of the network. -/
theorem checked_of_alive (h : plan.Follows F start t) (halive : plan.Alive (standing F start t)) :
    Checked plan.signal plan.deadline t := by
  obtain ⟨t₁, t₂, rfl, hquiet, hlast⟩ := exists_last_network t
  -- nothing has been seen of the context where the rest begins
  have hstanding : ∃ stage, standing F start t₁ = .at stage := by
    rcases hlast with rfl | ⟨t₀, e, rfl, hnetwork⟩
    · exact ⟨start, rfl⟩
    · rw [standing, List.foldl_append]
      exact step_network hnetwork
  obtain ⟨stage, hstage⟩ := hstanding
  have hrest := (along_append.mp h).2
  rw [standing, List.foldl_append] at halive
  rw [standing] at hstage
  rw [hstage] at hrest halive
  obtain ⟨hpolled, x, hclock, hx⟩ := halive
  refine ⟨t₁, t₂, rfl, hquiet, fun signal hsignal => ?_, x, hx, ?_⟩
  · obtain ⟨pre, e, post, rfl, hpermits, hbefore, hafter⟩ :=
      Along.exists_established (P := fun s : Standing => s.polled = true)
      hrest (by simp [Standing.at]) (hpolled (by simp [hsignal]))
    obtain ⟨signal', rfl⟩ := polled_step hbefore hafter
    have hsame : plan.signal = some signal' := hpermits
    rw [hsignal, Option.some.injEq] at hsame
    subst hsame
    exact List.mem_append_right _ List.mem_cons_self
  · obtain ⟨pre, e, post, rfl, _, hbefore, hafter⟩ :=
      Along.exists_established (P := fun s : Standing => s.clock = some x)
      hrest (by simp [Standing.at]) hclock
    rw [clock_step hbefore hafter]
    exact List.mem_append_right _ List.mem_cons_self

/-! ## The consequences -/

/-- Every use of the network comes after a check, with no other use in between. -/
theorem Plan.Follows.checked {pre post : List (Event (bounded N))} (h : plan.Follows F start (pre ++ e :: post))
    (hnetwork : e.op.network = true) : Checked plan.signal plan.deadline pre := by
  have hpermits : plan.Permits (standing F start pre) e.op := Along.allowed h
  refine checked_of_alive (along_append.mp h).1 ?_
  obtain ⟨o, x⟩ := e
  cases o with
  | queries | connect | tlsConnect | handshake | sendRequest | frame => exact hpermits.1
  | tryCurrent | isCancelled | now | readSystemConf => cases hnetwork

/-- A request that is sent is the planned one, over a connection that was opened and secured for it. -/
theorem Plan.Follows.sent {pre post : List (Event (bounded N))} {request : HttpRequest}
    {x : Except Interruption (Option HttpResponse)} (hstart : start.isStart = true)
    (h : plan.Follows F start (pre ++ ⟨.sendRequest request, x⟩ :: post)) :
    request = plan.request ∧ ∃ c d, pre = c ++ ⟨.handshake, .ok true⟩ :: d ∧ Opened F plan start c := by
  obtain ⟨_, hsending, hrequest⟩ : plan.Permits (standing F start pre) (.sendRequest request) := Along.allowed h
  obtain ⟨c, e, d, rfl, hc, hne, hmove⟩ := exists_move (along_append.mp h).1 (by rintro rfl; cases hstart) hsending
  cases hmove with
  | same hstage => exact absurd hstage hne
  | shaken hshaking => exact ⟨hrequest, c, d, rfl, opened_of_shaking hstart hc hshaking⟩

def isSend (e : Event (bounded N)) : Bool :=
  match e.op with
  | .sendRequest _ => true
  | _ => false

omit [BEq N] [EquivBEq N] in
theorem network_of_isSend (h : isSend e = true) : e.op.network = true := by
  obtain ⟨o, x⟩ := e
  cases o with
  | sendRequest => rfl
  | queries | connect | tlsConnect | handshake | frame | tryCurrent | isCancelled | now | readSystemConf => cases h

/-- At most one request is sent. -/
theorem Plan.Follows.sends_once (h : plan.Follows F start t) : t.countP isSend ≤ 1 := by
  refine (Along.count_le_one (P := fun s : Standing => s.stage = .receiving ∨ s.stage = .ended) h ?_ ?_).1
  · intro s e hs hpermits
    have hmove := move_step (F := F) hpermits
    generalize (s.step F e).stage = stage at hmove
    cases hmove with
    | same hstage => exact hstage ▸ hs
    | ended => exact Or.inr rfl
    | configured hstage | selected hstage | connected hstage | secured hstage | shaken hstage | sent hstage =>
        rw [hstage] at hs
        rcases hs with hs | hs <;> cases hs
  · rintro s ⟨o, x⟩ hsend hpermits
    cases o with
    | sendRequest request =>
        have hsending : s.stage = .sending := hpermits.2.1
        refine ⟨by simp [hsending], ?_⟩
        cases x with
        | error x => exact Or.inr rfl
        | ok x =>
            cases x with
            | none => exact Or.inr rfl
            | some response => exact Or.inl rfl
    | queries | connect | tlsConnect | handshake | frame | tryCurrent | isCancelled | now | readSystemConf =>
        cases hsend

end Follows

end PermissionSync.Net
