import PermissionSync.Base.Settle
import PermissionSync.Net.Outbound

/-!
# What an attempt comes to
-/

namespace PermissionSync.Net

open PermissionSync.Base
open PermissionSync.Glpi (Instant)

variable {N ε α : Type}

theorem run_timeoutAt_ask_bind {F : Failures ε} {o : Op N} {f : (outbound N).Ans o → Io N ε α}
    {t : List (Event (bounded N))} {r : Except ε α} : Run (timeoutAt F (ask o >>= f)) t r ↔
      (∃ x t', t = ⟨o, .ok x⟩ :: t' ∧ Run (timeoutAt F (f x)) t' r) ∨
        ∃ x, t = [⟨o, .error x⟩] ∧ r = .error (F.interrupted o x) :=
  run_interruptible_ask_bind

variable [BEq N] [EquivBEq N]

/-- The answers that let a client go on. -/
def Calm (F : Failures ε) (deadline : Instant) : Event (outbound N) → Prop
  | ⟨.tryCurrent, ok⟩ => ok = true
  | ⟨.isCancelled _, cancelled⟩ => cancelled = false
  | ⟨.now, t⟩ => Nat.lt t deadline
  | ⟨.readSystemConf, conf⟩ => ∃ nameServer, conf.bind firstUdpNameServer = some nameServer
  | ⟨.queries name _ _, answers⟩ => ∃ ip, resolved F name answers = .ok ip
  | ⟨.connect _, ok⟩ => ok = true
  | ⟨.tlsConnect _, ok⟩ => ok = true
  | ⟨.handshake, ok⟩ => ok = true
  | ⟨.sendRequest _, response⟩ => ∃ head, response = some head
  | ⟨.frame, _⟩ => True

/-- The answers that stop a client, with the failures they stand for. -/
inductive Stops (F : Failures ε) (deadline : Instant) : Event (outbound N) → ε → Prop
  | noRuntime : Stops F deadline ⟨.tryCurrent, false⟩ F.runtimeUnavailable
  | cancelled {signal : Nat} : Stops F deadline ⟨.isCancelled signal, true⟩ F.cancelled
  | late {t : Nat} : deadline ≤ t → Stops F deadline ⟨.now, t⟩ F.deadlineExceeded
  | unconfigured {conf : Option (List NameServerConfig)} : conf.bind firstUdpNameServer = none →
      Stops F deadline ⟨.readSystemConf, conf⟩ F.transport
  | unresolved {name : N} {nameServer : UdpNameServer} {timeout : Nat} {answers : Answer N × Answer N} {f : ε} :
      resolved F name answers = .error f → Stops F deadline ⟨.queries name nameServer timeout, answers⟩ f
  | refused {address : SocketAddr} : Stops F deadline ⟨.connect address, false⟩ F.transport
  | untrusted {domain : String} : Stops F deadline ⟨.tlsConnect domain, false⟩ F.transport
  | unshaken : Stops F deadline ⟨.handshake, false⟩ F.transport
  | unanswered {request : HttpRequest} : Stops F deadline ⟨.sendRequest request, none⟩ F.transport

variable {F : Failures ε} {signal : Option Nat} {deadline : Instant}

/-- A client whose calm runs have the postcondition. -/
abbrev Comes (F : Failures ε) (deadline : Instant) (p : Io N ε α) (Q : List (Event (outbound N)) → Except ε α → Prop) :
    Prop :=
  Settles (Calm F deadline) (Stops F deadline) p Q

theorem comes_now_bind {f : Nat → Io N ε α} {Q : List (Event (outbound N)) → Except ε α → Prop}
    (hf : ∀ t, t < deadline → Comes F deadline (f t) fun u r => Q (⟨.now, t⟩ :: u) r)
    (hlate : ∀ t, deadline ≤ t → f t = .fail F.deadlineExceeded) : Comes F deadline (now >>= f) Q := by
  refine Settles.ask_bind hf fun t ht => ⟨_, .late ?_, hlate t ?_⟩
  · exact Nat.le_of_not_lt ht
  · exact Nat.le_of_not_lt ht

/-- A check is passed in calm runs. -/
theorem comes_check : Comes F deadline (check F signal deadline : Io N ε Unit) fun _ r => r = .ok () := by
  have hclock : Comes F deadline
      (do let t ← (now : Io N ε _); if deadline ≤ t then .fail F.deadlineExceeded else pure ()) fun _ r =>
        r = .ok () := by
    refine comes_now_bind (fun t ht => ?_) fun t ht => if_pos ht
    rw [if_neg (Nat.not_le_of_lt ht)]
    exact Settles.pure rfl
  unfold check
  cases signal with
  | none => exact hclock
  | some signal =>
      refine Settles.ask_bind (fun cancelled hcalm => ?_) fun cancelled hbad => ?_
      · have hcancelled : cancelled = false := hcalm
        rw [hcancelled]
        exact hclock
      · have hcancelled : cancelled = true := Bool.eq_true_of_not_eq_false hbad
        rw [hcancelled]
        exact ⟨_, .cancelled, rfl⟩

/-- A postcondition that what came before does not matter for. -/
def Late (Q : List (Event (outbound N)) → Except ε α → Prop) : Prop := ∀ t u r, Q u r → Q (t ++ u) r

theorem comes_check_bind {f : Unit → Io N ε α} {Q : List (Event (outbound N)) → Except ε α → Prop} (hlate : Late Q)
    (hf : Comes F deadline (f ()) Q) : Comes F deadline (check F signal deadline >>= f) Q := by
  refine Settles.bind comes_check (fun _ e h => ?_) fun t u h => hf.mono fun u' r => hlate t u' r
  cases h

/-- A step that succeeds in calm runs. -/
theorem comes_connected_bind {o : Op N} {ok : (outbound N).Ans o → Bool} {f : Unit → Io N ε α}
    {Q : List (Event (outbound N)) → Except ε α → Prop} (hlate : Late Q)
    (hcalm : ∀ x, Calm F deadline ⟨o, x⟩ ↔ ok x = true)
    (hstops : ∀ x, ok x = false → Stops F deadline ⟨o, x⟩ F.transport) (hf : Comes F deadline (f ()) Q) :
    Comes F deadline (ask o >>= fun x => .lift (connected F (ok x)) >>= f) Q := by
  refine Settles.ask_bind (fun x hx => ?_) fun x hx => ?_
  · rw [connected, (hcalm x).mp hx]
    exact hf.mono fun u r => hlate [_] u r
  · have hfalse : ok x = false := Bool.eq_false_of_not_eq_true fun h => hx ((hcalm x).mpr h)
    refine ⟨F.transport, hstops x hfalse, ?_⟩
    rw [connected, hfalse]
    rfl

/-- One attempt comes to what its response is read as. -/
theorem comes_attempt {resolveOneAddress : Io N ε SocketAddr} {domain : String} {request : HttpRequest}
    {read : HttpResponse → Io N ε α} {R : HttpResponse → Except ε α → Prop}
    (hresolve : Comes F deadline resolveOneAddress fun _ r => ∃ address, r = .ok address)
    (hread : ∀ response, Comes F deadline (read response) fun _ r => R response r) :
    Comes F deadline (attempt F signal deadline resolveOneAddress domain request read) fun t r =>
      ∃ response, ⟨.sendRequest request, some response⟩ ∈ t ∧ R response r := by
  have hlate : Late fun (t : List (Event (outbound N))) (r : Except ε α) =>
      ∃ response, ⟨.sendRequest request, some response⟩ ∈ t ∧ R response r :=
    fun t u r ⟨response, hmem, hR⟩ => ⟨response, List.mem_append_right t hmem, hR⟩
  unfold attempt
  refine comes_check_bind hlate ?_
  refine Settles.bind hresolve (fun _ e h => ?_) fun t address _ => ?_
  · obtain ⟨_, h⟩ := h
    cases h
  refine Settles.mono ?_ (hlate t)
  refine comes_check_bind hlate (comes_connected_bind hlate (fun _ => Iff.rfl) ?_ ?_)
  · rintro _ rfl
    exact .refused
  refine comes_check_bind hlate (comes_connected_bind hlate (fun _ => Iff.rfl) ?_ ?_)
  · rintro _ rfl
    exact .untrusted
  refine comes_check_bind hlate (comes_connected_bind hlate (fun _ => Iff.rfl) ?_ ?_)
  · rintro _ rfl
    exact .unshaken
  refine comes_check_bind hlate (Settles.ask_bind (fun response hcalm => ?_) fun response hbad => ?_)
  · obtain ⟨head, rfl⟩ := hcalm
    refine Settles.mono (comes_check_bind (Q := fun _ r => R head r) (fun _ _ _ h => h) (hread head)) fun u r hR => ?_
    exact ⟨head, List.mem_cons_self, hR⟩
  · cases response with
    | none => exact ⟨_, .unanswered, rfl⟩
    | some head => exact absurd ⟨head, rfl⟩ hbad

/-- The queries select an address in calm runs. -/
theorem comes_resolveHostname {name : N} {nameServer : UdpNameServer} :
    Comes F deadline (resolveHostname F name nameServer deadline) fun _ r => ∃ ip, r = .ok ip := by
  refine comes_now_bind (fun t ht => ?_) fun t ht => if_pos ht
  rw [if_neg (Nat.not_le_of_lt ht)]
  refine Settles.ask_bind (fun answers hcalm => Settles.lift hcalm) fun answers hbad => ?_
  cases hresolved : resolved F name answers with
  | ok ip => exact absurd ⟨ip, hresolved⟩ hbad
  | error f => exact ⟨f, .unresolved hresolved, rfl⟩

/-! ## The body -/

/-- What the frames of a body come to. -/
def collect (F : Failures ε) (limit : Nat) : List BodyFrame → List UInt8 → Except ε (List UInt8)
  | [], bytes => .ok bytes
  | .failed :: _, _ => .error F.responseBody
  | .trailers :: frames, bytes => collect F limit frames bytes
  | .data data :: frames, bytes =>
      if limit < bytes.length + data.length then .error F.responseTooLarge else collect F limit frames (bytes ++ data)

omit [BEq N] [EquivBEq N] in
theorem accumulateWithinLimit_eq {total chunkLen limit : Nat} (hlimit : limit < u64Bound) :
    accumulateWithinLimit F total chunkLen limit =
      if limit < total + chunkLen then .error F.responseTooLarge else .ok (total + chunkLen) := by
  unfold accumulateWithinLimit checkedAdd
  by_cases hsum : total + chunkLen < u64Bound
  · simp [hsum]
  · simp [hsum, show limit < total + chunkLen by omega]

theorem comes_readFrames {limit : Nat} (hlimit : limit < u64Bound) (frames : List BodyFrame) (bytes : List UInt8) :
    Comes F deadline (readFrames F signal deadline limit frames bytes : Io N ε _) fun _ r =>
      r = collect F limit frames bytes := by
  induction frames generalizing bytes with
  | nil => exact Settles.ask_bind (fun _ _ => Settles.pure rfl) fun _ hbad => absurd trivial hbad
  | cons frame frames ih =>
      refine Settles.ask_bind (fun _ _ => comes_check_bind (fun _ _ _ h => h) ?_) fun _ hbad => absurd trivial hbad
      cases frame with
      | failed => exact Settles.fail rfl
      | trailers => exact ih bytes
      | data data =>
          simp only [accumulateWithinLimit_eq hlimit, collect]
          split_ifs with hlarge
          · exact Settles.fail rfl
          · exact ih (bytes ++ data)

/-- The bytes of the frames. -/
def dataOf (frames : List BodyFrame) : List UInt8 :=
  frames.flatMap fun
    | .data data => data
    | _ => []

/-- A body is collected if no frame has failed and all the bytes are within the limit. -/
theorem collect_eq_ok {limit : Nat} {frames : List BodyFrame} {bytes body : List UInt8}
    (hbytes : bytes.length ≤ limit) :
    collect F limit frames bytes = .ok body ↔
      .failed ∉ frames ∧ body = bytes ++ dataOf frames ∧ body.length ≤ limit := by
  induction frames generalizing bytes with
  | nil =>
      simp only [collect, Except.ok.injEq, List.not_mem_nil, not_false_eq_true, true_and, dataOf,
        List.flatMap_nil, List.append_nil]
      constructor
      · rintro rfl
        exact ⟨rfl, hbytes⟩
      · exact fun h => h.1.symm
  | cons frame frames ih =>
      cases frame with
      | failed => simp [collect]
      | trailers => simpa [collect, dataOf] using ih hbytes
      | data data =>
          rw [collect]
          split_ifs with hlarge
          · refine iff_of_false (by simp) ?_
            rintro ⟨_, rfl, hlen⟩
            simp only [dataOf, List.flatMap_cons, List.length_append] at hlen
            omega
          · rw [ih (by rw [List.length_append]; omega)]
            simp [dataOf]

end PermissionSync.Net
