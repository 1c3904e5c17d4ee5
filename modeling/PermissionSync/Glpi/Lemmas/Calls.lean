import PermissionSync.Base.Trace
import PermissionSync.Glpi.Adapter

/-!
# Runs of the adapter's primitives

The three kinds of events, and the runs of the functions that send one request.
-/

namespace PermissionSync.Glpi

open PermissionSync.Base PermissionSync.Wire

variable {config : ValidatedConfig} {context : SynchronizationContext} {session : GlpiSession}

/-! ## Events -/

/-- The cancellation signal was polled. -/
def polled (b : Bool) : Event glpi := ⟨.isCancelled, b⟩

/-- The clock was read. -/
def clock (t : Instant) : Event glpi := ⟨.now, t⟩

/-- A request was sent and answered. -/
def exchanged (call : Outbound) (answer : Except GlpiFailure RawResponse) : Event glpi := ⟨.request call, answer⟩

/-- The request of an event. -/
def sent (e : Event glpi) : Option Request :=
  match e with
  | ⟨.request call, _⟩ => some call.request
  | ⟨.isCancelled, _⟩ => none
  | ⟨.now, _⟩ => none

@[simp] theorem sent_polled (b : Bool) : sent (polled b) = none := rfl

@[simp] theorem sent_clock (t : Instant) : sent (clock t) = none := rfl

@[simp] theorem sent_exchanged (call : Outbound) (answer : Except GlpiFailure RawResponse) :
    sent (exchanged call answer) = some call.request := rfl

/-- The event sent the request and the reader accepted the response with the value. -/
def Accepted {α : Type} (r : Request) (read : RawResponse → Except GlpiFailure α) (a : α) (e : Event glpi) : Prop :=
  ∃ call response, e = exchanged call (.ok response) ∧ call.request = r ∧ read response = .ok a

theorem Accepted.sent_eq {α : Type} {r : Request} {read : RawResponse → Except GlpiFailure α} {a : α}
    {e : Event glpi} (h : Accepted r read a e) : sent e = some r := by
  obtain ⟨call, response, rfl, rfl, _⟩ := h
  rfl

/-! ## Runs -/

theorem run_isCancelled_bind {α : Type} {f : Bool → Io α} {t : Trace} {r : Except GlpiFailure α} :
    Run (isCancelled >>= f) t r ↔ ∃ b t', t = polled b :: t' ∧ Run (f b) t' r := run_ask_bind

theorem run_now_bind {α : Type} {f : Instant → Io α} {t : Trace} {r : Except GlpiFailure α} :
    Run (now >>= f) t r ↔ ∃ n t', t = clock n :: t' ∧ Run (f n) t' r := run_ask_bind

theorem run_send {call : Outbound} {t : Trace} {r : Except GlpiFailure RawResponse} :
    Run (send call) t r ↔ t = [exchanged call r] := by
  refine run_ask_bind.trans ?_
  constructor
  · rintro ⟨answer, t', rfl, h⟩
    obtain ⟨rfl, rfl⟩ := run_lift.mp h
    rfl
  · rintro rfl
    exact ⟨r, [], rfl, run_lift.mpr ⟨rfl, rfl⟩⟩

/-- Polling the signal and, if it is not set, reading the clock. -/
theorem run_poll {α : Type} {d : Instant} {e : GlpiFailure} {f : Instant → α} {t : Trace}
    {r : Except GlpiFailure α} :
    Run (isCancelled >>= fun b => if b = true then .fail .cancelled else
      now >>= fun n => if d ≤ n then .fail e else pure (f n)) t r ↔
      (t = [polled true] ∧ r = .error .cancelled) ∨
      ∃ n, t = [polled false, clock n] ∧ r = if d ≤ n then .error e else .ok (f n) := by
  have hclock (n : Instant) (t' : Trace) :
      Run (if d ≤ n then .fail e else pure (f n)) t' r ↔ t' = [] ∧ r = if d ≤ n then .error e else .ok (f n) := by
    split
    · exact run_fail
    · exact run_pure
  rw [run_isCancelled_bind]
  constructor
  · rintro ⟨b, t', rfl, h⟩
    cases b with
    | true =>
        obtain ⟨rfl, rfl⟩ := run_fail.mp h
        exact Or.inl ⟨rfl, rfl⟩
    | false =>
        obtain ⟨n, t'', rfl, h'⟩ := run_now_bind.mp h
        obtain ⟨rfl, rfl⟩ := (hclock n t'').mp h'
        exact Or.inr ⟨n, rfl, rfl⟩
  · rintro (⟨rfl, rfl⟩ | ⟨n, rfl, rfl⟩)
    · exact ⟨true, [], rfl, run_fail.mpr ⟨rfl, rfl⟩⟩
    · exact ⟨false, [clock n], rfl, run_now_bind.mpr ⟨n, [], rfl, (hclock n []).mpr ⟨rfl, rfl⟩⟩⟩

theorem run_effectiveDeadline {timeout : Nat} {t : Trace} {r : Except GlpiFailure Instant} :
    Run (effectiveDeadline context timeout) t r ↔
      (t = [polled true] ∧ r = .error .cancelled) ∨
      ∃ n, t = [polled false, clock n] ∧ r = if context.deadline ≤ n then .error .deadlineExceeded
        else .ok (operationDeadline context timeout n) :=
  run_poll

theorem run_checkContext {d : Instant} {t : Trace} {r : Except GlpiFailure Unit} :
    Run (checkContext d) t r ↔
      (t = [polled true] ∧ r = .error .cancelled) ∨
      ∃ n, t = [polled false, clock n] ∧ r = if d ≤ n then .error .deadlineExceeded else .ok () :=
  run_poll

/-- An operation that got its deadline saw neither cancellation nor expiry. -/
theorem run_effectiveDeadline_ok {timeout : Nat} {t : Trace} {d : Instant} :
    Run (effectiveDeadline context timeout) t (.ok d) ↔
      ∃ n, t = [polled false, clock n] ∧ n < context.deadline ∧ d = operationDeadline context timeout n := by
  rw [run_effectiveDeadline]
  constructor
  · rintro (⟨_, h⟩ | ⟨n, rfl, h⟩)
    · cases h
    · split at h
      · cases h
      · cases h
        exact ⟨n, rfl, not_le.mp ‹_›, rfl⟩
  · rintro ⟨n, rfl, hn, rfl⟩
    exact Or.inr ⟨n, rfl, by rw [if_neg (not_le.mpr hn)]⟩

theorem run_checkContext_ok {d : Instant} {t : Trace} :
    Run (checkContext d) t (.ok ()) ↔ ∃ n, t = [polled false, clock n] ∧ n < d := by
  rw [run_checkContext]
  constructor
  · rintro (⟨_, h⟩ | ⟨n, rfl, h⟩)
    · cases h
    · split at h
      · cases h
      · exact ⟨n, rfl, not_le.mp ‹_›⟩
  · rintro ⟨n, rfl, hn⟩
    exact Or.inr ⟨n, rfl, by rw [if_neg (not_le.mpr hn)]⟩

/-- A request fails before it is sent, or is sent once and its answer read. -/
theorem run_exchange {α : Type} {request : Request} {headers : Except GlpiFailure Headers}
    {read : RawResponse → Except GlpiFailure α} {d : Instant} {t : Trace} {r : Except GlpiFailure α} :
    Run (exchange request headers read d) t r ↔
      (∃ e, headers = .error e ∧ t = [] ∧ r = .error e) ∨
      ∃ hs answer, headers = .ok hs ∧ t = [exchanged ⟨request, hs, d⟩ answer] ∧ r = answer >>= read := by
  rw [exchange, run_lift_bind]
  refine or_congr_right ?_
  constructor
  · rintro ⟨hs, hh, h⟩
    rcases run_bind.mp h with ⟨e, h', rfl⟩ | ⟨response, t₁, t₂, rfl, h', hl⟩
    · exact ⟨hs, .error e, hh, run_send.mp h', rfl⟩
    · obtain ⟨rfl, rfl⟩ := run_lift.mp hl
      exact ⟨hs, .ok response, hh, by rw [List.append_nil, run_send.mp h'], rfl⟩
  · rintro ⟨hs, answer, hh, rfl, rfl⟩
    refine ⟨hs, hh, run_bind.mpr ?_⟩
    cases answer with
    | error e => exact Or.inl ⟨e, run_send.mpr rfl, rfl⟩
    | ok response => exact Or.inr ⟨response, _, [], rfl, run_send.mpr rfl, run_lift.mpr ⟨rfl, rfl⟩⟩

/-- The events of one request that was sent and answered. -/
def callTrace (config : ValidatedConfig) (context : SynchronizationContext) (request : Request) (hs : Headers)
    (n : Instant) (answer : Except GlpiFailure RawResponse) : Trace :=
  [polled false, clock n,
    exchanged ⟨request, hs, operationDeadline context config.operationTimeout n⟩ answer]

theorem notMem_of_silent {a : Trace} {e : Event glpi} (ha : ∀ e ∈ a, sent e = none) (he : sent e ≠ none) : e ∉ a :=
  fun hmem => he (ha e hmem)

theorem eq_of_callTrace {request : Request} {hs : Headers} {n : Instant}
    {answer : Except GlpiFailure RawResponse} {pre post : Trace} {e : Event glpi}
    (h : callTrace config context request hs n answer = pre ++ e :: post) (he : sent e ≠ none) :
    pre = [polled false, clock n] ∧
      e = exchanged ⟨request, hs, operationDeadline context config.operationTimeout n⟩ answer ∧ post = [] :=
  eq_of_notMem_append (a := [polled false, clock n]) (notMem_of_silent (by simp) he) h

theorem accepted_mem_callTrace {α : Type} (config : ValidatedConfig) (context : SynchronizationContext)
    (request : Request) (hs : Headers) (n : Instant) {response : RawResponse}
    {read : RawResponse → Except GlpiFailure α} {a : α} (h : read response = .ok a) :
    ∃ e ∈ callTrace config context request hs n (.ok response), Accepted request read a e :=
  ⟨_, List.mem_cons_of_mem _ (List.mem_cons_of_mem _ List.mem_cons_self), _, response, rfl, rfl, h⟩

/-- An operation gets no deadline, or starts at the instant of its poll. -/
theorem run_effectiveDeadline_bind {α : Type} {f : Instant → Io α} {t : Trace} {r : Except GlpiFailure α} :
    Run (effectiveDeadline context config.operationTimeout >>= f) t r ↔
      (t = [polled true] ∧ r = .error .cancelled) ∨
      (∃ n, context.deadline ≤ n ∧ t = [polled false, clock n] ∧ r = .error .deadlineExceeded) ∨
      ∃ n t', n < context.deadline ∧ t = [polled false, clock n] ++ t' ∧
        Run (f (operationDeadline context config.operationTimeout n)) t' r := by
  rw [run_bind]
  constructor
  · rintro (⟨e, h, rfl⟩ | ⟨d, t₁, t₂, rfl, h, hk⟩)
    · rcases run_effectiveDeadline.mp h with ⟨rfl, he⟩ | ⟨n, rfl, he⟩
      · cases he
        exact Or.inl ⟨rfl, rfl⟩
      · split at he
        · cases he
          exact Or.inr (Or.inl ⟨n, ‹_›, rfl, rfl⟩)
        · cases he
    · obtain ⟨n, rfl, hn, rfl⟩ := run_effectiveDeadline_ok.mp h
      exact Or.inr (Or.inr ⟨n, t₂, hn, rfl, hk⟩)
  · rintro (⟨rfl, rfl⟩ | ⟨n, hn, rfl, rfl⟩ | ⟨n, t', hn, rfl, hk⟩)
    · exact Or.inl ⟨_, run_effectiveDeadline.mpr (Or.inl ⟨rfl, rfl⟩), rfl⟩
    · exact Or.inl ⟨_, run_effectiveDeadline.mpr (Or.inr ⟨n, rfl, by rw [if_pos hn]⟩), rfl⟩
    · exact Or.inr ⟨_, _, t', rfl, run_effectiveDeadline_ok.mpr ⟨n, rfl, hn, rfl⟩, hk⟩

/-- Runs of a timed request. -/
theorem run_timed {α : Type} {request : Request} {headers : Except GlpiFailure Headers}
    {read : RawResponse → Except GlpiFailure α} {t : Trace} {r : Except GlpiFailure α} :
    Run (timed config context (exchange request headers read)) t r ↔
      (t = [polled true] ∧ r = .error .cancelled) ∨
      (∃ n, context.deadline ≤ n ∧ t = [polled false, clock n] ∧ r = .error .deadlineExceeded) ∨
      (∃ n e, n < context.deadline ∧ headers = .error e ∧ t = [polled false, clock n] ∧ r = .error e) ∨
      ∃ n hs answer, n < context.deadline ∧ headers = .ok hs ∧
        t = callTrace config context request hs n answer ∧ r = answer >>= read := by
  rw [timed, run_effectiveDeadline_bind]
  refine or_congr_right (or_congr_right ?_)
  constructor
  · rintro ⟨n, t', hn, rfl, h⟩
    rcases run_exchange.mp h with ⟨e, hh, rfl, rfl⟩ | ⟨hs, answer, hh, rfl, rfl⟩
    · exact Or.inl ⟨n, e, hn, hh, rfl, rfl⟩
    · exact Or.inr ⟨n, hs, answer, hn, hh, rfl, rfl⟩
  · rintro (⟨n, e, hn, hh, rfl, rfl⟩ | ⟨n, hs, answer, hn, hh, rfl, rfl⟩)
    · exact ⟨n, [], hn, rfl, run_exchange.mpr (Or.inl ⟨e, hh, rfl, rfl⟩)⟩
    · exact ⟨n, _, hn, rfl, run_exchange.mpr (Or.inr ⟨hs, answer, hh, rfl, rfl⟩)⟩

/-- A timed request that returned a value. -/
theorem run_timed_ok {α : Type} {request : Request} {headers : Except GlpiFailure Headers}
    {read : RawResponse → Except GlpiFailure α} {t : Trace} {a : α} :
    Run (timed config context (exchange request headers read)) t (.ok a) ↔
      ∃ n hs response, n < context.deadline ∧ headers = .ok hs ∧ read response = .ok a ∧
        t = callTrace config context request hs n (.ok response) := by
  rw [run_timed]
  constructor
  · rintro (⟨_, h⟩ | ⟨_, _, _, h⟩ | ⟨_, _, _, _, _, h⟩ | ⟨n, hs, answer, hn, hh, rfl, h⟩)
    · cases h
    · cases h
    · cases h
    · obtain ⟨response, rfl, hread⟩ := bind_eq_ok.mp h.symm
      exact ⟨n, hs, response, hn, hh, hread, rfl⟩
  · rintro ⟨n, hs, response, hn, hh, hread, rfl⟩
    exact Or.inr (Or.inr (Or.inr ⟨n, hs, .ok response, hn, hh, rfl, hread.symm⟩))

/-- Runs of the request of a page or an item. -/
theorem run_fetch {request : Request} {t : Trace} {r : Except GlpiFailure RawResponse} :
    Run (fetch config session request context) t r ↔
      (∃ e, sessionHeaders session config = .error e ∧ t = [] ∧ r = .error e) ∨
      ∃ hs, sessionHeaders session config = .ok hs ∧
        ((t = [polled true] ∧ r = .error .cancelled) ∨
        (∃ n, context.deadline ≤ n ∧ t = [polled false, clock n] ∧ r = .error .deadlineExceeded) ∨
        ∃ n, n < context.deadline ∧ t = callTrace config context request hs n r) := by
  rw [fetch, run_lift_bind]
  refine or_congr_right (exists_congr fun hs => and_congr_right fun _ => ?_)
  rw [run_effectiveDeadline_bind]
  refine or_congr_right (or_congr_right (exists_congr fun n => ?_))
  constructor
  · rintro ⟨t', hn, rfl, h⟩
    rw [run_send.mp h]
    exact ⟨hn, rfl⟩
  · rintro ⟨hn, rfl⟩
    exact ⟨_, hn, rfl, run_send.mpr rfl⟩

theorem run_fetch_ok {request : Request} {t : Trace} {response : RawResponse} :
    Run (fetch config session request context) t (.ok response) ↔
      ∃ n hs, n < context.deadline ∧ sessionHeaders session config = .ok hs ∧
        t = callTrace config context request hs n (.ok response) := by
  rw [run_fetch]
  constructor
  · rintro (⟨_, _, _, h⟩ | ⟨hs, hh, ⟨_, h⟩ | ⟨_, _, _, h⟩ | ⟨n, hn, rfl⟩⟩)
    · cases h
    · cases h
    · cases h
    · exact ⟨n, hs, hn, hh, rfl⟩
  · rintro ⟨n, hs, hn, hh, rfl⟩
    exact Or.inr ⟨hs, hh, Or.inr (Or.inr ⟨n, hn, rfl⟩)⟩

/-! ## The loop of a search -/

/-- Induction along the pages: what holds of a state when it holds of every later one holds of all. -/
theorem SearchState.later_induction {motive : SearchState → Prop}
    (step : ∀ state, (∀ next, state.start < next.start → next.start < u64Bound → motive next) → motive state)
    (state : SearchState) : motive state := by
  induction hm : u64Bound - state.start using Nat.strong_induction_on generalizing state with
  | _ m ih => exact step state fun next hlt hb => ih _ (by omega) next rfl

/-- One turn of the search loop. -/
theorem searchLoop_eq (spec : SearchSpec) (state : SearchState) :
    searchLoop config session spec context state =
      match checkedAdd state.start (pageSize - 1) with
      | none => .fail .searchPagination
      | some stop =>
          fetch config session (.search (spec.query state.start stop)) context >>= fun response =>
            match pageTurn state stop response with
            | .error e => .fail e
            | .ok (.done rows) => pure rows
            | .ok (.more next) => searchLoop config session spec context next := by
  rw [searchLoop]
  cases checkedAdd state.start (pageSize - 1) with
  | none => rfl
  | some stop =>
      refine congrArg (fetch config session (.search (spec.query state.start stop)) context >>= ·) ?_
      funext response
      split <;> simp_all

/-- A search that returns ends with its last page, or goes on after a page. -/
theorem run_searchLoop_ok {spec : SearchSpec} {state : SearchState} {t : Trace} {rows : List Row} :
    Run (searchLoop config session spec context state) t (.ok rows) ↔
      ∃ stop n hs response turn t', checkedAdd state.start (pageSize - 1) = some stop ∧ n < context.deadline ∧
        sessionHeaders session config = .ok hs ∧ pageTurn state stop response = .ok turn ∧
        t = callTrace config context (.search (spec.query state.start stop)) hs n (.ok response) ++ t' ∧
        ((turn = .done rows ∧ t' = []) ∨
          ∃ next, turn = .more next ∧ Run (searchLoop config session spec context next) t' (.ok rows)) := by
  rw [searchLoop_eq]
  constructor
  · intro h
    split at h
    · cases (run_fail.mp h).2
    · rename_i stop hstop
      obtain ⟨response, t₁, t', rfl, hf, hk⟩ := run_bind_ok.mp h
      obtain ⟨n, hs, hn, hh, rfl⟩ := run_fetch_ok.mp hf
      split at hk
      · cases (run_fail.mp hk).2
      · rename_i hturn
        obtain ⟨rfl, hr⟩ := run_pure.mp hk
        cases hr
        exact ⟨stop, n, hs, response, _, [], hstop, hn, hh, hturn, rfl, Or.inl ⟨rfl, rfl⟩⟩
      · rename_i next hturn
        exact ⟨stop, n, hs, response, _, t', hstop, hn, hh, hturn, rfl, Or.inr ⟨next, rfl, hk⟩⟩
  · rintro ⟨stop, n, hs, response, turn, t', hstop, hn, hh, hturn, rfl, h⟩
    rw [hstop]
    refine run_bind_ok.mpr ⟨response, _, t', rfl, run_fetch_ok.mpr ⟨n, hs, hn, hh, rfl⟩, ?_⟩
    rw [hturn]
    rcases h with ⟨rfl, rfl⟩ | ⟨next, rfl, h⟩
    · exact run_pure.mpr ⟨rfl, rfl⟩
    · exact h

/-- A search that returns ends with the request of its last page. -/
theorem searchLoop_ends {spec : SearchSpec} {state : SearchState} {t : Trace} {rows : List Row}
    (h : Run (searchLoop config session spec context state) t (.ok rows)) :
    ∃ earlier call answer, t = earlier ++ [exchanged call answer] := by
  induction state using SearchState.later_induction generalizing t with
  | step state ih =>
      obtain ⟨stop, n, hs, response, turn, t', _, _, _, hturn, rfl, hend⟩ := run_searchLoop_ok.mp h
      rcases hend with ⟨_, rfl⟩ | ⟨next, rfl, hrest⟩
      · exact ⟨[polled false, clock n], _, _, rfl⟩
      · obtain ⟨hlater, hbound⟩ := start_lt_of_more hturn
        obtain ⟨earlier, call, answer, rfl⟩ := ih next hlater hbound hrest
        exact ⟨_, call, answer, (List.append_assoc _ _ _).symm⟩

end PermissionSync.Glpi
