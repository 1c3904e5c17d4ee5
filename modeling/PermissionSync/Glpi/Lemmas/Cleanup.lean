import PermissionSync.Glpi.Lemmas.Stages

/-!
# Runs of the cleanup and of a whole reconciliation
-/

namespace PermissionSync.Glpi

open PermissionSync.Base PermissionSync.Wire

variable {config : ValidatedConfig} {context : SynchronizationContext} {session : GlpiSession}
variable {request : AdapterRequest}

/-- Everything before the cleanup. -/
def primary (config : ValidatedConfig) (request : AdapterRequest) : Io ReconciliationOutcome := do
  let desired ← acceptRequest request
  let session ← timed config request.context (initSession config)
  reconcileWithSession config session request.username desired request.context

theorem primary_sat {S : Request → Prop} {P Q : Trace → Prop} (h : Admits config request.context S P Q)
    (hinit : S .initSession) (hS : ∀ r, r.inSession = true → S r) : (primary config request).Sat P Q :=
  .bind h.toComposable (acceptRequest_sat h) fun _ =>
    .bind h.toComposable (initSession_sat h hinit) fun _ => reconcileWithSession_sat h hS

/-- Cancellation or expiry was observed. -/
def ObservedStop (context : SynchronizationContext) (e : Event glpi) : Prop :=
  e = polled true ∨ ∃ n, context.deadline ≤ n ∧ e = clock n

/-! ## Cleanup -/

theorem run_cleanupAllowed_bind {α : Type} {f : Bool → Io α} {t : Trace} {r : Except GlpiFailure α} :
    Run (cleanupAllowed context >>= f) t r ↔
      (∃ t', t = polled true :: t' ∧ Run (f false) t' r) ∨
      ∃ n t', t = polled false :: clock n :: t' ∧ Run (f (decide (n < context.deadline))) t' r := by
  change Run (isCancelled >>= fun b =>
    (if b = true then pure false else now >>= fun n => pure (decide _)) >>= f) t r ↔ _
  rw [run_isCancelled_bind]
  constructor
  · rintro ⟨b, t', rfl, h⟩
    cases b with
    | true => exact Or.inl ⟨t', rfl, h⟩
    | false =>
        obtain ⟨n, t'', rfl, h'⟩ := run_now_bind.mp h
        exact Or.inr ⟨n, t'', rfl, h'⟩
  · rintro (⟨t', rfl, h⟩ | ⟨n, t', rfl, h⟩)
    · exact ⟨true, t', rfl, h⟩
    · exact ⟨false, _, rfl, run_now_bind.mpr ⟨n, t', rfl, h⟩⟩

/-- The cleanup after its first check, which passed. -/
theorem run_cleanup_allowed {outcome : Except GlpiFailure ReconciliationOutcome} {t : Trace}
    {r : Except GlpiFailure ReconciliationOutcome}
    (h : Run ((effectiveDeadline context config.operationTimeout).attempt >>= fun x => match x with
      | .ok deadline => (killSession config session deadline).attempt >>= fun c => .lift (afterCleanup outcome c)
      | .error _ => .lift outcome) t r) :
    (r = outcome ∧ (∀ e ∈ t, sent e = none) ∧ ∃ e ∈ t, ObservedStop context e) ∨
    (∃ e, r = afterCleanup outcome (.error e) ∧ ∀ e' ∈ t, sent e' = none) ∨
    ∃ m hs answer, m < context.deadline ∧ t = callTrace config context .killSession hs m answer ∧
      r = afterCleanup outcome (answer >>= readTrue .cleanupFailed) := by
  obtain ⟨x, t₁, t₂, rfl, hx, hk⟩ := run_attempt_bind.mp h
  rcases run_effectiveDeadline.mp hx with ⟨rfl, rfl⟩ | ⟨m, rfl, rfl⟩
  · obtain ⟨rfl, rfl⟩ := run_lift.mp hk
    exact Or.inl ⟨rfl, by simp, polled true, by simp, Or.inl rfl⟩
  · by_cases hm : context.deadline ≤ m
    · rw [if_pos hm] at hk
      obtain ⟨rfl, rfl⟩ := run_lift.mp hk
      exact Or.inl ⟨rfl, by simp, clock m, by simp, Or.inr ⟨m, hm, rfl⟩⟩
    · rw [if_neg hm] at hk
      obtain ⟨c, t₁, t₃, rfl, hc, hl⟩ := run_attempt_bind.mp hk
      obtain ⟨rfl, rfl⟩ := run_lift.mp hl
      rcases run_exchange.mp hc with ⟨e, _, rfl, rfl⟩ | ⟨hs, answer, _, rfl, rfl⟩
      · exact Or.inr (Or.inl ⟨e, rfl, by simp⟩)
      · exact Or.inr (Or.inr ⟨m, hs, answer, not_le.mp hm, rfl, rfl⟩)

/-- Cleanup is suppressed by an observation, fails on its headers, or sends its one request. -/
theorem run_cleanup {outcome : Except GlpiFailure ReconciliationOutcome} {t : Trace}
    {r : Except GlpiFailure ReconciliationOutcome} (h : Run (cleanup config session context outcome) t r) :
    (r = outcome ∧ (∀ e ∈ t, sent e = none) ∧ ∃ e ∈ t, ObservedStop context e) ∨
    (∃ e, r = afterCleanup outcome (.error e) ∧ ∀ e' ∈ t, sent e' = none) ∨
    ∃ n m hs answer, m < context.deadline ∧
      t = [polled false, clock n] ++ callTrace config context .killSession hs m answer ∧
      r = afterCleanup outcome (answer >>= readTrue .cleanupFailed) := by
  rcases run_cleanupAllowed_bind.mp h with ⟨t', rfl, hk⟩ | ⟨n, t', rfl, hk⟩
  · obtain ⟨rfl, rfl⟩ := run_lift.mp hk
    exact Or.inl ⟨rfl, by simp, polled true, by simp, Or.inl rfl⟩
  · by_cases hn : n < context.deadline
    · rw [if_pos (decide_eq_true hn)] at hk
      rcases run_cleanup_allowed hk with ⟨rfl, hsent, e, he, hstop⟩ | ⟨e, rfl, hsent⟩ | ⟨m, hs, answer, hm, rfl, rfl⟩
      · exact Or.inl ⟨rfl, by simpa using hsent, e, by simp [he], hstop⟩
      · exact Or.inr (Or.inl ⟨e, rfl, by simpa using hsent⟩)
      · exact Or.inr (Or.inr ⟨n, m, hs, answer, hm, rfl, rfl⟩)
    · rw [if_neg (by simpa using hn)] at hk
      obtain ⟨rfl, rfl⟩ := run_lift.mp hk
      exact Or.inl ⟨rfl, by simp, clock n, by simp, Or.inr ⟨n, not_lt.mp hn, rfl⟩⟩

/-- A cleanup that ends the session keeps a success. -/
theorem run_cleanup_ended {outcome : ReconciliationOutcome} {hs : Headers} {n : Instant} {response : RawResponse}
    (hh : sessionHeaders session config = .ok hs) (hn : n < context.deadline)
    (hread : readTrue .cleanupFailed response = .ok ()) :
    Run (cleanup config session context (.ok outcome))
      ([polled false, clock n] ++ callTrace config context .killSession hs n (.ok response)) (.ok outcome) := by
  refine run_cleanupAllowed_bind.mpr (Or.inr ⟨n, _, rfl, ?_⟩)
  rw [if_pos (decide_eq_true hn)]
  refine run_attempt_bind.mpr ⟨.ok _, [polled false, clock n], _, rfl,
    run_effectiveDeadline_ok.mpr ⟨n, rfl, hn, rfl⟩, ?_⟩
  refine run_attempt_bind.mpr ⟨.ok (), _, [], rfl,
    run_exchange.mpr (Or.inr ⟨hs, .ok response, hh, rfl, hread.symm⟩), ?_⟩
  exact run_lift.mpr ⟨rfl, rfl⟩

theorem cleanup_sends {outcome : Except GlpiFailure ReconciliationOutcome} {t : Trace}
    {r : Except GlpiFailure ReconciliationOutcome} (h : Run (cleanup config session context outcome) t r) :
    Sends (· = .killSession) t := by
  have hsilent {t : Trace} (ht : ∀ e ∈ t, sent e = none) : Sends (· = .killSession) t := by
    intro e he r hr
    rw [ht e he] at hr
    cases hr
  rcases run_cleanup h with ⟨_, hsent, _⟩ | ⟨_, _, hsent⟩ | ⟨n, m, hs, answer, _, rfl, _⟩
  · exact hsilent hsent
  · exact hsilent hsent
  · exact sends_append.mpr ⟨hsilent (by simp), sends_callTrace rfl⟩

theorem afterCleanup_error {e : GlpiFailure} {c : Except GlpiFailure Unit} : afterCleanup (.error e) c = .error e := by
  cases c <;> rfl

theorem afterCleanup_eq_ok {x : Except GlpiFailure ReconciliationOutcome} {c : Except GlpiFailure Unit}
    {o : ReconciliationOutcome} : afterCleanup x c = .ok o ↔ x = .ok o ∧ c = .ok () := by
  cases x <;> cases c <;> simp [afterCleanup]

/-- The cleanup keeps a primary failure, and lets a success stand only if the session was ended or cancellation or
expiry was observed. -/
theorem cleanup_result {outcome : Except GlpiFailure ReconciliationOutcome} {t : Trace}
    {r : Except GlpiFailure ReconciliationOutcome} (h : Run (cleanup config session context outcome) t r) :
    (∀ failure, outcome = .error failure → r = .error failure) ∧
    ∀ o, r = .ok o → outcome = .ok o ∧
      ((∃ e ∈ t, Accepted .killSession (readTrue .cleanupFailed) () e) ∨
        (∀ e ∈ t, sent e = none) ∧ ∃ e ∈ t, ObservedStop context e) := by
  rcases run_cleanup h with ⟨rfl, hsent, hstop⟩ | ⟨e, rfl, _⟩ | ⟨n, m, hs, answer, _, rfl, rfl⟩
  · exact ⟨fun _ => id, fun o ho => ⟨ho, Or.inr ⟨hsent, hstop⟩⟩⟩
  · refine ⟨?_, fun o ho => ?_⟩
    · rintro failure rfl
      exact afterCleanup_error
    · cases (afterCleanup_eq_ok.mp ho).2
  · refine ⟨?_, fun o ho => ?_⟩
    · rintro failure rfl
      exact afterCleanup_error
    · obtain ⟨hout, hkill⟩ := afterCleanup_eq_ok.mp ho
      obtain ⟨response, rfl, hread⟩ := bind_eq_ok.mp hkill
      obtain ⟨e, he, hacc⟩ := accepted_mem_callTrace config context .killSession hs m hread
      exact ⟨hout, Or.inl ⟨e, List.mem_append_right _ he, hacc⟩⟩

/-! ## Reconciliation -/

theorem init_accepted {t : Trace} (h : Run (timed config context (initSession config)) t (.ok session)) :
    ∃ e ∈ t, Accepted .initSession readInitSession session e := by
  obtain ⟨n, hs, response, _, _, hread, rfl⟩ := run_timed_ok.mp h
  exact accepted_mem_callTrace _ _ _ _ _ hread

/-- A reconciliation runs to its primary result. It then ends, if there is no session, or cleans up. -/
theorem run_reconcile {t : Trace} {r : Except GlpiFailure ReconciliationOutcome}
    (h : Run (reconcile config request) t r) :
    ∃ t₁ t₂ outcome, t = t₁ ++ t₂ ∧ Run (primary config request) t₁ outcome ∧
      ((t₂ = [] ∧ r = outcome ∧ ∃ e, outcome = .error e) ∨
        ∃ session, (∃ e ∈ t₁, Accepted .initSession readInitSession session e) ∧
          Run (cleanup config session request.context outcome) t₂ r) := by
  rcases run_bind.mp h with ⟨e, ha, rfl⟩ | ⟨desired, t₀, t', rfl, ha, h'⟩
  · exact ⟨t, [], .error e, by simp, run_bind.mpr (Or.inl ⟨e, ha, rfl⟩), Or.inl ⟨rfl, rfl, e, rfl⟩⟩
  · rcases run_bind.mp h' with ⟨e, hi, rfl⟩ | ⟨session, t₁, t'', rfl, hi, h''⟩
    · refine ⟨t₀ ++ t', [], .error e, by simp, ?_, Or.inl ⟨rfl, rfl, e, rfl⟩⟩
      exact Run.bind ha (run_bind.mpr (Or.inl ⟨e, hi, rfl⟩))
    · obtain ⟨outcome, t₂, t₃, rfl, ho, hc⟩ := run_attempt_bind.mp h''
      obtain ⟨e, he, hacc⟩ := init_accepted hi
      refine ⟨t₀ ++ (t₁ ++ t₂), t₃, outcome, by simp, Run.bind ha (Run.bind hi ho), Or.inr ⟨session, ?_, hc⟩⟩
      exact ⟨e, List.mem_append_right _ (List.mem_append_left _ he), hacc⟩

end PermissionSync.Glpi
