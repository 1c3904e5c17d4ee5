import PermissionSync.Glpi.Lemmas.Phases

/-!
# Deadlines and cleanup

Nothing is assumed about the clock, the cancellation signal or the answers.
-/

namespace PermissionSync.Glpi

open PermissionSync.Base PermissionSync.Wire

variable {config : ValidatedConfig} {context : SynchronizationContext} {session : GlpiSession}
variable {request : AdapterRequest}

/-! ## Every request is timed -/

/-- Every request is sent right after a poll that saw no cancellation and a clock reading before the overall
deadline, and its own deadline is the one of an operation that starts at that reading. -/
def Timely (config : ValidatedConfig) (context : SynchronizationContext) (t : Trace) : Prop :=
  ∀ pre call answer post, t = pre ++ exchanged call answer :: post →
    ∃ pre' n, pre = pre' ++ [polled false, clock n] ∧ n < context.deadline ∧
      call.deadline = operationDeadline context config.operationTimeout n

theorem timely_of_silent {t : Trace} (h : ∀ e ∈ t, sent e = none) : Timely config context t := by
  rintro pre call answer post rfl
  have := h (exchanged call answer) (by simp)
  cases this

theorem timely_append {t₁ t₂ : Trace} (h₁ : Timely config context t₁) (h₂ : Timely config context t₂) :
    Timely config context (t₁ ++ t₂) := by
  intro pre call answer post h
  rcases append_cons_eq_append h.symm with ⟨post', ht, _⟩ | ⟨pre', rfl, ht⟩
  · exact h₁ pre call answer post' ht
  · obtain ⟨pre'', n, rfl, hn⟩ := h₂ pre' call answer post ht
    exact ⟨t₁ ++ pre'', n, by simp, hn⟩

theorem timely_callTrace {r : Request} {hs : Headers} {n : Instant} {answer : Except GlpiFailure RawResponse}
    (hn : n < context.deadline) : Timely config context (callTrace config context r hs n answer) := by
  intro pre call answer' post h
  obtain ⟨rfl, he, _⟩ := eq_of_callTrace h (by simp)
  cases he
  exact ⟨[], n, rfl, hn, rfl⟩

theorem timely_admits (config : ValidatedConfig) (context : SynchronizationContext) :
    Admits config context (fun _ => True) (Timely config context) (Timely config context) where
  nil := timely_of_silent (by simp)
  append := timely_append
  fail := timely_of_silent (by simp)
  appendFail := timely_append
  checked _ _ := timely_of_silent (by simp)
  cancelled := timely_of_silent (by simp)
  expired _ _ := timely_of_silent (by simp)
  accepted _ _ _ _ _ hn _ := timely_callTrace hn
  answered _ _ _ _ _ hn := timely_callTrace hn

theorem timely_cleanup {outcome : Except GlpiFailure ReconciliationOutcome} {t : Trace}
    {r : Except GlpiFailure ReconciliationOutcome} (h : Run (cleanup config session context outcome) t r) :
    Timely config context t := by
  rcases run_cleanup h with ⟨_, hsent, _⟩ | ⟨_, _, hsent⟩ | ⟨n, m, hs, answer, hm, rfl, _⟩
  · exact timely_of_silent hsent
  · exact timely_of_silent hsent
  · exact timely_append (timely_of_silent (by simp)) (timely_callTrace hm)

theorem timely_primary {t : Trace} {r : Except GlpiFailure ReconciliationOutcome}
    (h : Run (primary config request) t r) : Timely config request.context t :=
  (primary_sat (timely_admits config request.context) trivial fun _ _ => trivial).of_run h

/-! ## The end of the session -/

theorem cleanup_kill_last {outcome : Except GlpiFailure ReconciliationOutcome} {pre post : Trace} {e : Event glpi}
    {r : Except GlpiFailure ReconciliationOutcome}
    (h : Run (cleanup config session context outcome) (pre ++ e :: post) r) (he : sent e ≠ none) :
    (∀ e' ∈ pre, sent e' = none) ∧ post = [] := by
  rcases run_cleanup h with ⟨_, hsent, _⟩ | ⟨_, _, hsent⟩ | ⟨n, m, hs, answer, _, ht, _⟩
  · exact absurd (hsent e (by simp)) he
  · exact absurd (hsent e (by simp)) he
  · have hsilent : ∀ e ∈ [polled false, clock n, polled false, clock m], sent e = none := by simp
    obtain ⟨rfl, _, rfl⟩ := eq_of_notMem_append (notMem_of_silent hsilent he) ht.symm
    exact ⟨hsilent, rfl⟩

theorem primary_sends {t : Trace} {r : Except GlpiFailure ReconciliationOutcome}
    (h : Run (primary config request) t r) : Sends (· ≠ .killSession) t := by
  refine (primary_sat (sends_admits config request.context _) (by simp) ?_).of_run h
  rintro r hr rfl
  cases hr

/-- The trace ends with a complete final verification. -/
def EndsVerified (config : ValidatedConfig) (request : AdapterRequest) (t : Trace) : Prop :=
  ∃ session options userId desired t₁ t₂, t = t₁ ++ t₂ ∧
    Run (verifyAssignments config session options request.username userId desired request.context) t₂ (.ok ())

theorem endsVerified_of_ok {t : Trace} {outcome : ReconciliationOutcome}
    (h : Run (primary config request) t (.ok outcome)) : EndsVerified config request t := by
  obtain ⟨p, t₁, _, rfl, _, he⟩ := run_primary_ok.mp h
  obtain ⟨total, t₂, t₃, rfl, _, hv, _⟩ := run_execute_ok.mp he
  exact ⟨p.session, _, p.userId, p.desiredResolved, t₁ ++ t₂, t₃, by simp, hv⟩

theorem operationDeadline_le {timeout : Nat} {n : Instant} : operationDeadline context timeout n ≤ context.deadline :=
  Nat.min_le_left _ _

/-- Every request of a reconciliation is timed; the session is ended at most once, after it began and after every
other request; a cleanup failure never replaces a primary one; and success means that the session was ended, or
that cancellation or expiry was observed after the final verification. -/
theorem reconcile_timely_and_cleaned_up {t : Trace} {r : Except GlpiFailure ReconciliationOutcome}
    (h : Run (reconcile config request) t r) :
    Timely config request.context t ∧
    (∀ call answer, exchanged call answer ∈ t → call.deadline ≤ request.context.deadline) ∧
    (∀ pre e post, t = pre ++ e :: post → sent e = some .killSession →
      (∀ e' ∈ pre, sent e' ≠ some .killSession) ∧ (∀ e' ∈ post, sent e' = none) ∧
        ∃ e' ∈ pre, ∃ session, Accepted .initSession readInitSession session e') ∧
    ∃ t₁ t₂ result, t = t₁ ++ t₂ ∧ Run (primary config request) t₁ result ∧
      (∀ failure, result = .error failure → r = .error failure) ∧
      ∀ outcome, r = .ok outcome → result = .ok outcome ∧ EndsVerified config request t₁ ∧
        ((∃ e ∈ t₂, Accepted .killSession (readTrue .cleanupFailed) () e) ∨
          (∀ e ∈ t₂, sent e = none) ∧ ∃ e ∈ t₂, ObservedStop request.context e) := by
  obtain ⟨t₁, t₂, outcome, rfl, hp, hend⟩ := run_reconcile h
  have htimely : Timely config request.context (t₁ ++ t₂) := by
    rcases hend with ⟨rfl, _⟩ | ⟨session, _, hc⟩
    · exact timely_append (timely_primary hp) (timely_of_silent (by simp))
    · exact timely_append (timely_primary hp) (timely_cleanup hc)
  refine ⟨htimely, ?_, ?_, t₁, t₂, outcome, rfl, hp, ?_⟩
  · intro call answer hmem
    obtain ⟨pre, post, ht⟩ := List.append_of_mem hmem
    obtain ⟨_, n, _, _, hd⟩ := htimely pre call answer post ht
    exact hd ▸ operationDeadline_le
  · intro pre e post ht he
    have hprimary := primary_sends hp
    rcases append_cons_eq_append ht.symm with ⟨post', rfl, _⟩ | ⟨pre', rfl, rfl⟩
    · exact absurd rfl (hprimary e (by simp) _ he)
    · rcases hend with ⟨hnil, _⟩ | ⟨session, ⟨e', he', hacc⟩, hc⟩
      · simp at hnil
      · obtain ⟨hpre, rfl⟩ := cleanup_kill_last hc (by rw [he]; simp)
        refine ⟨?_, by simp, e', List.mem_append_left _ he', session, hacc⟩
        intro e'' hmem hk
        rcases List.mem_append.mp hmem with hmem | hmem
        · exact hprimary e'' hmem _ hk rfl
        · rw [hpre e'' hmem] at hk
          cases hk
  · rcases hend with ⟨_, rfl, e, rfl⟩ | ⟨session, _, hc⟩
    · exact ⟨fun _ => id, fun _ ho => by cases ho⟩
    · obtain ⟨hfail, hok⟩ := cleanup_result hc
      refine ⟨hfail, fun o hr => ?_⟩
      obtain ⟨rfl, hcleaned⟩ := hok o hr
      exact ⟨rfl, endsVerified_of_ok hp, hcleaned⟩

def sampleConfig : ValidatedConfig := ⟨"app", "user", 5, .default⟩

/-- A request with an empty payload. -/
def sampleRequest : AdapterRequest :=
  { username := "ada", version := 1, payload := ⟨[], some (.obj [("permissions", .arr [])])⟩, context := ⟨100⟩ }

def sampleHeaders : Headers := [("session-token", "s"), ("app-token", "app")]

/-- The session begins, the visibility is refused, the session is ended. -/
def refusedTrace : Trace :=
  [polled false, clock 0] ++
    callTrace sampleConfig ⟨100⟩ .initSession [("authorization", "user_token user"), ("app-token", "app")] 1
      (.ok ⟨200, ⟨[], some (.obj [("session_token", .str "s")])⟩⟩) ++
    callTrace sampleConfig ⟨100⟩ .changeActiveEntities sampleHeaders 2 (.ok ⟨500, ⟨[], none⟩⟩) ++
    [polled false, clock 3] ++
    callTrace sampleConfig ⟨100⟩ .killSession sampleHeaders 4 (.ok ⟨200, ⟨trueLiteral, none⟩⟩)

theorem reconcile_refused_cleaned_up :
    Run (reconcile sampleConfig sampleRequest) refusedTrace (.error .incompleteVisibility) ∧
      Timely sampleConfig ⟨100⟩ refusedTrace := by
  have h : Run (reconcile sampleConfig sampleRequest) refusedTrace (.error .incompleteVisibility) :=
    run_of_follow (by rfl)
  exact ⟨h, (reconcile_timely_and_cleaned_up h).1⟩

end PermissionSync.Glpi
