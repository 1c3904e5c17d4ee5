import PermissionSync.Runtime.Lemmas.Configuration
import PermissionSync.Runtime.Server
import PermissionSync.Runtime.Theorems.Shutdown

/-!
# The grace period and the deadlines

The grace timer starts when the flag is set, and a request that was admitted reached its route before that. The grace
period covers the overall budget of a request, so its deadline has passed when the remaining requests are cancelled.
-/

namespace PermissionSync.Runtime

open PermissionSync.Base PermissionSync.Core

variable {ι κ : Type} [DecidableEq ι] [DecidableEq κ] {grace : Duration} {connection : ι → κ} {s s' : Server ι κ}
  {p p' : Process ι} {m : Move ι κ} {moves : List (Move ι κ)} {k : ι}

/-! ## The process of the server -/

/-- The steps of the server are steps of its process. -/
theorem path_process (hpath : Path (Server.Step grace connection) s moves s') :
    Path step s.process (labels moves) s'.process := by
  induction hpath with
  | nil => exact .nil
  | @cons s s₁ s' m moves hstep _ ih =>
      have hprocess := hstep.process
      cases hlabel : m.label with
      | none =>
          rw [hlabel] at hprocess
          rw [labels, List.filterMap_cons_none hlabel]
          exact hprocess ▸ ih
      | some label =>
          rw [hlabel] at hprocess
          rw [labels, List.filterMap_cons_some hlabel]
          exact .cons hprocess ih

/-- What a label sets. -/
def Label.setsShuttingDown : Label ι → Bool
  | .storeShuttingDown => true
  | _ => false

def Label.setsNotified : Label ι → Bool
  | .notifyWaiters => true
  | _ => false

def Label.setsRequestsCancelled : Label ι → Bool
  | .storeRequestsCancelled => true
  | _ => false

/-- The clock does not go back, and a flag is set by its own label only. -/
structure Flagged (p : Process ι) (label : Option (Label ι)) (p' : Process ι) : Prop where
  clock : p.clock ≤ p'.clock
  shuttingDown : p'.shuttingDown = (p.shuttingDown || label.any Label.setsShuttingDown)
  notified : p'.notified = (p.notified || label.any Label.setsNotified)
  requestsCancelled : p'.requestsCancelled = (p.requestsCancelled || label.any Label.setsRequestsCancelled)

theorem flagged_of_step {label : Label ι} (h : step p label p') : Flagged p (some label) p' := by
  cases h with
  | tick hle => constructor <;> simp [Label.setsShuttingDown, Label.setsNotified, Label.setsRequestsCancelled, hle]
  | storeShuttingDown | storeRequestsCancelled | notifyWaiters =>
      constructor <;> simp [Label.setsShuttingDown, Label.setsNotified, Label.setsRequestsCancelled]
  | own _ haffects =>
      obtain ⟨hclock, hshuttingDown, hnotified, hcancelled⟩ := haffects.lifecycle
      constructor <;> simp [Label.setsShuttingDown, Label.setsNotified, Label.setsRequestsCancelled, *]

theorem Performs.flagged {label : Option (Label ι)} (h : Performs p label p') : Flagged p label p' := by
  cases label with
  | none =>
      cases h
      constructor <;> simp
  | some label => exact flagged_of_step h

theorem path_clock {labels : List (Label ι)} (h : Path step p labels p') : p.clock ≤ p'.clock :=
  h.invariant (P := fun p' => p.clock ≤ p'.clock) le_rfl fun _ _ _ hle hstep => hle.trans (flagged_of_step hstep).clock

/-- The clock has not gone back since it was read. -/
theorem now_le_clock {labels : List (Label ι)} (h : Path step p labels p') {n : Instant}
    (hmem : ⟨.now, n⟩ ∈ events k labels) : n ≤ p'.clock := by
  obtain ⟨_, _, p₁, _, _, hobserves, hafter⟩ := observed_of_mem h hmem
  have hread : n = p₁.clock := hobserves
  exact hread.le.trans (path_clock hafter)

/-! ## The phases -/

/-- How far the shutdown has come. -/
def Phase.rank : Phase → Nat
  | .accepting _ | .acceptBackoff _ _ | .terminating => 0
  | .announcing => 1
  | .shuttingDown => 2
  | .draining _ => 3
  | .graceExpired => 4
  | .cancelling | .drainingCancelled _ | .aborting | .ended => 5

/-- How a step moves `serve` on. -/
inductive Turns (grace : Duration) (s : Server ι κ) (m : Move ι κ) : Phase → Prop where
  | stays : Turns grace s m s.phase
  | accepts {phase : Phase} : s.phase.rank = 0 → phase.rank = 0 → Turns grace s m phase
  | announces : s.phase.rank = 0 → m = .beginShutdown → Turns grace s m .announcing
  | stops : s.phase.rank ≤ 1 → s.phase = .announcing ∨ s.process.shuttingDown = true ∨ s.process.notified = true →
      Turns grace s m .shuttingDown
  | starts : s.phase = .shuttingDown → Turns grace s m (.draining (s.process.clock + grace))
  | expires {deadline : Instant} : s.phase = .draining deadline → deadline ≤ s.process.clock →
      Turns grace s m .graceExpired
  | ends {phase : Phase} : 3 ≤ s.phase.rank → phase.rank = 5 → Turns grace s m phase

omit [DecidableEq ι] [DecidableEq κ] in
theorem turns_of_nextPhase {phase : Phase} (h : s.nextPhase grace m = some phase) : Turns grace s m phase := by
  cases m with
  | tick _ | request _ _ | terminationSignal | signalNotifies | connectionEnded _ =>
      cases h
      exact .stays
  | accepted _ =>
      dsimp only [Server.nextPhase] at h
      split at h
      · rename_i hphase
        cases h
        exact .accepts (by rw [hphase]; rfl) rfl
      · cases h
  | acceptFailed failure =>
      dsimp only [Server.nextPhase] at h
      split at h
      case h_4 => cases h
      all_goals
        rename_i hphase
        cases h
        refine .accepts (by rw [hphase]; rfl) ?_
      · rfl
      · rfl
      · split <;> rfl
  | backoffElapsed =>
      dsimp only [Server.nextPhase] at h
      split at h
      · rename_i hphase
        obtain ⟨_, ⟨⟩⟩ := Option.ite_none_right_eq_some.mp h
        exact .accepts (by rw [hphase]; rfl) rfl
      · cases h
  | shutdownStarted =>
      dsimp only [Server.nextPhase] at h
      split at h
      case h_3 => cases h
      all_goals
        rename_i hphase
        obtain ⟨hstarted, ⟨⟩⟩ := Option.ite_none_right_eq_some.mp h
        exact .stops (by rw [hphase]; exact Nat.zero_le 1) (Or.inr (Bool.or_eq_true_iff.mp hstarted))
  | beginShutdown =>
      obtain ⟨hphase, ⟨⟩⟩ := Option.ite_none_right_eq_some.mp h
      exact .announces (by rw [hphase]; rfl) rfl
  | notifyShutdown =>
      obtain ⟨hphase, ⟨⟩⟩ := Option.ite_none_right_eq_some.mp h
      exact .stops (by rw [hphase]; exact le_rfl) (Or.inl hphase)
  | startGrace =>
      obtain ⟨hphase, ⟨⟩⟩ := Option.ite_none_right_eq_some.mp h
      exact .starts hphase
  | graceElapsed =>
      dsimp only [Server.nextPhase] at h
      split at h
      · rename_i hphase
        obtain ⟨hle, ⟨⟩⟩ := Option.ite_none_right_eq_some.mp h
        exact .expires hphase hle
      · cases h
  | cancelRequests | notifyCancelled =>
      obtain ⟨hphase, ⟨⟩⟩ := Option.ite_none_right_eq_some.mp h
      exact .ends (by rw [hphase]; decide) rfl
  | drained | windowElapsed =>
      dsimp only [Server.nextPhase] at h
      split at h
      all_goals first
        | cases h
        | obtain ⟨_, ⟨⟩⟩ := Option.ite_none_right_eq_some.mp h
          exact .ends (by simp [*, Phase.rank]) rfl

/-! ## Announcing the shutdown -/

/-- The flag is set before a waiter is notified, and before the connections are shut down. -/
structure Announced (s : Server ι κ) : Prop where
  notified : s.process.notified = true → s.process.shuttingDown = true
  signal : s.signal ≠ .waiting → s.process.shuttingDown = true
  phase : 1 ≤ s.phase.rank → s.process.shuttingDown = true

/-- Who notifies has set the flag before. -/
theorem Announced.of_notifies (ha : Announced s) (h : s.Step grace connection m s')
    (hm : m.label.any Label.setsNotified = true) : s.process.shuttingDown = true := by
  have hphase := h.phase
  have hsignal := h.signal
  cases m with
  | signalNotifies =>
      obtain ⟨hsignal, _⟩ := Option.ite_none_right_eq_some.mp hsignal
      exact ha.signal (by rw [hsignal]; decide)
  | notifyShutdown | notifyCancelled =>
      obtain ⟨hphase, _⟩ := Option.ite_none_right_eq_some.mp hphase
      exact ha.phase (by rw [hphase]; decide)
  | _ => cases hm

theorem Announced.step (ha : Announced s) (h : s.Step grace connection m s') : Announced s' := by
  have hflagged := h.process.flagged
  have hkeeps (hset : s.process.shuttingDown = true) : s'.process.shuttingDown = true := by
    rw [hflagged.shuttingDown, hset, Bool.true_or]
  have hstores (hm : m.label = some .storeShuttingDown) : s'.process.shuttingDown = true := by
    rw [hflagged.shuttingDown, hm]
    exact Bool.or_true _
  refine ⟨fun hnotified => ?_, fun hsignal => ?_, fun hrank => ?_⟩
  · rw [hflagged.notified, Bool.or_eq_true_iff] at hnotified
    rcases hnotified with hnotified | hm
    · exact hkeeps (ha.notified hnotified)
    · exact hkeeps (ha.of_notifies h hm)
  · by_cases hwaiting : s.signal = .waiting
    · have hmoved := h.signal
      cases m with
      | terminationSignal => exact hstores rfl
      | signalNotifies =>
          obtain ⟨hannouncing, _⟩ := Option.ite_none_right_eq_some.mp hmoved
          exact hkeeps (ha.signal (by rw [hannouncing]; decide))
      | _ => exact absurd ((Option.some.inj hmoved).symm.trans hwaiting) hsignal
    · exact hkeeps (ha.signal hwaiting)
  · have hturns := turns_of_nextPhase h.phase
    generalize s'.phase = phase at hturns hrank
    cases hturns with
    | stays => exact hkeeps (ha.phase hrank)
    | accepts _ hzero => omega
    | announces _ hm => exact hstores (hm ▸ rfl)
    | stops _ hstopped =>
        rcases hstopped with hphase | hset | hnotified
        · exact hkeeps (ha.phase (by rw [hphase]; decide))
        · exact hkeeps hset
        · exact hkeeps (ha.notified hnotified)
    | starts hphase => exact hkeeps (ha.phase (by rw [hphase]; decide))
    | expires hphase _ => exact hkeeps (ha.phase (by rw [hphase]; simp [Phase.rank]))
    | ends hrank' _ => exact hkeeps (ha.phase (by omega))

theorem announced_of_path {clock : Instant} {configuration : ExecutableConfiguration}
    (h : Path (Server.Step grace connection) (.start clock configuration) moves s) : Announced s :=
  h.invariant (P := Announced) ⟨nofun, fun hne => absurd rfl hne, nofun⟩ fun _ _ _ ha hstep => ha.step hstep

/-! ## The grace period -/

/-- The grace timer runs until the deadline, or it has fired. -/
def GraceUntil (deadline : Instant) (s : Server ι κ) : Prop :=
  s.phase = .draining deadline ∨ 4 ≤ s.phase.rank ∧ (s.phase = .graceExpired → deadline ≤ s.process.clock)

theorem GraceUntil.step {deadline : Instant} (hg : GraceUntil deadline s) (h : s.Step grace connection m s') :
    GraceUntil deadline s' := by
  have hclock := h.process.flagged.clock
  have hturns := turns_of_nextPhase h.phase
  have hrank : 3 ≤ s.phase.rank := by
    rcases hg with hphase | ⟨hrank, _⟩
    · exact hphase ▸ le_rfl
    · omega
  unfold GraceUntil
  generalize s'.phase = phase at hturns
  cases hturns with
  | stays => exact hg.imp_right fun ⟨hexpired, hle⟩ => ⟨hexpired, fun hphase => (hle hphase).trans hclock⟩
  | accepts hzero _ | announces hzero _ | stops hzero _ => omega
  | starts hphase => exact absurd hrank (by rw [hphase]; decide)
  | @expires deadline' hphase hle =>
      refine Or.inr ⟨le_rfl, fun _ => ?_⟩
      rcases hg with hphase' | ⟨hexpired, _⟩
      · cases hphase.symm.trans hphase'
        exact hle.trans hclock
      · exact absurd hexpired (by rw [hphase]; simp [Phase.rank])
  | ends _ hended =>
      refine Or.inr ⟨by omega, fun hphase => ?_⟩
      subst hphase
      cases hended

/-- When the grace period has expired, its timer was started with the flag set. -/
theorem exists_startGrace {clock : Instant} {configuration : ExecutableConfiguration}
    (hpath : Path (Server.Step grace connection) (.start clock configuration) moves s)
    (hphase : s.phase = .graceExpired) :
    ∃ before after s₁, moves = before ++ after ∧
      Path (Server.Step grace connection) (.start clock configuration) before s₁ ∧
      Path (Server.Step grace connection) s₁ after s ∧ s₁.process.shuttingDown = true ∧
      s₁.process.clock + grace ≤ s.process.clock := by
  have hs : 3 ≤ s.phase.rank := by
    rw [hphase]
    decide
  obtain ⟨before, m, after, s₁, s₂, rfl, hbefore, hno, hstep, hyes, hafter⟩ :=
    hpath.exists_established (P := fun s => 3 ≤ s.phase.rank) (by simp [Server.start, Phase.rank]) hs
  have hstarted : s₂.phase = .draining (s₁.process.clock + grace) ∧ s₁.phase = .shuttingDown := by
    have hturns := turns_of_nextPhase hstep.phase
    generalize s₂.phase = phase at hturns hyes
    cases hturns with
    | stays => exact absurd hyes hno
    | accepts _ hzero => omega
    | announces _ _ | stops _ _ => exact absurd hyes (by decide)
    | starts hphase => exact ⟨rfl, hphase⟩
    | expires hphase _ => exact absurd (hphase ▸ le_rfl) hno
    | ends hrank _ => exact absurd hrank hno
  have hset : s₁.process.shuttingDown = true := (announced_of_path hbefore).phase (by rw [hstarted.2]; decide)
  have hgrace : GraceUntil (s₁.process.clock + grace) s :=
    hafter.invariant (P := GraceUntil (s₁.process.clock + grace)) (Or.inl hstarted.1) fun _ _ _ hg hstep =>
      hg.step hstep
  refine ⟨before, m :: after, s₁, rfl, hbefore, .cons hstep hafter, hset, ?_⟩
  rcases hgrace with hdraining | ⟨_, hle⟩
  · cases hphase.symm.trans hdraining
  · exact hle hphase

/-! ## Admitted requests -/

section

variable {state : RuntimeState} {request : Request} {pre post t : Trace}

/-- The route takes the deadline first. -/
theorem run_synchronizeRoute {r : Except Panic Response} (hr : Run (synchronizeRoute state request) t r) :
    ∃ (acceptedAt : Instant) (t' : Trace), t = ⟨.now, acceptedAt⟩ :: t' ∧
      (t' = [] ∨ ∃ deadline, Glpi.Instant.checkedAdd acceptedAt state.overallRequestDeadline = some deadline ∧
        Run (handleSynchronization state request deadline) t' r) := by
  rw [synchronizeRoute] at hr
  obtain ⟨acceptedAt, t', ht, hrun⟩ := run_ask_bind.mp hr
  refine ⟨acceptedAt, t', ht, ?_⟩
  split at hrun
  · exact Or.inl (run_fail.mp hrun).1
  · exact Or.inr ⟨_, ‹_›, hrun⟩

/-- The read of `finalize` that admits a request comes after the instant from which its deadline counts. -/
theorem admitted_of_follows (h : Follows (synchronizeRoute state request) t)
    (henter : ⟨.enter .admittedRequest, ()⟩ ∈ t) :
    ∃ (acceptedAt deadline : Instant) (earlier later : Trace),
      t = ⟨.now, acceptedAt⟩ :: earlier ++ ⟨.isShuttingDown, false⟩ :: later ∧
        Glpi.Instant.checkedAdd acceptedAt state.overallRequestDeadline = some deadline := by
  obtain ⟨pre, post, rfl⟩ := List.append_of_mem henter
  have hdrop (item : Item) : (⟨.enter .admittedRequest, ()⟩ : Event service) ≠ item.drop := by cases item <;> nofun
  have hsituated := (tidy_synchronizeRoute state request).situated_of_follows h rfl hdrop
  obtain ⟨post', hreach⟩ := h.reaches rfl hdrop
  obtain ⟨t', r, hr⟩ := hreach.exists_run
  rw [List.append_assoc, List.cons_append] at hr
  obtain ⟨acceptedAt, rest, hfirst, hrest⟩ := run_synchronizeRoute hr
  obtain ⟨t₁, n, rfl, hown⟩ := hsituated.placed
  cases t₁ with
  | nil => cases hown
  | cons e earlier =>
      obtain ⟨rfl, hrest'⟩ := List.cons_eq_cons.mp hfirst
      rcases hrest with hnil | ⟨deadline, hdeadline, _⟩
      · rw [hnil] at hrest'
        simp at hrest'
      · refine ⟨acceptedAt, deadline, earlier, ⟨.now, n⟩ :: ⟨.enter .admittedRequest, ()⟩ :: post, ?_, hdeadline⟩
        rw [List.append_assoc]
        rfl

end

/-- When the remaining requests are cancelled, the deadline of every request that was admitted has passed. -/
theorem deadlines_precede_cancellation {yaml : Yaml} {new : Constructors} {text : String}
    {configuration : ExecutableConfiguration} {read : Inbound.JsonReader} {provider : Bool} {request : ι → Request}
    {clock : Instant} (hdecode : decode yaml new text = .ok configuration)
    (hpath : Path (Server.Step configuration.shutdownGrace connection) (.start clock configuration) moves s)
    (hfollows : ∀ k, Follows (synchronizeRoute (runtimeState configuration read provider) (request k))
      (events k (labels moves)))
    (hcancel : s.Step configuration.shutdownGrace connection .cancelRequests s') (k : ι)
    (hadmitted : ⟨.enter .admittedRequest, ()⟩ ∈ events k (labels moves)) :
    ∃ (acceptedAt deadline : Instant) (rest : Trace), events k (labels moves) = ⟨.now, acceptedAt⟩ :: rest ∧
      Glpi.Instant.checkedAdd acceptedAt configuration.overallRequestDeadline = some deadline ∧
      deadline ≤ s.process.clock := by
  obtain ⟨hphase, _⟩ := Option.ite_none_right_eq_some.mp hcancel.phase
  obtain ⟨before, after, s₁, rfl, hbefore, hafter, hset, hgrace⟩ := exists_startGrace hpath hphase
  obtain ⟨acceptedAt, deadline, earlier, later, hevents, hdeadline⟩ := admitted_of_follows (hfollows k) hadmitted
  refine ⟨acceptedAt, deadline, _, hevents, hdeadline, ?_⟩
  rw [labels_append, events_append] at hevents
  obtain ⟨later', hearlier⟩ := read_precedes_set _ hset (path_process hafter) hevents
  have hmem : ⟨.now, acceptedAt⟩ ∈ events k (labels before) := by
    rw [hearlier]
    exact List.mem_cons_self
  have haccepted : acceptedAt ≤ s₁.process.clock := now_le_clock (path_process hbefore) hmem
  have hbudget := overallRequestDeadline_le_grace hdecode
  have hsum : deadline = acceptedAt + configuration.overallRequestDeadline :=
    (Option.some.inj (Option.ite_none_right_eq_some.mp hdeadline).2).symm
  calc deadline = acceptedAt + configuration.overallRequestDeadline := hsum
    _ ≤ s₁.process.clock + configuration.shutdownGrace := Nat.add_le_add haccepted hbudget
    _ ≤ s.process.clock := hgrace

/-! A request is admitted, a termination signal arrives, and the grace period ends with the request pending. -/

def pendingMoves : List (Move Unit Unit) :=
  .accepted () :: [⟨.now, (0 : Nat)⟩, ⟨.isShuttingDown, false⟩, ⟨.now, (0 : Nat)⟩, ⟨.tryAcquireOwned .permits, true⟩,
    ⟨.isShuttingDown, false⟩, ⟨.now, (0 : Nat)⟩, ⟨.enter .admittedRequest, ()⟩].map (.request ()) ++
  [.terminationSignal, .signalNotifies, .shutdownStarted, .startGrace, .tick 2000000000, .graceElapsed]

theorem pending_reached : ((pendingMoves ++ [Move.cancelRequests]).foldlM (Server.next 2000000000 fun _ => ())
    ⟨.start 0 4 2, .accepting 0, .waiting, []⟩).isSome = true := by
  decide +kernel

theorem pending_follows : Follows (synchronizeRoute ⟨fun _ => none, true, 1000000000⟩ ⟨[], []⟩)
    (events () (labels pendingMoves)) :=
  ⟨_, [], Or.inr ⟨.isCancelled 0, asks_of_pending rfl⟩, List.nil_prefix, (List.append_nil _).symm⟩

theorem plain_decoded : ∃ configuration, decode sampleYaml sampleConstructors "plain" = .ok configuration ∧
    configuration.overallRequestDeadline = 1000000000 ∧ configuration.shutdownGrace = 2000000000 ∧
    (Server.start 0 configuration : Server Unit Unit) = ⟨.start 0 4 2, .accepting 0, .waiting, []⟩ :=
  ⟨_, rfl, rfl, rfl, rfl⟩

theorem pending_request_expired : ∃ (configuration : ExecutableConfiguration) (s : Server Unit Unit),
    decode sampleYaml sampleConstructors "plain" = .ok configuration ∧
    Path (Server.Step configuration.shutdownGrace fun _ => ()) (.start 0 configuration) pendingMoves s ∧
    ∃ acceptedAt deadline : Instant,
      Glpi.Instant.checkedAdd acceptedAt configuration.overallRequestDeadline = some deadline ∧
        deadline ≤ s.process.clock := by
  obtain ⟨configuration, hdecode, hbudget, hgrace, hstart⟩ := plain_decoded
  obtain ⟨s', hs'⟩ := Option.isSome_iff_exists.mp pending_reached
  obtain ⟨s, hs, hrest⟩ := path_append.mp (Server.path_of_next hs')
  obtain ⟨s₁, hcancel, _⟩ := path_cons.mp hrest
  rw [← hgrace, ← hstart] at hs
  rw [← hgrace] at hcancel
  have hfollows (k : Unit) : Follows (synchronizeRoute (runtimeState configuration (fun _ => none) true) ⟨[], []⟩)
      (events k (labels pendingMoves)) := by
    rw [runtimeState, hbudget]
    exact pending_follows
  have hmem : ⟨.enter .admittedRequest, ()⟩ ∈ events () (labels pendingMoves) := by
    refine mem_eventsOf.mpr (List.mem_map.mpr ⟨.own () ⟨.enter .admittedRequest, ()⟩, ?_, rfl⟩)
    exact List.mem_filterMap.mpr ⟨.request () ⟨.enter .admittedRequest, ()⟩, by simp [pendingMoves], rfl⟩
  obtain ⟨acceptedAt, deadline, _, _, hdeadline, hle⟩ :=
    deadlines_precede_cancellation hdecode hs hfollows hcancel () hmem
  exact ⟨configuration, s, hdecode, hs, acceptedAt, deadline, hdeadline, hle⟩

end PermissionSync.Runtime
