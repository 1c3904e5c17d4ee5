import PermissionSync.Runtime.Lemmas.Conservation

/-!
# Admission and the start of shutdown

The flag that `finalize` reads decides: a request is admitted only by a read that precedes the store of
`begin_shutdown`. After the store no other request comes to hold, collect or authenticate anything.
-/

namespace PermissionSync.Runtime

open PermissionSync.Base PermissionSync.Core

variable {ι ε : Type} [DecidableEq ι] {s s' s₁ : Process ι} {label : Label ι} {labels before after : List (Label ι)}
  {k : ι} {h t : Trace} {deadline : Instant}

/-! ## The flag -/

theorem step_shuttingDown (hstep : step s label s') (hs : s.shuttingDown = true) : s'.shuttingDown = true := by
  cases hstep with
  | tick _ | storeRequestsCancelled | notifyWaiters => exact hs
  | storeShuttingDown => rfl
  | own _ haffects => exact haffects.lifecycle.2.1.trans hs

/-- After the store every read of the flag finds it set. -/
theorem read_of_shuttingDown (hpath : Path step s labels s') (hs : s.shuttingDown = true) {answer : Bool}
    (hmem : ⟨.isShuttingDown, answer⟩ ∈ events k labels) : answer = true := by
  obtain ⟨_, _, s₁, _, hbefore, hobserves, _⟩ := observed_of_mem hpath hmem
  have hset : s₁.shuttingDown = true := hbefore.invariant (P := fun s => s.shuttingDown = true) hs
    fun _ _ _ hset hstep => step_shuttingDown hstep hset
  exact hobserves.trans hset

/-! ## Calls of `admit` -/

/-- The operation read that shutdown has begun. -/
def ReadsShutdown : Event service → Prop
  | ⟨.isShuttingDown, answer⟩ => answer = true
  | _ => False

/-- No operation has read that shutdown has begun. -/
def Serving (t : Trace) : Prop := ∀ e ∈ t, ¬ ReadsShutdown e

theorem Serving.append (hh : Serving h) (ht : Serving t) : Serving (h ++ t) := List.forall_mem_append.mpr ⟨hh, ht⟩

theorem serving_singleton {e : Event service} (he : ¬ ReadsShutdown e) : Serving [e] := by simpa [Serving] using he

/-- The reads with which a check passes. -/
theorem serving_passed (n : Instant) : Serving [⟨.isShuttingDown, false⟩, ⟨.now, n⟩] := by
  refine List.forall_mem_cons.mpr ⟨nofun, ?_⟩
  exact serving_singleton id

/-- What the result of `admit` says about its reads of the flag. -/
structure Decided (a : Admission) (t : Trace) : Prop where
  serving : a ≠ .notAdmitted → Serving t
  finalized : a = .admitted → ∃ (t₁ : Trace) (n : Instant),
    t = t₁ ++ [⟨.isShuttingDown, false⟩, ⟨.now, n⟩, ⟨.enter .admittedRequest, ()⟩]

theorem decided_notAdmitted : Decided .notAdmitted t := ⟨fun hne => absurd rfl hne, nofun⟩

/-- Every returned value satisfies the postcondition, whatever the operations were. -/
abbrev Leads (h : Trace) (p : Io ε Admission) : Prop :=
  Holds (fun _ _ => True) h p fun r h' => ∃ a, r = .ok a ∧ Decided a h'

theorem closedFor_leads {R : Except ε Bool → Trace → Prop} (hh : Serving h) (hstop : ∀ t, R (.ok true) (h ++ t))
    (hgo : ∀ n : Instant, Serving (h ++ [⟨.isShuttingDown, false⟩, ⟨.now, n⟩]) →
      R (.ok false) (h ++ [⟨.isShuttingDown, false⟩, ⟨.now, n⟩])) :
    Holds (fun _ _ => True) h (closedFor deadline) R := by
  intro t r hr
  refine ⟨fun _ _ _ _ => trivial, ?_⟩
  rcases run_closedFor.mp hr with ⟨rfl, rfl⟩ | ⟨n, rfl, rfl⟩
  · exact hstop _
  · by_cases hn : deadline ≤ n
    · rw [decide_eq_true hn]
      exact hstop _
    · rw [decide_eq_false hn]
      exact hgo n (hh.append (serving_passed n))

theorem finalize_leads (hh : Serving h) : Leads h (finalize deadline : Io ε Admission) := by
  refine Holds.bind (closedFor_leads hh (fun t => ?_) fun n hserving => ?_)
  · exact Holds.ask_bind (fun _ => trivial) fun _ => .pure ⟨_, rfl, decided_notAdmitted⟩
  · refine Holds.ask_bind (fun _ => trivial) fun _ => .pure ⟨_, rfl, fun _ => ?_, fun _ => ⟨h, n, ?_⟩⟩
    · exact hserving.append (serving_singleton id)
    · exact List.append_assoc ..

theorem selectPermit_leads {R : Except ε Bool → Trace → Prop} (hh : Serving h) (hno : ∀ t, R (.ok false) (h ++ t))
    (hyes : ∀ t, Serving (h ++ t) → R (.ok true) (h ++ t)) :
    Holds (fun _ _ => True) h (selectPermit deadline) R := by
  refine Holds.ask_bind (fun _ => trivial) fun closed => ?_
  cases closed with
  | true => exact .pure (hno _)
  | false =>
      have hh₁ := hh.append (serving_singleton (e := ⟨.isShuttingDown, false⟩) nofun)
      refine Holds.ask_bind (fun _ => trivial) fun polled => ?_
      have hh₂ := hh₁.append (serving_singleton (e := ⟨.pollAcquire .permits, polled⟩) id)
      cases polled with
      | true =>
          rw [List.append_assoc] at hh₂ ⊢
          exact .pure (hyes _ hh₂)
      | false =>
          refine Holds.ask_bind (fun _ => trivial) fun woken => ?_
          have hh₃ := hh₂.append (serving_singleton (e := ⟨.selectWoken deadline, woken⟩) id)
          rw [List.append_assoc, List.append_assoc] at hh₃ ⊢
          cases woken with
          | granted => exact .pure (hyes _ hh₃)
          | shutdownStarted | expired =>
              refine Holds.ask_bind (fun _ => trivial) fun _ => ?_
              rw [List.append_assoc]
              exact .pure (hno _)

theorem admitRequest_leads (hh : Serving h) : Leads h (admitRequest deadline : Io ε Admission) := by
  refine Holds.bind (closedFor_leads hh (fun t => .pure ⟨_, rfl, decided_notAdmitted⟩) fun n hh₁ => ?_)
  refine Holds.ask_bind (fun _ => trivial) fun obtained => ?_
  have hh₂ := hh₁.append (serving_singleton (e := ⟨.tryAcquireOwned .permits, obtained⟩) id)
  cases obtained with
  | true => exact finalize_leads hh₂
  | false =>
      refine Holds.ask_bind (fun _ => trivial) fun slot => ?_
      have hh₃ := hh₂.append (serving_singleton (e := ⟨.tryAcquireOwned .waiters, slot⟩) id)
      cases slot with
      | false => exact .pure ⟨_, rfl, fun _ => hh₃, nofun⟩
      | true =>
          refine Holds.ask_bind (fun _ => trivial) fun _ => ?_
          have hh₄ := hh₃.append (serving_singleton (e := ⟨.enter .waitingGuard, ()⟩) id)
          refine Holds.bind (selectPermit_leads hh₄ (fun t => ?_) fun t hh₅ => ?_)
          · refine Holds.ask_bind (fun _ => trivial) fun _ => Holds.ask_bind (fun _ => trivial) fun _ => ?_
            exact .pure ⟨_, rfl, decided_notAdmitted⟩
          · refine Holds.ask_bind (fun _ => trivial) fun _ => Holds.ask_bind (fun _ => trivial) fun _ => ?_
            have hh₆ := hh₅.append (serving_singleton (e := ⟨.leave .waitingGuard, ()⟩) id)
            exact finalize_leads (hh₆.append (serving_singleton (e := ⟨.release .waiters, ()⟩) id))

/-- A call of `admit` that read that shutdown has begun does not admit, and one that admits ends with its read. -/
theorem decided_of_admitRequest {a : Admission} (hr : Run (admitRequest deadline : Io ε Admission) t (.ok a)) :
    Decided a t := by
  obtain ⟨_, hok, hdecided⟩ := (admitRequest_leads (h := []) nofun t _ hr).2
  cases hok
  exact hdecided

/-- A call of `admit` reads the flag first. -/
theorem admitRequest_reads_first {r : Except ε Admission} (hr : Run (admitRequest deadline) t r) :
    ∃ answer t', t = ⟨.isShuttingDown, answer⟩ :: t' := by
  obtain ⟨answer, t', ht, _⟩ := run_call.mp hr
  exact ⟨answer, t', ht⟩

/-- A call that does not admit holds nothing when it returns. -/
theorem hold_of_admitRequest {a : Admission} (hh : hold h = [])
    (hr : Run (admitRequest deadline : Io ε Admission) t (.ok a)) (ha : a ≠ .admitted) : hold (h ++ t) = [] := by
  have hholds : Holds Situated h (admitRequest deadline : Io ε Admission)
      fun r h' => ∀ a, r = .ok a → a ≠ .admitted → hold h' = [] :=
    admitRequest_holds hh (fun _ hheld => ⟨fun _ _ _ => hheld, fun _ _ _ => hheld⟩) fun _ _ a hok hne => by
      cases hok
      exact absurd rfl hne
  exact (hholds t _ hr).2 a rfl ha

/-! ## Before and after the store -/

/-- The request has read with its permit, in `finalize`, that the process is serving. -/
def PassedFinalize (t : Trace) : Prop :=
  ∃ t₁ t₂, t = t₁ ++ ⟨.isShuttingDown, false⟩ :: t₂ ∧ .own .permits ∈ hold t₁

/-- The operation belongs to the collection of the body or to the authentication. -/
def StartsWork : Op → Prop
  | .bodyFrame _ | .authenticate _ _ => True
  | _ => False

theorem events_store : events k (before ++ .storeShuttingDown :: after) = events k before ++ events k after := by
  rw [events_append]
  rfl

/-- A read that found the process serving precedes a state in which the flag is set. -/
theorem read_precedes_set (pre : Trace) {post earlier : Trace} (hset : s₁.shuttingDown = true)
    (hafter : Path step s₁ after s) (hsplit : earlier ++ events k after = pre ++ ⟨.isShuttingDown, false⟩ :: post) :
    ∃ post', earlier = pre ++ ⟨.isShuttingDown, false⟩ :: post' := by
  rcases append_cons_eq_append hsplit.symm with ⟨post', hpre, _⟩ | ⟨pre', _, hmem⟩
  · exact ⟨post', hpre⟩
  · have hread : false = true :=
      read_of_shuttingDown (k := k) hafter hset (hmem ▸ List.mem_append_right _ List.mem_cons_self)
    cases hread

/-- A read that found the process serving precedes the store. -/
theorem read_precedes_store (pre : Trace) {post : Trace} (hafter : Path step s₁ (.storeShuttingDown :: after) s)
    (hsplit : events k (before ++ .storeShuttingDown :: after) = pre ++ ⟨.isShuttingDown, false⟩ :: post) :
    ∃ post', events k before = pre ++ ⟨.isShuttingDown, false⟩ :: post' := by
  rw [events_store] at hsplit
  obtain ⟨s₂, hstore, hpath⟩ := path_cons.mp hafter
  cases hstore
  exact read_precedes_set pre rfl hpath hsplit

section

variable {state : RuntimeState} {request : ι → Request} {clock : Instant} {limit capacity : Nat}

/-- A request that holds an `AdmittedRequest` passed `finalize` before the store. -/
theorem passedFinalize_of_live (hafter : Path step s₁ (.storeShuttingDown :: after) s)
    (hfollows : Follows (synchronizeRoute state (request k)) (events k (before ++ .storeShuttingDown :: after)))
    {pre post : Trace} (hsplit : events k (before ++ .storeShuttingDown :: after) = pre ++ post)
    (hlive : .live .admittedRequest ∈ hold pre) : PassedFinalize (events k before) := by
  obtain ⟨pre', mid, rfl⟩ := exists_enter_of_live (h := []) hlive List.not_mem_nil
  have henter : events k (before ++ .storeShuttingDown :: after) =
      pre' ++ ⟨.enter .admittedRequest, ()⟩ :: (mid ++ post) := by
    rw [hsplit, List.append_assoc, List.cons_append]
  have hsituated := (tidy_synchronizeRoute state (request k)).situated_of_follows hfollows henter
    fun item => by cases item <;> nofun
  obtain ⟨t₁, n, rfl, hown⟩ := hsituated.placed
  obtain ⟨t₂, hbefore⟩ := read_precedes_store t₁ hafter (henter.trans (List.append_assoc ..))
  exact ⟨t₁, t₂, hbefore, hown⟩

/-- After the store of the shutdown flag no request is admitted and no work starts, except for requests that had read
the flag before. A request that is not admitted leaves nothing behind. -/
theorem admission_ends_at_shutdown
    (hbefore : Path step (.start clock limit capacity) before s₁)
    (hafter : Path step s₁ (.storeShuttingDown :: after) s)
    (hfollows : ∀ k, Follows (synchronizeRoute state (request k)) (events k (before ++ .storeShuttingDown :: after))) :
    (∀ k acceptedAt deadline t rest a,
        events k (before ++ .storeShuttingDown :: after) = ⟨.now, acceptedAt⟩ :: (t ++ rest) →
        Run (admitRequest deadline : Io Panic Admission) t (.ok a) →
        (a = .admitted → ∃ (t₁ : Trace) (n : Instant),
          t = t₁ ++ [⟨.isShuttingDown, false⟩, ⟨.now, n⟩, ⟨.enter .admittedRequest, ()⟩] ∧
            ⟨.now, acceptedAt⟩ :: (t₁ ++ [⟨.isShuttingDown, false⟩]) <+: events k before) ∧
        (∀ t₁ answer t₂, t = t₁ ++ ⟨.isShuttingDown, answer⟩ :: t₂ →
          events k before <+: ⟨.now, acceptedAt⟩ :: t₁ → a = .notAdmitted) ∧
        (a = .refusedWithoutWaiting → [⟨.now, acceptedAt⟩, ⟨.isShuttingDown, false⟩] <+: events k before) ∧
        (a ≠ .admitted → hold (⟨.now, acceptedAt⟩ :: t) = [] ∧
          (rest = [] → ∀ x, k ∉ (s.sem x).owned ∧ k ∉ (s.sem x).assigned ∧ k ∉ (s.sem x).queue))) ∧
      (∀ k, k ∈ s.live .admittedRequest → k ∉ s₁.live .admittedRequest → PassedFinalize (events k before)) ∧
      (∀ k e, e ∈ events k after → StartsWork e.op → PassedFinalize (events k before)) ∧
      ∀ k o, StartsWork o →
        Asks (synchronizeRoute state (request k)) (events k (before ++ .storeShuttingDown :: after)) o →
        PassedFinalize (events k before) := by
  have htidy (k) := tidy_synchronizeRoute state (request k)
  have hi := Execution.invariant htidy ⟨path_append.mpr ⟨s₁, hbefore, hafter⟩, hfollows⟩
  have hplaced {h : Trace} {o : Op} (ho : StartsWork o) (hp : Placed h o) : .live .admittedRequest ∈ hold h := by
    cases o <;> first | exact hp | exact ho.elim
  refine ⟨fun k acceptedAt deadline t rest a hevents hrun =>
    ⟨fun ha => ?_, fun t₁ answer t₂ ht hread => ?_, fun ha => ?_, fun ha => ?_⟩, fun k hlive _ => ?_,
    fun k e he hwork => ?_, fun k o hwork hasks => ?_⟩
  · obtain ⟨t₁, n, rfl⟩ := (decided_of_admitRequest hrun).finalized ha
    obtain ⟨post, hpost⟩ := read_precedes_store (⟨.now, acceptedAt⟩ :: t₁) hafter
      (hevents.trans (congrArg _ (List.append_assoc ..)))
    exact ⟨t₁, n, rfl, post, by rw [hpost, List.cons_append, List.cons_append, List.append_assoc]; rfl⟩
  · obtain ⟨m, hm⟩ := hread
    obtain ⟨s₂, hstore, hpath⟩ := path_cons.mp hafter
    cases hstore
    have hmem : ⟨.isShuttingDown, answer⟩ ∈ events k after := by
      rw [events_store, ht, List.append_assoc, ← List.cons_append, ← hm, List.append_assoc] at hevents
      exact List.append_cancel_left hevents ▸ List.mem_append_right _ List.mem_cons_self
    have htrue : answer = true := read_of_shuttingDown hpath rfl hmem
    have hmem' : ⟨.isShuttingDown, answer⟩ ∈ t := ht ▸ List.mem_append_right _ List.mem_cons_self
    by_contra hne
    exact (decided_of_admitRequest hrun).serving hne _ hmem' htrue
  · obtain ⟨answer, t', rfl⟩ := admitRequest_reads_first hrun
    have hserving := (decided_of_admitRequest hrun).serving (ha ▸ nofun) _ List.mem_cons_self
    cases answer with
    | true => exact absurd rfl hserving
    | false =>
        obtain ⟨post, hpost⟩ := read_precedes_store [⟨.now, acceptedAt⟩] hafter hevents
        exact ⟨post, hpost.symm⟩
  · have hnone : hold (⟨.now, acceptedAt⟩ :: t) = [] := hold_of_admitRequest (h := [⟨.now, acceptedAt⟩]) rfl hrun ha
    refine ⟨hnone, fun hrest x => ?_⟩
    rw [hrest, List.append_nil] at hevents
    obtain ⟨howned, hwaits, _⟩ := hi.not_mem_of_hold_nil (k := k) (hevents ▸ hnone) x .admittedRequest
    rw [List.mem_append, not_or] at hwaits
    exact ⟨howned, hwaits.2, hwaits.1⟩
  · exact passedFinalize_of_live hafter (hfollows k) (List.append_nil _).symm (hi.mem_live.mp hlive)
  · obtain ⟨pre, post, hsplit⟩ := List.append_of_mem he
    have htotal : events k (before ++ .storeShuttingDown :: after) = events k before ++ pre ++ e :: post := by
      rw [events_store, hsplit, List.append_assoc]
    have hsituated := (htidy k).situated_of_follows (hfollows k) htotal fun item hitem => by
      rw [hitem] at hwork
      cases item <;> exact hwork
    exact passedFinalize_of_live hafter (hfollows k) htotal (hplaced hwork hsituated.placed)
  · obtain ⟨x, hx⟩ := (htidy k).situated_of_asks hasks
    exact passedFinalize_of_live hafter (hfollows k) (List.append_nil _).symm (hplaced hwork hx.placed)

end

/-! One request is admitted, shutdown begins, and another request arrives. -/

def servingState : RuntimeState := ⟨fun _ => none, true, 10⟩

def admittedLabels : List (Label Bool) :=
  [⟨.now, (0 : Nat)⟩, ⟨.isShuttingDown, false⟩, ⟨.now, (0 : Nat)⟩, ⟨.tryAcquireOwned .permits, true⟩,
    ⟨.isShuttingDown, false⟩, ⟨.now, (0 : Nat)⟩, ⟨.enter .admittedRequest, ()⟩].map (.own true)

def lateLabels : List (Label Bool) :=
  .notifyWaiters :: [⟨.now, (0 : Nat)⟩, ⟨.isShuttingDown, true⟩].map (.own false)

theorem late_follows (k : Bool) : Follows (synchronizeRoute servingState ⟨[], []⟩)
    (events k (admittedLabels ++ .storeShuttingDown :: lateLabels)) := by
  cases k with
  | true => exact ⟨_, [], Or.inr ⟨.isCancelled 0, asks_of_pending rfl⟩, List.nil_prefix, (List.append_nil _).symm⟩
  | false => exact ⟨_, [], Or.inl ⟨.ok (.status 500), run_of_follow rfl⟩, List.nil_prefix, (List.append_nil _).symm⟩

theorem late_reached : ∃ s₁ s, admittedLabels.foldlM Process.next (.start 0 1 1 : Process Bool) = some s₁ ∧
    (Label.storeShuttingDown :: lateLabels).foldlM Process.next s₁ = some s ∧ s₁.live .admittedRequest = [true] :=
  ⟨_, _, rfl, rfl, rfl⟩

theorem late_request_holds_nothing : ∃ s₁ s,
    admittedLabels.foldlM Process.next (.start 0 1 1 : Process Bool) = some s₁ ∧
      (Label.storeShuttingDown :: lateLabels).foldlM Process.next s₁ = some s ∧ s₁.live .admittedRequest = [true] ∧
      false ∉ (s.sem .permits).owned ∧ false ∉ (s.sem .waiters).owned := by
  obtain ⟨s₁, s, hs₁, hs, hadmitted⟩ := late_reached
  have hcall := (admission_ends_at_shutdown (path_of_next hs₁) (path_of_next hs) late_follows).1 false (0 : Nat) 10
    [⟨.isShuttingDown, true⟩] [] .notAdmitted rfl (run_of_follow rfl)
  obtain ⟨_, hnone⟩ := hcall.2.2.2 nofun
  exact ⟨s₁, s, hs₁, hs, hadmitted, (hnone rfl .permits).1, (hnone rfl .waiters).1⟩

end PermissionSync.Runtime
