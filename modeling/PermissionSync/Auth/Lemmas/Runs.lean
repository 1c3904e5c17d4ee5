import PermissionSync.Auth.Lemmas.Private

/-!
# Runs of the guarded reads and of a refresh

Each read of the cache is one operation between polls and the drop of its guard. What a refresh does is decided by what
it reads with the mutex.
-/

namespace PermissionSync.Authenticator

open PermissionSync.Auth PermissionSync.Base PermissionSync.Core
open PermissionSync.Runtime (Duration JwtAlgorithm)

variable {K V α : Type} {lib : Libraries K V} {config : Config} {token : String} {algorithm : JwtAlgorithm}
  {context : SynchronizationContext} {t : Trace V} {g : UInt64}

/-! ## Constructs -/

/-- The operations of the trace are polls. -/
def PollsOnly (t : Trace V) : Prop := ∀ e ∈ t, Polls e.op

theorem run_guarded {o : Op V} {p : Io V α} {r : Except AuthenticationError α} :
    Run (guarded o p) t r ↔ ∃ t' x, t = t' ++ [⟨o, x⟩] ∧ Run p t' r := by
  refine run_attempt_bind.trans ?_
  constructor
  · rintro ⟨r', t₁, t₂, rfl, hp, hdrop⟩
    obtain ⟨x, t₃, rfl, hlift⟩ := run_ask_bind.mp hdrop
    obtain ⟨rfl, rfl⟩ := run_lift.mp hlift
    exact ⟨t₁, x, rfl, hp⟩
  · rintro ⟨t', x, rfl, hp⟩
    exact ⟨r, t', [⟨o, x⟩], rfl, hp, run_ask_bind.mpr ⟨x, [], rfl, run_lift.mpr ⟨rfl, rfl⟩⟩⟩

theorem run_unavailable {r : Except AuthenticationError Bool} (h : Run (unavailable context) t r) :
    PollsOnly t ∧ ∃ stopped, r = .ok stopped := by
  refine ⟨unavailable_polls.of_run h, ?_⟩
  obtain ⟨cancelled, t₁, rfl, hrest⟩ := run_ask_bind.mp h
  cases cancelled with
  | true => exact ⟨true, (run_pure.mp hrest).2⟩
  | false =>
      obtain ⟨n, t₂, rfl, hend⟩ := run_ask_bind.mp hrest
      exact ⟨_, (run_pure.mp hend).2⟩

/-- A program that goes on only if the context is available. -/
theorem run_unavailable_bind {p : Io V α} {q : Io V α} {r : Except AuthenticationError α}
    (h : Run (unavailable context >>= fun stopped => if stopped then p else q) t r) :
    ∃ t₁ t₂, t = t₁ ++ t₂ ∧ PollsOnly t₁ ∧ (Run p t₂ r ∨ Run q t₂ r) := by
  rcases run_bind.mp h with ⟨e, hstop, _⟩ | ⟨stopped, t₁, t₂, rfl, hstop, hrest⟩
  · obtain ⟨_, _, hr⟩ := run_unavailable hstop
    cases hr
  · refine ⟨t₁, t₂, rfl, (run_unavailable hstop).1, ?_⟩
    cases stopped with
    | true => exact Or.inl hrest
    | false => exact Or.inr hrest

theorem run_checkContext {r : Except AuthenticationError Unit} (h : Run (checkContext context) t r) :
    PollsOnly t ∧ (r = .ok () ∨ r = .error .cancelled) := by
  obtain ⟨t₁, t₂, rfl, hpolls, hend | hend⟩ := run_unavailable_bind h
  · obtain ⟨rfl, rfl⟩ := run_fail.mp hend
    simpa using hpolls
  · obtain ⟨rfl, rfl⟩ := run_pure.mp hend
    simpa using hpolls

theorem run_checkContext_bind {f : Unit → Io V α} {r : Except AuthenticationError α}
    (h : Run (checkContext context >>= f) t r) :
    (PollsOnly t ∧ r = .error .cancelled) ∨ ∃ t₁ t₂, t = t₁ ++ t₂ ∧ PollsOnly t₁ ∧ Run (f ()) t₂ r := by
  rcases run_bind.mp h with ⟨e, hcheck, rfl⟩ | ⟨_, t₁, t₂, rfl, hcheck, hrest⟩
  · obtain ⟨hpolls, hr | hr⟩ := run_checkContext hcheck
    · cases hr
    · cases hr
      exact Or.inl ⟨hpolls, rfl⟩
  · exact Or.inr ⟨t₁, t₂, rfl, (run_checkContext hcheck).1, hrest⟩

/-! ## Guarded reads -/

/-- The trace reads the cache once, and the part under the guard is the given one. -/
def ReadsOnce (context : SynchronizationContext) (t : Trace V) (cache : Option (Snapshot V)) (body : Trace V) : Prop :=
  ∃ pre, PollsOnly pre ∧ t = pre ++ ⟨.readCache context.deadline, some cache⟩ :: (body ++ [⟨.dropRead, ()⟩])

/-- A read that fails when it is cancelled. -/
theorem run_read {p : Option (Snapshot V) → Io V α} {r : Except AuthenticationError α}
    (h : Run (do
      checkContext context
      match ← readCache context.deadline with
      | none => .fail .cancelled
      | some cache => guarded .dropRead (p cache)) t r) :
    (r = .error .cancelled ∧ ∀ e ∈ t, Polls e.op ∨ e = ⟨.readCache context.deadline, none⟩) ∨
      ∃ cache body, ReadsOnce context t cache body ∧ Run (p cache) body r := by
  rcases run_checkContext_bind h with ⟨hpolls, rfl⟩ | ⟨t₁, t₂, rfl, hpolls, hrest⟩
  · exact Or.inl ⟨rfl, fun e he => Or.inl (hpolls e he)⟩
  · obtain ⟨answer, t₃, rfl, hanswer⟩ := run_ask_bind.mp hrest
    cases answer with
    | none =>
        obtain ⟨rfl, rfl⟩ := run_fail.mp hanswer
        refine Or.inl ⟨rfl, fun e he => ?_⟩
        rcases List.mem_append.mp he with he | he
        · exact Or.inl (hpolls e he)
        · exact Or.inr (List.mem_singleton.mp he)
    | some cache =>
        obtain ⟨body, x, rfl, hbody⟩ := run_guarded.mp hanswer
        exact Or.inr ⟨cache, body, ⟨t₁, hpolls, rfl⟩, hbody⟩

theorem run_classifyCache {x : UInt64 × CacheClassification} (h : Run (classifyCache config context) t (.ok x)) :
    ∃ cache body, ReadsOnce context t cache body ∧ Run (classifyGuarded config context cache) body (.ok x) :=
  (run_read h).resolve_left fun hne => nomatch hne.1

/-- The classification of what was read. -/
theorem run_classifyGuarded {cache : Option (Snapshot V)} {x : UInt64 × CacheClassification}
    (h : Run (classifyGuarded config context cache) t (.ok x)) : x.1 = generationOf cache ∧
      ((cache = none ∧ x.2 = .coldOrExpired) ∨ ∃ snapshot n, cache = some snapshot ∧ ⟨.tick, n⟩ ∈ t ∧
        x.2 = classifyAge config.cachePolicy (snapshot.age n)) := by
  rcases run_checkContext_bind h with ⟨_, hr⟩ | ⟨t₁, t₂, rfl, _, hrest⟩
  · cases hr
  · cases cache with
    | none =>
        obtain ⟨rfl, hx⟩ := run_pure.mp hrest
        cases hx
        exact ⟨rfl, Or.inl ⟨rfl, rfl⟩⟩
    | some snapshot =>
        obtain ⟨n, t₃, rfl, hend⟩ := run_ask_bind.mp hrest
        obtain ⟨rfl, hx⟩ := run_pure.mp hend
        cases hx
        exact ⟨rfl, Or.inr ⟨snapshot, n, rfl, by simp, rfl⟩⟩

theorem classifyCache_error {e : AuthenticationError} (h : Run (classifyCache config context : Io V _) t (.error e)) :
    e = .cancelled := by
  rcases run_read h with ⟨he, _⟩ | ⟨cache, body, _, hbody⟩
  · exact Except.error.inj he
  · rcases run_checkContext_bind hbody with ⟨_, he⟩ | ⟨t₁, t₂, rfl, _, hrest⟩
    · exact Except.error.inj he
    · cases cache with
      | none => cases (run_pure.mp hrest).2
      | some snapshot =>
          obtain ⟨n, t₃, rfl, hend⟩ := run_ask_bind.mp hrest
          cases (run_pure.mp hend).2

/-- A newer generation that is fresh, as `newer_generation_is_currently_fresh` finds it. -/
def newerFresh (config : Config) (g : UInt64) (cache : Option (Snapshot V)) (n : Instant) : Bool :=
  cache.any fun snapshot =>
    snapshot.generation ≠ g && (snapshot.age n).any fun age => age ≤ config.cachePolicy.freshness

theorem run_newerGuarded {cache : Option (Snapshot V)} {r : Except AuthenticationError Bool}
    (h : Run (newerGuarded config context g cache) t r) :
    r = .error .cancelled ∨ ∃ pre n, PollsOnly pre ∧ t = pre ++ [⟨.tick, n⟩] ∧
      r = .ok (newerFresh config g cache n) := by
  rcases run_checkContext_bind h with ⟨_, rfl⟩ | ⟨t₁, t₂, rfl, hpolls, hrest⟩
  · exact Or.inl rfl
  · obtain ⟨n, t₃, rfl, hend⟩ := run_ask_bind.mp hrest
    obtain ⟨rfl, rfl⟩ := run_pure.mp hend
    exact Or.inr ⟨t₁, n, hpolls, rfl, rfl⟩

theorem run_verifyCurrent {r : Except AuthenticationError CacheVerification}
    (h : Run (verifyCurrent lib config token algorithm context) t r) :
    r = .ok .cancelled ∨ ∃ cache body, ReadsOnce context t cache body ∧
      Run (verifyGuarded lib config token algorithm context cache) body r := by
  obtain ⟨t₁, t₂, rfl, hpolls, hend | hrest⟩ := run_unavailable_bind h
  · exact Or.inl (run_pure.mp hend).2
  · obtain ⟨answer, t₃, rfl, hanswer⟩ := run_ask_bind.mp hrest
    cases answer with
    | none => exact Or.inl (run_pure.mp hanswer).2
    | some cache =>
        obtain ⟨body, x, rfl, hbody⟩ := run_guarded.mp hanswer
        exact Or.inr ⟨cache, body, ⟨t₁, hpolls, rfl⟩, hbody⟩

/-! ## Refreshes -/

/-- The trace installs nothing. -/
def Unstored (t : Trace V) : Prop := ∀ snapshot, ⟨.store snapshot, ()⟩ ∉ t

theorem unstored_of_forall {E : Op V → Prop} (h : ∀ e ∈ t, E e.op) (hstore : ∀ snapshot, ¬ E (.store snapshot)) :
    Unstored t := fun snapshot hmem => hstore snapshot (h _ hmem)

theorem unstored_append {t₁ t₂ : Trace V} : Unstored (t₁ ++ t₂) ↔ Unstored t₁ ∧ Unstored t₂ := by
  simp only [Unstored, List.mem_append, not_or, forall_and]

theorem PollsOnly.unstored (h : PollsOnly t) : Unstored t := unstored_of_forall h fun _ => id

/-- The trace is the check of the installed generation: what it read, and when. -/
def Consults (context : SynchronizationContext) (t : Trace V) (cache : Option (Snapshot V)) (n : Instant) : Prop :=
  ∃ pre front polls, PollsOnly pre ∧ PollsOnly polls ∧ t = pre ++ front ∧
    ReadsOnce context front cache (polls ++ [⟨.tick, n⟩])

theorem Consults.unstored {cache : Option (Snapshot V)} {n : Instant} (h : Consults context t cache n) :
    Unstored t := by
  obtain ⟨pre, front, polls, hpre, hpolls, rfl, before, hbefore, rfl⟩ := h
  intro snapshot
  have h₁ := hpre.unstored snapshot
  have h₂ := hpolls.unstored snapshot
  have h₃ := hbefore.unstored snapshot
  simp [h₁, h₂, h₃]

theorem run_fetchSnapshot {r : Except AuthenticationError (Snapshot V)}
    (h : Run (fetchSnapshot lib config context) t r) :
    ∃ inner, t = ⟨.fetchStarted, ()⟩ :: (inner ++ [⟨.fetchEnded, ()⟩]) ∧ (∀ e ∈ inner, Private e.op) ∧
      ∀ snapshot, r = .ok snapshot → ∃ inner', inner = inner' ++ [⟨.tick, snapshot.acquired⟩] := by
  obtain ⟨_, t₁, rfl, hscope⟩ := run_ask_bind.mp h
  obtain ⟨inner, x, rfl, hbody⟩ := run_guarded.mp hscope
  refine ⟨inner, rfl, ?_, ?_⟩
  · refine Only.of_run ?_ hbody
    refine .bind getJwks_private fun _ => .bind checkContext_private fun _ => .bind parseJwks_private fun _ => ?_
    exact .bind checkContext_private fun _ => .bind (.ask trivial) fun _ => .pure
  · rintro snapshot rfl
    obtain ⟨_, u₁, u₂, rfl, _, hrest⟩ := run_bind_ok.mp hbody
    obtain ⟨_, u₃, u₄, rfl, _, hrest⟩ := run_bind_ok.mp hrest
    obtain ⟨_, u₅, u₆, rfl, _, hrest⟩ := run_bind_ok.mp hrest
    obtain ⟨_, u₇, u₈, rfl, _, hrest⟩ := run_bind_ok.mp hrest
    obtain ⟨n, u₉, rfl, hend⟩ := run_ask_bind.mp hrest
    obtain ⟨rfl, hsnapshot⟩ := run_pure.mp hend
    cases hsnapshot
    exact ⟨u₁ ++ (u₃ ++ (u₅ ++ u₇)), by simp⟩

/-- An installation is cancelled before it stores, or stores the snapshot with the next generation. -/
theorem run_installSnapshot {snapshot : Snapshot V} {r : Except AuthenticationError Unit}
    (h : Run (installSnapshot context snapshot) t r) :
    (r = .error .cancelled ∧ Unstored t) ∨
      ∃ pre cache post, PollsOnly pre ∧ PollsOnly post ∧ r = .ok () ∧
        t = pre ++ ⟨.writeCache context.deadline, some cache⟩ :: (post ++
          [⟨.store { snapshot with generation := nextGeneration (generationOf cache) }, ()⟩, ⟨.dropWrite, ()⟩]) := by
  rcases run_checkContext_bind h with ⟨hpolls, rfl⟩ | ⟨t₁, t₂, rfl, hpolls, hrest⟩
  · exact Or.inl ⟨rfl, hpolls.unstored⟩
  · obtain ⟨answer, t₃, rfl, hanswer⟩ := run_ask_bind.mp hrest
    cases answer with
    | none =>
        obtain ⟨rfl, rfl⟩ := run_fail.mp hanswer
        exact Or.inl ⟨rfl, unstored_append.mpr ⟨hpolls.unstored, fun snapshot hmem => by simp at hmem⟩⟩
    | some cache =>
        obtain ⟨body, x, rfl, hbody⟩ := run_guarded.mp hanswer
        rcases run_checkContext_bind hbody with ⟨hchecks, rfl⟩ | ⟨t₄, t₅, rfl, hchecks, hstore⟩
        · refine Or.inl ⟨rfl, unstored_append.mpr ⟨hpolls.unstored, fun snapshot hmem => ?_⟩⟩
          have := hchecks.unstored snapshot
          simp_all
        · obtain ⟨_, rfl, rfl⟩ := run_ask.mp hstore
          exact Or.inr ⟨t₁, cache, t₄, hpolls, hchecks, rfl, by simp⟩

/-- What a refresh does with the mutex, and its result. -/
inductive RefreshRun (config : Config) (context : SynchronizationContext) (g : UInt64) :
    Trace V → Except AuthenticationError Unit → Prop where
  | cancelled {t : Trace V} : Unstored t → RefreshRun config context g t (.error .cancelled)
  | reused {front : Trace V} {cache : Option (Snapshot V)} {n : Instant} : Consults context front cache n →
      newerFresh config g cache n = true → RefreshRun config context g front (.ok ())
  | failed {front inner : Trace V} {cache : Option (Snapshot V)} {n : Instant} : Consults context front cache n →
      newerFresh config g cache n = false → (∀ e ∈ inner, Private e.op) →
      RefreshRun config context g (front ++ ⟨.fetchStarted, ()⟩ :: (inner ++ [⟨.fetchEnded, ()⟩]))
        (.error .verifierUnavailable)
  | installed {front inner pre post : Trace V} {cache view : Option (Snapshot V)} {n : Instant}
      {snapshot : Snapshot V} : Consults context front cache n → newerFresh config g cache n = false →
      (∀ e ∈ inner, Private e.op) → PollsOnly pre → PollsOnly post →
      RefreshRun config context g (front ++ ⟨.fetchStarted, ()⟩ :: (inner ++ ⟨.fetchEnded, ()⟩ ::
        (pre ++ ⟨.writeCache context.deadline, some view⟩ ::
          (post ++ [⟨.store snapshot, ()⟩, ⟨.dropWrite, ()⟩])))) (.ok ())

theorem run_refreshLocked {r : Except AuthenticationError Unit} (h : Run (refreshLocked lib config context g) t r) :
    RefreshRun config context g t r := by
  rcases run_checkContext_bind h with ⟨hpolls, rfl⟩ | ⟨t₁, t₂, rfl, hpolls, hrest⟩
  · exact .cancelled hpolls.unstored
  · rcases run_bind.mp hrest with ⟨e, hcheck, rfl⟩ | ⟨newer, t₃, t₄, rfl, hcheck, hfetch⟩
    · have hunstored : Unstored (t₁ ++ t₂) := unstored_append.mpr
        ⟨hpolls.unstored, unstored_of_forall (newerGeneration_reads.of_run hcheck) fun _ => id⟩
      rcases run_read hcheck with ⟨he, _⟩ | ⟨cache, body, _, hbody⟩
      · cases he
        exact .cancelled hunstored
      · rcases run_newerGuarded hbody with he | ⟨_, _, _, _, he⟩
        · cases he
          exact .cancelled hunstored
        · cases he
    · obtain ⟨cache, body, hreads, hbody⟩ := (run_read hcheck).resolve_left fun hne => nomatch hne.1
      obtain ⟨polls, n, hbodyPolls, rfl, hnewer⟩ := (run_newerGuarded hbody).resolve_left fun hne => nomatch hne
      have hconsults : Consults context (t₁ ++ t₃) cache n := ⟨t₁, t₃, polls, hpolls, hbodyPolls, rfl, hreads⟩
      cases newer with
      | true =>
          obtain ⟨rfl, rfl⟩ := run_pure.mp hfetch
          rw [List.append_nil]
          exact .reused hconsults (Except.ok.inj hnewer).symm
      | false =>
          have hnewer := (Except.ok.inj hnewer).symm
          obtain ⟨x, t₅, t₆, rfl, hfetch, hinstall⟩ := run_attempt_bind.mp hfetch
          obtain ⟨inner, rfl, hinner, _⟩ := run_fetchSnapshot hfetch
          have hunstored : Unstored (t₁ ++ t₃ ++ ⟨.fetchStarted, ()⟩ :: (inner ++ [⟨.fetchEnded, ()⟩])) := by
            refine unstored_append.mpr ⟨hconsults.unstored, fun snapshot hmem => ?_⟩
            have := unstored_of_forall hinner (fun _ => id) snapshot
            simp_all
          rw [← List.append_assoc]
          cases x with
          | error e =>
              cases e with
              | cancelled =>
                  obtain ⟨rfl, rfl⟩ := run_fail.mp hinstall
                  exact .cancelled (by simpa using hunstored)
              | rejected | forbidden | verifierUnavailable =>
                  obtain ⟨rfl, rfl⟩ := run_fail.mp hinstall
                  rw [List.append_nil]
                  exact .failed hconsults hnewer hinner
          | ok snapshot =>
              rcases run_installSnapshot hinstall with ⟨rfl, hno⟩ | ⟨pre, view, post, hpre, hpost, rfl, rfl⟩
              · refine .cancelled ?_
                rw [← List.append_assoc]
                exact unstored_append.mpr ⟨hunstored, hno⟩
              · rw [List.cons_append, List.append_assoc inner]
                exact .installed hconsults hnewer hinner hpre hpost

theorem run_refresh {r : Except AuthenticationError Unit} (h : Run (refresh lib config context g) t r) :
    (r = .error .cancelled ∧ ∀ e ∈ t, Polls e.op ∨ e = ⟨.lockRefresh context.deadline, false⟩) ∨
      ∃ pre body, PollsOnly pre ∧ t = pre ++ ⟨.lockRefresh context.deadline, true⟩ :: (body ++ [⟨.dropRefresh, ()⟩]) ∧
        RefreshRun config context g body r := by
  rcases run_checkContext_bind h with ⟨hpolls, rfl⟩ | ⟨t₁, t₂, rfl, hpolls, hrest⟩
  · exact Or.inl ⟨rfl, fun e he => Or.inl (hpolls e he)⟩
  · obtain ⟨locked, t₃, rfl, hanswer⟩ := run_ask_bind.mp hrest
    cases locked with
    | true =>
        obtain ⟨body, x, rfl, hbody⟩ := run_guarded.mp hanswer
        exact Or.inr ⟨t₁, body, hpolls, rfl, run_refreshLocked hbody⟩
    | false =>
        obtain ⟨rfl, rfl⟩ := run_fail.mp hanswer
        refine Or.inl ⟨rfl, fun e he => ?_⟩
        rcases List.mem_append.mp he with he | he
        · exact Or.inl (hpolls e he)
        · exact Or.inr (List.mem_singleton.mp he)

end PermissionSync.Authenticator
