import PermissionSync.Auth.Theorems.Installs

/-!
# Calls that refresh at once

Calls that have observed one generation queue for the refresh mutex. They fetch one after another until one of them
installs a snapshot, and those behind it use that snapshot while it is fresh.
-/

namespace PermissionSync.Authenticator

open PermissionSync.Auth PermissionSync.Base PermissionSync.Core

variable {ι K V : Type} {lib : Libraries K V} {config : Config} {calls : ι → Call} {j k : ι}
  {context : SynchronizationContext} {g : UInt64} {t u v body post : Trace V} {e : Event (auth V)} {loc : Local V}
  {r : Except AuthenticationError Unit} {deadline : Instant} {snapshot : Snapshot V}

def isLock : Event (auth V) → Bool
  | ⟨.lockRefresh _, true⟩ => true
  | _ => false

/-! ## The part of a call with the mutex -/

/-- The operation starts no fetch and stores nothing. -/
def Idle (e : Event (auth V)) : Prop := isFetchStart e = false ∧ isStore e = false

theorem idle_of_permitted (h : Permitted loc e) (hstage : loc.stage.holdsRefresh = false) : Idle e := by
  obtain ⟨o, x⟩ := e
  cases o with
  | fetchStarted =>
      rw [show loc.stage = .locked from h] at hstage
      cases hstage
  | store =>
      obtain ⟨cache, hwriting, _⟩ := h
      rw [hwriting] at hstage
      cases hstage
  | _ => exact ⟨rfl, rfl⟩

/-- A call takes the mutex only once. -/
theorem left_before (h : loc.stage ≠ .before) (hpermitted : Permitted loc e) : (loc.after e).stage ≠ .before := by
  obtain ⟨o, x⟩ := e
  cases o with
  | lockRefresh => exact absurd hpermitted h
  | readCache deadline => cases x <;> exact h
  | writeCache deadline =>
      cases x with
      | none => exact h
      | some cache => nofun
  | isCancelled | now | tick | unixSeconds | dropRead | request | frame => exact h
  | fetchStarted | fetchEnded | store | dropWrite | dropRefresh => nofun

theorem stays_after (h : loc.stage = .after) (hpermitted : Permitted loc e) : (loc.after e).stage = .after := by
  obtain ⟨o, x⟩ := e
  cases o with
  | readCache deadline => cases x <;> exact h
  | isCancelled | now | tick | unixSeconds | dropRead | request | frame => exact h
  | lockRefresh | fetchStarted | fetchEnded | writeCache => exact absurd (h.symm.trans hpermitted) nofun
  | store =>
      obtain ⟨cache, hwriting, _⟩ := hpermitted
      exact absurd (h.symm.trans hwriting) nofun
  | dropWrite =>
      rcases hpermitted with ⟨cache, hwriting⟩ | hstored
      · exact absurd (h.symm.trans hwriting) nofun
      · exact absurd (h.symm.trans hstored) nofun
  | dropRefresh => rcases hpermitted with hother | hother | hother <;> exact absurd (h.symm.trans hother) nofun

theorem locks_le_one (h : Along Local.after Permitted .start t) : t.countP isLock ≤ 1 := by
  refine (h.count_le_one (P := fun loc : Local V => loc.stage ≠ .before) (fun _ _ => left_before)
    fun loc e he hp => ?_).1
  obtain ⟨o, x⟩ := e
  cases o with
  | lockRefresh deadline =>
      cases x with
      | false => cases he
      | true => exact ⟨not_not.mpr hp, nofun⟩
  | _ => cases he

theorem idle_before (h : Along Local.after Permitted loc (u ++ ⟨.lockRefresh deadline, true⟩ :: v)) :
    ∀ e ∈ u, Idle e := by
  intro e he
  obtain ⟨u₁, u₂, rfl⟩ := List.append_of_mem he
  rw [List.append_assoc, List.cons_append] at h
  obtain ⟨_, hpermitted, hrest⟩ := along_append.mp h
  refine idle_of_permitted hpermitted ?_
  -- had the call left the first stage by then, it could not take the mutex
  have hstage : (u₁.foldl Local.after loc).stage = .before := by
    by_contra hleft
    have hbefore : Permitted (u₂.foldl Local.after _) _ := hrest.allowed
    exact (along_append.mp hrest).1.invariant (P := fun loc : Local V => loc.stage ≠ .before)
      (left_before hleft hpermitted) (fun _ _ _ => left_before) hbefore
  rw [hstage]
  rfl

theorem idle_after (h : Along Local.after Permitted loc t) (hstage : loc.stage = .after) : ∀ e ∈ t, Idle e := by
  induction t generalizing loc with
  | nil => nofun
  | cons e t ih =>
      have hidle : Idle e := idle_of_permitted h.1 (by rw [hstage]; rfl)
      exact List.forall_mem_cons.mpr ⟨hidle, ih h.2 (stays_after hstage h.1)⟩

/-- Between taking the mutex and dropping it the call holds it. -/
theorem holds_between (h : Along Local.after Permitted .start
      (u ++ ⟨.lockRefresh deadline, true⟩ :: (body ++ (v ++ ⟨.dropRefresh, ()⟩ :: post)))) :
    (localOf (u ++ ⟨.lockRefresh deadline, true⟩ :: body)).stage.holdsRefresh = true := by
  obtain ⟨_, _, hinside⟩ := along_append.mp h
  obtain ⟨hbody, hrest⟩ := along_append.mp hinside
  rw [localOf, List.foldl_append, List.foldl_cons]
  cases hstage : (body.foldl Local.after ((u.foldl Local.after .start).after ⟨.lockRefresh deadline, true⟩)).stage with
  | before =>
      refine absurd hstage (hbody.invariant (P := fun loc : Local V => loc.stage ≠ .before) (by rintro ⟨⟩)
        fun _ _ _ => left_before)
  | after =>
      obtain ⟨hv, hdrop, _⟩ := along_append.mp hrest
      have hend := hv.invariant (P := fun loc : Local V => loc.stage = .after) hstage fun _ _ _ => stays_after
      rcases hdrop with hother | hother | hother <;> cases hend.symm.trans hother
  | locked | fetching | fetched | writing | stored | written => rfl

/-- A call has observed the generation and refreshed with it. -/
def Refreshes (lib : Libraries K V) (config : Config) (g : UInt64) (t : Trace V) (r : Except AuthenticationError Unit) :
    Prop :=
  ∃ context pre t₁ c mid t₂ post, t = pre ++ (t₁ ++ (mid ++ (t₂ ++ post))) ∧
    Run (classifyCache config context) t₁ (.ok (g, c)) ∧ Run (refresh lib config context g) t₂ r

/-- What such a call does before it takes the mutex, with it, and after it. -/
structure Critical (config : Config) (context : SynchronizationContext) (g : UInt64) (t u body post : Trace V)
    (r : Except AuthenticationError Unit) : Prop where
  trace : t = u ++ ⟨.lockRefresh context.deadline, true⟩ :: (body ++ ⟨.dropRefresh, ()⟩ :: post)
  before : ∀ e ∈ u, Idle e
  run : RefreshRun config context g body r
  after : ∀ e ∈ post, Idle e
  observed : ∃ u₁ cache u₂, u = u₁ ++ ⟨.readCache context.deadline, some cache⟩ :: u₂ ∧ generationOf cache = g

theorem Refreshes.critical (h : Refreshes lib config g t r) (halong : Along Local.after Permitted .start t)
    (hr : r ≠ .error .cancelled) : ∃ context u body post, Critical config context g t u body post r := by
  obtain ⟨context, pre, t₁, c, mid, t₂, post, rfl, hclassify, hrefresh⟩ := h
  obtain ⟨cache, inner, ⟨polls, _, rfl⟩, hinner⟩ := run_classifyCache hclassify
  obtain ⟨polls', body, _, rfl, hrun⟩ := (run_refresh hrefresh).resolve_left fun hcancelled => hr hcancelled.1
  have htrace : pre ++ (polls ++ ⟨.readCache context.deadline, some cache⟩ :: (inner ++ [⟨.dropRead, ()⟩]) ++ (mid ++
      (polls' ++ ⟨.lockRefresh context.deadline, true⟩ :: (body ++ [⟨.dropRefresh, ()⟩]) ++ post))) =
      ((pre ++ polls) ++ ⟨.readCache context.deadline, some cache⟩ :: (inner ++ [⟨.dropRead, ()⟩] ++ mid ++ polls')) ++
        ⟨.lockRefresh context.deadline, true⟩ :: (body ++ ⟨.dropRefresh, ()⟩ :: post) := by simp
  rw [htrace] at halong ⊢
  refine ⟨context, _, body, post, rfl, idle_before halong, hrun, ?_, _, cache, _, rfl,
    (run_classifyGuarded hinner).1.symm⟩
  obtain ⟨_, _, hinside⟩ := along_append.mp halong
  exact idle_after (along_append.mp hinside).2.2 rfl

/-- What came of a refresh that was not cancelled, by whether it has found a newer generation that is fresh. -/
inductive Outcome (body : Trace V) (r : Except AuthenticationError Unit) : Bool → Prop
  | reused : r = .ok () → (∀ e ∈ body, Idle e) → Outcome body r true
  | failed : (∃ e, r = .error e) → Unstored body → body.countP isFetchStart = 1 → Outcome body r false
  | installed {inner : Trace V} {snapshot : Snapshot V} : r = .ok () → Unstored inner →
      body = inner ++ [⟨.store snapshot, ()⟩, ⟨.dropWrite, ()⟩] → body.countP isFetchStart = 1 → Outcome body r false

theorem PollsOnly.idle (h : PollsOnly t) : ∀ e ∈ t, Idle e := by
  rintro ⟨o, x⟩ he
  cases o with
  | isCancelled | now => exact ⟨rfl, rfl⟩
  | _ => exact (h _ he).elim

theorem idle_of_private (h : ∀ e ∈ t, Private e.op) : ∀ e ∈ t, Idle e := by
  rintro ⟨o, x⟩ he
  have := h _ he
  cases o with
  | fetchStarted | store => exact this.elim
  | _ => exact ⟨rfl, rfl⟩

theorem countP_isFetchStart (h : ∀ e ∈ t, Idle e) : t.countP isFetchStart = 0 :=
  List.countP_eq_zero.mpr fun e he => by simp [(h e he).1]

theorem unstored_of_idle (h : ∀ e ∈ t, Idle e) : Unstored t := fun _ hmem => Bool.noConfusion (h _ hmem).2

theorem Consults.idle {cache : Option (Snapshot V)} {n : Instant} (h : Consults context t cache n) :
    ∀ e ∈ t, Idle e := by
  obtain ⟨pre, front, polls, hpre, hpolls, rfl, before, hbefore, rfl⟩ := h
  simp only [List.forall_mem_append, List.forall_mem_cons]
  exact ⟨hpre.idle, hbefore.idle, ⟨rfl, rfl⟩, ⟨hpolls.idle, ⟨rfl, rfl⟩, nofun⟩, ⟨rfl, rfl⟩, nofun⟩

theorem RefreshRun.outcome (h : RefreshRun config context g body r) (hr : r ≠ .error .cancelled) :
    ∃ front rest cache n, body = front ++ rest ∧ Consults context front cache n ∧
      Outcome body r (newerFresh config g cache n) := by
  cases h with
  | cancelled => exact absurd rfl hr
  | reused hconsults hnewer =>
      refine ⟨body, [], _, _, by simp, hconsults, ?_⟩
      rw [hnewer]
      exact .reused rfl hconsults.idle
  | failed hconsults hnewer hinner =>
      refine ⟨_, _, _, _, rfl, hconsults, ?_⟩
      have hinner := idle_of_private hinner
      rw [hnewer]
      refine .failed ⟨_, rfl⟩ (unstored_append.mpr ⟨hconsults.unstored, fun snapshot hmem => ?_⟩) ?_
      · have := unstored_of_idle hinner snapshot
        simp_all
      · simp [List.countP_cons, countP_isFetchStart hconsults.idle, countP_isFetchStart hinner, isFetchStart]
  | @installed front inner pre post _ view n snapshot hconsults hnewer hinner hpre hpost =>
      refine ⟨_, _, _, _, rfl, hconsults, ?_⟩
      have hinner := idle_of_private hinner
      rw [hnewer]
      have hbody : front ++ ⟨.fetchStarted, ()⟩ :: (inner ++ ⟨.fetchEnded, ()⟩ :: (pre ++
          ⟨.writeCache context.deadline, some view⟩ :: (post ++ [⟨.store snapshot, ()⟩, ⟨.dropWrite, ()⟩]))) =
          (front ++ ⟨.fetchStarted, ()⟩ :: (inner ++ ⟨.fetchEnded, ()⟩ :: (pre ++
            ⟨.writeCache context.deadline, some view⟩ :: post))) ++ [⟨.store snapshot, ()⟩, ⟨.dropWrite, ()⟩] := by simp
      refine .installed rfl (fun snapshot' hmem => ?_) hbody ?_
      · have h₁ := hconsults.unstored snapshot'
        have h₂ := unstored_of_idle hinner snapshot'
        have h₃ := hpre.unstored snapshot'
        have h₄ := hpost.unstored snapshot'
        simp_all
      · simp [List.countP_cons, countP_isFetchStart hconsults.idle, countP_isFetchStart hinner,
          countP_isFetchStart hpre.idle, countP_isFetchStart hpost.idle, isFetchStart]

/-! ## The order in which the mutex is taken -/

theorem eq_of_append_cons {l₁ l₂ l₁' l₂' : List ι} (hnodup : (l₁ ++ k :: l₂).Nodup)
    (h : l₁ ++ k :: l₂ = l₁' ++ k :: l₂') : l₁ = l₁' ∧ l₂ = l₂' := by
  obtain ⟨hnotMem, _⟩ := List.nodup_cons.mp (List.nodup_middle.mp hnodup)
  rw [List.mem_append, not_or] at hnotMem
  obtain ⟨h₁, _, h₂⟩ := (List.append_cons_inj_of_notMem hnotMem.1 hnotMem.2).mp h
  exact ⟨h₁, h₂⟩

variable [DecidableEq ι] {s s' m : Shared ι V} {acts before after : List (Act ι (auth V))}

/-- The mutex is held by the call that has taken it last. -/
theorem getLast?_lockers (h : Path step s acts m) (hk : m.refresher = some k) :
    (clientsOf isLock acts).getLast? = some k ∨ clientsOf isLock acts = [] ∧ s.refresher = some k := by
  induction h with
  | nil => exact Or.inr ⟨rfl, hk⟩
  | @cons s m s' act acts hact _ ih =>
      rw [← List.singleton_append, clientsOf_append]
      rcases ih hk with hlast | ⟨hnone, hm⟩
      · exact Or.inl (by rw [List.getLast?_append, hlast]; rfl)
      · rw [hnone, List.append_nil]
        cases hact with
        | other => exact Or.inr ⟨rfl, hm⟩
        | @own k' e hobserves =>
            obtain ⟨o, x⟩ := e
            cases o with
            | lockRefresh deadline =>
                cases x with
                | false => exact Or.inr ⟨rfl, hm⟩
                | true => exact Or.inl hm
            | readCache | writeCache => cases x <;> exact Or.inr ⟨rfl, hm⟩
            | dropRefresh => cases hm
            | isCancelled | now | tick | unixSeconds | dropRead | request | frame | fetchStarted | fetchEnded | store
            | dropWrite => exact Or.inr ⟨rfl, hm⟩

theorem Execution.lockers_of_holds (h : Execution lib config calls s (before ++ after) s') (hidle : s.refresher = none)
    (hm : Path step s before m) (hk : (localOf (eventsOf k before)).stage.holdsRefresh = true) :
    ∃ l, clientsOf isLock before = l ++ [k] := by
  have hrefresher := ((h.exclusive hidle hm).refresher k).mp hk
  rcases getLast?_lockers hm hrefresher with hlast | ⟨_, hs⟩
  · exact List.getLast?_eq_some_iff.mp hlast
  · cases hidle.symm.trans hs

theorem Execution.generation_of_store
    (h : Execution lib config calls s (before ++ .own k ⟨.store snapshot, ()⟩ :: after) s') (hidle : s.refresher = none)
    (hm : Path step s before m) : snapshot.generation = nextGeneration (generationOf m.cache) ∧
      ∃ l, clientsOf isLock before = l ++ [k] := by
  have halong := h.along k
  rw [eventsOf_append, eventsOf_own] at halong
  obtain ⟨cache, hstage, hgeneration, _⟩ := halong.allowed
  refine ⟨?_, h.lockers_of_holds hidle hm (by rw [localOf, hstage]; rfl)⟩
  rw [hgeneration, (h.exclusive hidle hm).writing k cache hstage]

/-- Who has stored a snapshot has taken the mutex. -/
theorem Execution.store_mem_lockers (h : Execution lib config calls s (before ++ after) s') (hidle : s.refresher = none)
    (hmem : .own k ⟨.store snapshot, ()⟩ ∈ before) : k ∈ clientsOf isLock before := by
  obtain ⟨before₁, before₂, rfl⟩ := List.append_of_mem hmem
  rw [List.append_assoc, List.cons_append] at h
  obtain ⟨m, hm, _⟩ := path_append.mp h.path
  obtain ⟨_, l, hl⟩ := h.generation_of_store hidle hm
  rw [clientsOf_append, hl]
  simp

theorem Execution.nodup_lockers (h : Execution lib config calls s acts s') : (clientsOf isLock acts).Nodup := by
  rw [List.nodup_iff_count_le_one]
  intro k
  rw [count_clientsOf]
  exact locks_le_one (h.along k)

/-- A call takes the mutex at one place of the timeline. -/
theorem Execution.lock_unique {before' after' : List (Act ι (auth V))} {deadline' : Instant}
    (h : Execution lib config calls s acts s') (hacts : acts = before ++ .own k ⟨.lockRefresh deadline, true⟩ :: after)
    (hacts' : acts = before' ++ .own k ⟨.lockRefresh deadline', true⟩ :: after') :
    before = before' ∧ after = after' := by
  have hcount : (clientsOf isLock acts).count k ≤ 1 := List.nodup_iff_count_le_one.mp h.nodup_lockers k
  have hone (l : List (Act ι (auth V))) (d : Instant) :
      clientsOf isLock (.own k ⟨.lockRefresh d, true⟩ :: l) = k :: clientsOf isLock l := rfl
  rcases List.append_eq_append_iff.mp (hacts.symm.trans hacts') with
    ⟨between, hbefore, hrest⟩ | ⟨between, hbefore, hrest⟩
  · cases between with
    | nil => simp_all
    | cons act between =>
        obtain ⟨rfl, -⟩ := List.cons.inj hrest
        simp only [hacts', hbefore, clientsOf_append, hone, List.count_append, List.count_cons_self] at hcount
        omega
  · cases between with
    | nil => simp_all
    | cons act between =>
        obtain ⟨rfl, -⟩ := List.cons.inj hrest
        simp only [hacts, hbefore, clientsOf_append, hone, List.count_append, List.count_cons_self] at hcount
        omega

theorem clock_eq_of_own (h : Path step s acts m) (hown : .other ∉ acts) : m.clock = s.clock := by
  induction h with
  | nil => rfl
  | cons hact _ ih =>
      obtain ⟨hne, hrest⟩ := not_or.mp (mt List.mem_cons.mpr hown)
      rw [ih hrest]
      cases hact with
      | own => exact clock_perform
      | other => exact absurd rfl hne

/-! ## One call among the others -/

/-- What a call reads first from the clock. -/
def firstTick (t : Trace V) : Option Instant :=
  t.findSome? fun
    | ⟨.tick, n⟩ => some n
    | _ => none

theorem firstTick_append (h : ∀ n, ⟨.tick, n⟩ ∉ t) : firstTick (t ++ v) = firstTick v := by
  rw [firstTick, List.findSome?_append, List.findSome?_eq_none_iff.mpr, Option.none_or]
  · rfl
  · rintro ⟨o, x⟩ he
    cases o with
    | tick => exact absurd he (h x)
    | _ => rfl

theorem PollsOnly.tick_notMem (h : PollsOnly t) (n : Instant) : ⟨.tick, n⟩ ∉ t := fun hmem => h _ hmem

/-- The refresh of a call, and where on the timeline it took the mutex and read the cache with it. -/
structure Turn (config : Config) (g : UInt64) (s : Shared ι V) (acts : List (Act ι (auth V))) (k : ι)
    (r : Except AuthenticationError Unit) where
  context : SynchronizationContext
  u : Trace V
  body : Trace V
  post : Trace V
  critical : Critical config context g (eventsOf k acts) u body post r
  before : List (Act ι (auth V))
  middle : List (Act ι (auth V))
  rest : List (Act ι (auth V))
  acts_eq : acts = before ++ .own k ⟨.lockRefresh context.deadline, true⟩ :: (middle ++ rest)
  events_before : eventsOf k before = u
  v : Trace V
  body_eq : body = eventsOf k middle ++ v
  events_rest : eventsOf k rest = v ++ ⟨.dropRefresh, ()⟩ :: post
  polls : PollsOnly (eventsOf k middle)
  m : Shared ι V
  path : Path step s (before ++ .own k ⟨.lockRefresh context.deadline, true⟩ :: middle) m
  n : Instant
  tick : firstTick (eventsOf k (middle ++ rest)) = some n
  outcome : Outcome body r (newerFresh config g m.cache n)

theorem exists_turn (h : Execution lib config calls s acts s') (href : Refreshes lib config g (eventsOf k acts) r)
    (hr : r ≠ .error .cancelled) : Nonempty (Turn config g s acts k r) := by
  obtain ⟨context, u, body, post, hcritical⟩ := href.critical (h.along k) hr
  obtain ⟨front, rest, cache, n, hbody, hconsults, houtcome⟩ := hcritical.run.outcome hr
  obtain ⟨pre, inner, polls, hpre, hpolls, rfl, pre', hpre', rfl⟩ := hconsults
  have hevents : eventsOf k acts = u ++ ⟨.lockRefresh context.deadline, true⟩ :: ((pre ++ pre') ++
      ⟨.readCache context.deadline, some cache⟩ :: (polls ++ ⟨.tick, n⟩ :: (⟨.dropRead, ()⟩ :: rest ++
        ⟨.dropRefresh, ()⟩ :: post))) := by
    rw [hcritical.trace, hbody]
    simp
  obtain ⟨before, middle, rest', m₁, m, hacts, hbefore, hmiddle, hrest, hpath, _, _, hobserves, _⟩ :=
    exists_states_of_eventsOf h.path hevents
  obtain rfl : cache = m.cache := hobserves.2
  have hboth : PollsOnly (pre ++ pre') := List.forall_mem_append.mpr ⟨hpre, hpre'⟩
  have hv : eventsOf k (.own k (⟨.readCache context.deadline, some m.cache⟩ : Event (auth V)) :: rest') =
      (⟨.readCache context.deadline, some m.cache⟩ :: (polls ++ ⟨.tick, n⟩ :: (⟨.dropRead, ()⟩ :: rest))) ++
        ⟨.dropRefresh, ()⟩ :: post := by
    rw [eventsOf_own, hrest]
    simp
  refine ⟨⟨context, u, body, post, hcritical, before, middle, _, hacts, hbefore, _, ?_, hv,
    hmiddle ▸ hboth, m, hpath, n, ?_, houtcome⟩⟩
  · rw [hbody, hmiddle]
    simp
  · rw [eventsOf_append, eventsOf_own, hmiddle, hrest, firstTick_append hboth.tick_notMem,
      ← List.singleton_append, firstTick_append (by simp), firstTick_append hpolls.tick_notMem]
    rfl

namespace Turn

variable (τ : Turn config g s acts k r)

/-- What has happened when the call reads the cache with the mutex. -/
def upTo : List (Act ι (auth V)) := τ.before ++ .own k ⟨.lockRefresh τ.context.deadline, true⟩ :: τ.middle

theorem acts_eq_upTo : acts = τ.upTo ++ τ.rest := by
  rw [upTo, List.append_assoc, List.cons_append]
  exact τ.acts_eq

theorem events_upTo : eventsOf k τ.upTo = τ.u ++ ⟨.lockRefresh τ.context.deadline, true⟩ :: eventsOf k τ.middle := by
  rw [upTo, eventsOf_append, eventsOf_own, τ.events_before]

theorem lockers_upTo : clientsOf isLock τ.upTo = clientsOf isLock τ.before ++ k :: clientsOf isLock τ.middle := by
  rw [upTo, clientsOf_append]
  rfl

theorem countP_eq : (eventsOf k acts).countP isFetchStart = τ.body.countP isFetchStart := by
  rw [τ.critical.trace]
  simp [countP_isFetchStart τ.critical.before, countP_isFetchStart τ.critical.after, isFetchStart]

theorem store_mem : ⟨.store snapshot, ()⟩ ∈ eventsOf k acts ↔ ⟨.store snapshot, ()⟩ ∈ τ.body := by
  have hu := unstored_of_idle τ.critical.before snapshot
  have hpost := unstored_of_idle τ.critical.after snapshot
  rw [τ.critical.trace]
  simp [hu, hpost]

theorem holds (h : Execution lib config calls s acts s') : (localOf (eventsOf k τ.upTo)).stage.holdsRefresh = true := by
  have halong := h.along k
  rw [τ.acts_eq_upTo, eventsOf_append, τ.events_upTo, τ.events_rest, List.append_assoc, List.cons_append] at halong
  rw [τ.events_upTo]
  exact holds_between halong

/-- Those that had the mutex before the call are those that stand before it in the order. -/
theorem lockers_before {l l' : List ι} (h : Execution lib config calls s acts s')
    (horder : clientsOf isLock acts = l ++ k :: l') : clientsOf isLock τ.before = l := by
  have hnodup := horder ▸ h.nodup_lockers
  rw [τ.acts_eq_upTo, clientsOf_append, τ.lockers_upTo, List.append_assoc, List.cons_append] at horder
  exact (eq_of_append_cons hnodup horder.symm).1.symm

/-- What is stored when the call reads the cache was stored by one of those that had the mutex before it. -/
theorem mem_lockers_of_store (h : Execution lib config calls s acts s') (hidle : s.refresher = none)
    (hmem : .own j ⟨.store snapshot, ()⟩ ∈ τ.upTo) : j ∈ clientsOf isLock τ.before := by
  have hexec := τ.acts_eq_upTo ▸ h
  have hnodup := hexec.nodup_lockers
  rw [clientsOf_append, τ.lockers_upTo] at hnodup
  obtain ⟨l, hl⟩ := hexec.lockers_of_holds hidle τ.path (τ.holds h)
  change clientsOf isLock τ.upTo = l ++ [k] at hl
  rw [τ.lockers_upTo] at hl
  obtain ⟨hsame, _⟩ := eq_of_append_cons hnodup.of_append_left hl
  have hlocker := hexec.store_mem_lockers hidle hmem
  rw [τ.lockers_upTo, hl, ← hsame, List.mem_append, List.mem_singleton] at hlocker
  rcases hlocker with hlocker | rfl
  · exact hlocker
  · have hevents := mem_eventsOf.mpr hmem
    have hu := unstored_of_idle τ.critical.before snapshot
    have hpolls := τ.polls.unstored snapshot
    simp [τ.events_upTo, hu, hpolls] at hevents

end Turn

/-! ## The group -/

/-- All the calls have observed one generation and refresh, none of them is cancelled, and the first of them to take the
mutex whose refresh succeeds is the leader. -/
structure Stampede (lib : Libraries K V) (config : Config) (calls : ι → Call) (g : UInt64)
    (results : ι → Except AuthenticationError Unit) (s : Shared ι V) (acts : List (Act ι (auth V))) (s' : Shared ι V)
    (failed : List ι) (leader : ι) (later : List ι) : Prop where
  execution : Execution lib config calls s acts s'
  idle : s.refresher = none
  refreshes : ∀ k, Refreshes lib config g (eventsOf k acts) (results k)
  uncancelled : ∀ k, results k ≠ .error .cancelled
  order : clientsOf isLock acts = failed ++ leader :: later
  failed : ∀ k ∈ failed, ∃ e, results k = .error e
  leader : results leader = .ok ()

/-- What the leader installs is fresh when a later call takes the mutex. -/
def FreshWhenLocked (config : Config) (s : Shared ι V) (acts : List (Act ι (auth V))) (leader : ι) (later : List ι) :
    Prop :=
  ∀ k ∈ later, ∀ before deadline after m snapshot, acts = before ++ .own k ⟨.lockRefresh deadline, true⟩ :: after →
    Path step s before m → ⟨.store snapshot, ()⟩ ∈ eventsOf leader acts →
    ∃ age, snapshot.age m.clock = some age ∧ age ≤ config.cachePolicy.freshness

/-- What the leader installs is fresh when a later call first reads the clock with the mutex. -/
def StaysFresh (config : Config) (acts : List (Act ι (auth V))) (leader : ι) (later : List ι) : Prop :=
  ∀ k ∈ later, ∀ before deadline after snapshot n, acts = before ++ .own k ⟨.lockRefresh deadline, true⟩ :: after →
    firstTick (eventsOf k after) = some n → ⟨.store snapshot, ()⟩ ∈ eventsOf leader acts →
    ∃ age, snapshot.age n = some age ∧ age ≤ config.cachePolicy.freshness

theorem newerFresh_of_generation {cache : Option (Snapshot V)} {n : Instant} (h : generationOf cache = g) :
    newerFresh config g cache n = false := by
  subst h
  cases cache <;> simp [newerFresh, generationOf]

namespace Stampede

variable {results : ι → Except AuthenticationError Unit} {failed later : List ι} {leader : ι}

theorem exists_turn (h : Stampede lib config calls g results s acts s' failed leader later) (k : ι) :
    Nonempty (Turn config g s acts k (results k)) :=
  Authenticator.exists_turn h.execution (h.refreshes k) (h.uncancelled k)

theorem nodup (h : Stampede lib config calls g results s acts s' failed leader later) :
    (failed ++ leader :: later).Nodup :=
  h.order ▸ h.execution.nodup_lockers

/-- A call that failed has fetched, and stored nothing. -/
theorem failed_fetches (h : Stampede lib config calls g results s acts s' failed leader later) (hk : k ∈ failed) :
    Unstored (eventsOf k acts) ∧ (eventsOf k acts).countP isFetchStart = 1 := by
  obtain ⟨e, he⟩ := h.failed k hk
  obtain ⟨τ⟩ := he ▸ h.exists_turn k
  have houtcome := τ.outcome
  generalize newerFresh config g τ.m.cache τ.n = newer at houtcome
  cases houtcome with
  | reused hr | installed hr => cases hr
  | failed _ hunstored hcount =>
      exact ⟨fun snapshot hmem => hunstored snapshot (τ.store_mem.mp hmem), τ.countP_eq.trans hcount⟩

/-- Until one of the calls behind them has the mutex, the calls that fail leave the cache as it was. -/
theorem cache_of_failed (h : Stampede lib config calls g results s acts s' failed leader later)
    (hacts : acts = before ++ after) (hm : Path step s before m)
    (hstores : ∀ j snapshot, .own j ⟨.store snapshot, ()⟩ ∈ before → j ∈ failed) : m.cache = s.cache := by
  rcases cache_cases hm with ⟨_, hcache⟩ | ⟨_, hmem, snapshot, ⟨j, rfl⟩, _⟩
  · exact hcache
  · have hevents : ⟨.store snapshot, ()⟩ ∈ eventsOf j acts := by
      rw [hacts]
      exact mem_eventsOf.mpr (List.mem_append_left _ hmem)
    exact absurd hevents ((h.failed_fetches (hstores j snapshot hmem)).1 snapshot)

/-- The leader has read what was in the cache at first, so that it fetches and installs the next generation. -/
theorem leader_installs (h : Stampede lib config calls g results s acts s' failed leader later) :
    (eventsOf leader acts).countP isFetchStart = 1 ∧ ∃ snapshot, snapshot.generation = nextGeneration g ∧
      ∀ snapshot', ⟨.store snapshot', ()⟩ ∈ eventsOf leader acts ↔ snapshot' = snapshot := by
  obtain ⟨τ⟩ := h.exists_turn leader
  have hbefore := τ.lockers_before h.execution h.order
  have hgeneration : generationOf s.cache = g := by
    obtain ⟨u₁, cache, u₂, hu, hg⟩ := τ.critical.observed
    obtain ⟨m₁, hm₁, _⟩ := path_append.mp τ.path
    obtain ⟨q, q', m', hq, _, _, hpath, hobserves, _⟩ := exists_state_of_eventsOf hm₁ (τ.events_before.trans hu)
    obtain rfl : cache = m'.cache := hobserves.2
    have hacts := τ.acts_eq
    rw [hq, List.append_assoc] at hacts
    rw [← hg, h.cache_of_failed hacts hpath fun j snapshot hmem => ?_]
    have hmem' : .own j ⟨.store snapshot, ()⟩ ∈ τ.before := hq ▸ List.mem_append_left _ hmem
    exact hbefore ▸ τ.mem_lockers_of_store h.execution h.idle (List.mem_append_left _ hmem')
  have hcache : τ.m.cache = s.cache := h.cache_of_failed τ.acts_eq_upTo τ.path fun j snapshot hmem =>
    hbefore ▸ τ.mem_lockers_of_store h.execution h.idle hmem
  have hnewer : newerFresh config g τ.m.cache τ.n = false := newerFresh_of_generation (by rw [hcache, hgeneration])
  have houtcome := τ.outcome
  rw [hnewer] at houtcome
  cases houtcome with
  | failed he =>
      obtain ⟨e, he⟩ := he
      cases h.leader.symm.trans he
  | @installed inner snapshot _ hinner hbody hcount =>
      refine ⟨τ.countP_eq.trans hcount, snapshot, ?_, fun snapshot' => ?_⟩
      · have hevents : eventsOf leader acts = (τ.u ++ ⟨.lockRefresh τ.context.deadline, true⟩ :: inner) ++
            ⟨.store snapshot, ()⟩ :: (⟨.dropWrite, ()⟩ :: ⟨.dropRefresh, ()⟩ :: τ.post) := by
          rw [τ.critical.trace, hbody]
          simp
        obtain ⟨q, q', m', hacts, hq, _, hpath, _, _⟩ := exists_state_of_eventsOf h.execution.path hevents
        have hexec := hacts ▸ h.execution
        obtain ⟨hnext, l, hl⟩ := hexec.generation_of_store h.idle hpath
        have horder := h.order
        rw [hacts, clientsOf_append, hl, List.append_assoc] at horder
        obtain ⟨hfailed, _⟩ := eq_of_append_cons h.nodup horder.symm
        rw [hnext, h.cache_of_failed hacts hpath fun j snapshot' hmem => ?_, hgeneration]
        have hlocker := hexec.store_mem_lockers h.idle hmem
        rw [hl, List.mem_append, List.mem_singleton] at hlocker
        rcases hlocker with hlocker | rfl
        · exact hfailed ▸ hlocker
        · have hstored := mem_eventsOf.mpr hmem
          have hu := unstored_of_idle τ.critical.before snapshot'
          have := hinner snapshot'
          simp [hq, hu, this] at hstored
      · have := hinner snapshot'
        rw [τ.store_mem, hbody]
        simp [this]

/-- When a later call has the mutex, the leader has stored. -/
theorem store_mem_upTo (h : Stampede lib config calls g results s acts s' failed leader later)
    (τ : Turn config g s acts k (results k)) (hk : k ≠ leader) (hlocked : leader ∈ clientsOf isLock τ.before)
    (hstore : ⟨.store snapshot, ()⟩ ∈ eventsOf leader acts) : ⟨.store snapshot, ()⟩ ∈ eventsOf leader τ.upTo := by
  have hexec := τ.acts_eq_upTo ▸ h.execution
  have halong := hexec.along leader
  rw [eventsOf_append] at halong
  obtain ⟨hbefore, hafter⟩ := along_append.mp halong
  rw [τ.acts_eq_upTo, eventsOf_append] at hstore
  refine (List.mem_append.mp hstore).resolve_right fun hlate => ?_
  -- it holds the mutex no more, so that nothing of its refresh is left
  have hcount : 0 < (eventsOf leader τ.upTo).countP isLock := by
    rw [← count_clientsOf, τ.lockers_upTo]
    exact List.count_pos_iff.mpr (List.mem_append_left _ hlocked)
  obtain ⟨e, he, hlock⟩ := List.countP_pos_iff.mp hcount
  obtain ⟨t₁, t₂, ht⟩ := List.append_of_mem he
  have hleft : (localOf (eventsOf leader τ.upTo)).stage ≠ .before := by
    rw [ht] at hbefore ⊢
    obtain ⟨_, _, hrest⟩ := along_append.mp hbefore
    rw [localOf, List.foldl_append, List.foldl_cons]
    refine hrest.invariant (P := fun loc : Local V => loc.stage ≠ .before) ?_ fun _ _ _ => left_before
    obtain ⟨o, x⟩ := e
    cases o with
    | lockRefresh deadline =>
        cases x with
        | false => cases hlock
        | true => rintro ⟨⟩
    | _ => cases hlock
  have hfree : (localOf (eventsOf leader τ.upTo)).stage.holdsRefresh ≠ true := fun hholds =>
    hk ((hexec.exclusive h.idle τ.path).eq_of_holds (τ.holds h.execution) hholds)
  have hended : (localOf (eventsOf leader τ.upTo)).stage = .after := by
    cases hstage : (localOf (eventsOf leader τ.upTo)).stage with
    | before => exact absurd hstage hleft
    | after => rfl
    | locked | fetching | fetched | writing | stored | written => exact absurd (by rw [hstage]; rfl) hfree
  exact unstored_of_idle (idle_after hafter hended) snapshot hlate

/-- The calls behind the leader reuse what it has installed. -/
theorem later_reuse (h : Stampede lib config calls g results s acts s' failed leader later)
    (hg : g.toNat + 1 < u64Bound) (hfresh : StaysFresh config acts leader later) :
    ∀ k ∈ later, results k = .ok () ∧ ∀ e ∈ eventsOf k acts, Idle e := by
  obtain ⟨_, snapshot, hgeneration, hstores⟩ := h.leader_installs
  -- by the order of the calls: those between the leader and the call have stored nothing
  suffices hall : ∀ l l', later = l ++ l' → ∀ k ∈ l, results k = .ok () ∧ ∀ e ∈ eventsOf k acts, Idle e from
    hall later [] (by simp)
  intro l
  induction l using List.reverseRecOn with
  | nil => exact fun _ _ => nofun
  | append_singleton l k ih =>
      intro l' hl
      rw [List.append_assoc, List.singleton_append] at hl
      refine List.forall_mem_append.mpr ⟨ih _ hl, List.forall_mem_singleton.mpr ?_⟩
      obtain ⟨τ⟩ := h.exists_turn k
      have horder : clientsOf isLock acts = (failed ++ leader :: l) ++ k :: l' := by rw [h.order, hl]; simp
      have hbefore := τ.lockers_before h.execution horder
      have hk : k ≠ leader := by
        have hnodup := horder ▸ h.execution.nodup_lockers
        rintro rfl
        simp [List.nodup_middle] at hnodup
      have hmem : .own leader ⟨.store snapshot, ()⟩ ∈ τ.upTo :=
        mem_eventsOf.mp (h.store_mem_upTo τ hk (by simp [hbefore]) ((hstores snapshot).mpr rfl))
      have hcache : τ.m.cache = some snapshot := by
        rcases cache_cases τ.path with ⟨hno, _⟩ | ⟨_, hact, snapshot', ⟨j, rfl⟩, hcache⟩
        · exact absurd ⟨leader, rfl⟩ (hno _ hmem snapshot)
        · have hevents : ⟨.store snapshot', ()⟩ ∈ eventsOf j acts := by
            rw [τ.acts_eq_upTo]
            exact mem_eventsOf.mpr (List.mem_append_left _ hact)
          have hj := τ.mem_lockers_of_store h.execution h.idle hact
          rw [hbefore, List.mem_append, List.mem_cons] at hj
          rcases hj with hj | rfl | hj
          · exact absurd hevents ((h.failed_fetches hj).1 snapshot')
          · rw [hcache, (hstores snapshot').mp hevents]
          · exact absurd hevents (unstored_of_idle (ih _ hl j hj).2 snapshot')
      obtain ⟨age, hage, hle⟩ := hfresh k (by simp [hl]) τ.before τ.context.deadline _ snapshot τ.n τ.acts_eq τ.tick
        ((hstores snapshot).mpr rfl)
      have hnewer : newerFresh config g τ.m.cache τ.n = true := by
        have hne : snapshot.generation ≠ g := by
          rw [hgeneration]
          intro heq
          have := congrArg UInt64.toNat heq
          rw [toNat_nextGeneration] at this
          omega
        rw [hcache]
        simp [newerFresh, hne, hage, hle]
      have houtcome := τ.outcome
      rw [hnewer] at houtcome
      cases houtcome with
      | reused hr hidle =>
          refine ⟨hr, ?_⟩
          rw [τ.critical.trace]
          simp only [List.forall_mem_append, List.forall_mem_cons]
          exact ⟨τ.critical.before, ⟨rfl, rfl⟩, hidle, ⟨rfl, rfl⟩, τ.critical.after⟩

/-- One fetch for each call that fails and one for the leader. -/
theorem fetches (h : Stampede lib config calls g results s acts s' failed leader later)
    (hlater : ∀ k ∈ later, ∀ e ∈ eventsOf k acts, Idle e) :
    (clientsOf isFetchStart acts).Perm (failed ++ [leader]) := by
  have hnodup : (failed ++ [leader] ++ later).Nodup := by simpa using h.nodup
  rw [List.perm_iff_count]
  intro k
  rw [count_clientsOf]
  obtain ⟨τ⟩ := h.exists_turn k
  have hmem : k ∈ failed ++ [leader] ++ later := by
    have hlocker : k ∈ clientsOf isLock acts := by
      rw [τ.acts_eq_upTo, clientsOf_append, τ.lockers_upTo]
      simp
    simpa [h.order] using hlocker
  rcases List.mem_append.mp hmem with hfetches | hreuses
  · rw [List.count_eq_one_of_mem hnodup.of_append_left hfetches]
    rcases List.mem_append.mp hfetches with hk | hk
    · exact (h.failed_fetches hk).2
    · rw [List.mem_singleton.mp hk]
      exact h.leader_installs.1
  · rw [countP_isFetchStart (hlater k hreuses), List.count_eq_zero_of_not_mem]
    exact fun hk => (List.nodup_append.mp hnodup).2.2 k hk k hreuses rfl

/-- Calls that observed one generation fetch only until one of them has installed a snapshot, however they
interleave. -/
theorem fetches_once (h : Stampede lib config calls g results s acts s' failed leader later)
    (hg : g.toNat + 1 < u64Bound) (hfresh : StaysFresh config acts leader later) :
    (clientsOf isFetchStart acts).length = failed.length + 1 ∧
      ∀ k ∈ later, results k = .ok () ∧ ∀ e ∈ eventsOf k acts, isFetchStart e = false := by
  have hlater := h.later_reuse hg hfresh
  refine ⟨?_, fun k hk => ⟨(hlater k hk).1, fun e he => ((hlater k hk).2 e he).1⟩⟩
  have hperm := h.fetches fun k hk => (hlater k hk).2
  simpa using hperm.length_eq

end Stampede

/-! ## Groups that can be run -/

def ensureCalls (_ : ι) : Call := .ensureTrustedVerifierState sampleContext

/-- The snapshot in the cache has expired. -/
def expiredState (generation : UInt64) : Shared ι Unit := ⟨10, some (keylessSnapshot 0 generation), [], none, none⟩

/-- The operations of a call that refreshes what has expired. -/
structure Member (g : UInt64) (t : Trace Unit) (r : Except AuthenticationError Unit) : Prop where
  follows : Follows ((Call.ensureTrustedVerifierState sampleContext).program keylessLibraries sampleConfig) t
  refreshes : Refreshes keylessLibraries sampleConfig g t r

theorem member_of_runs {t₁ t₂ t₃ : Trace Unit} (state : TrustedVerifierState)
    (hclassify : Run (classifyCache sampleConfig sampleContext) t₁ (.ok (g, .coldOrExpired)))
    (hrefresh : Run (refresh keylessLibraries sampleConfig sampleContext g) t₂ r)
    (hrun : Run (ensureTrustedVerifierState keylessLibraries sampleConfig sampleContext) (t₁ ++ (t₂ ++ t₃))
      (.ok state)) :
    Member g (t₁ ++ (t₂ ++ t₃)) r :=
  ⟨.ended (run_bind_ok.mpr ⟨state, _, [], by simp, hrun, run_pure.mpr ⟨rfl, rfl⟩⟩),
    sampleContext, [], t₁, _, [], t₂, t₃, rfl, hclassify, hrefresh⟩

/-- A refresh that finds the snapshot fresh. -/
def sampleReuse (n : Instant) (snapshot : Snapshot Unit) : Trace Unit :=
  samplePoll n ++ ⟨.lockRefresh 100, true⟩ :: samplePoll n ++ sampleClassify n snapshot ++ [⟨.dropRefresh, ()⟩]

/-- The calls of a queue for the mutex. -/
inductive Waiting where
  | first
  | second
  | third
deriving DecidableEq

/-- The first call fails, the second one installs a snapshot without candidates, and the third one uses it. -/
def queueActs : List (Act Waiting (auth Unit)) :=
  (sampleClassify 10 (keylessSnapshot 0 1)).map (.own .first) ++
    (sampleClassify 10 (keylessSnapshot 0 1)).map (.own .second) ++
    (sampleClassify 10 (keylessSnapshot 0 1)).map (.own .third) ++
    (sampleFailedRefresh 10 (keylessSnapshot 0 1)).map (.own .first) ++
    (sampleRefresh 10 (some (keylessSnapshot 0 1)) 2).map (.own .second) ++ (sampleReuse 10 (keylessSnapshot 10 2)).map
    (.own .third) ++ (sampleClassify 10 (keylessSnapshot 10 2)).map (.own .second) ++
    (sampleClassify 10 (keylessSnapshot 10 2)).map (.own .third)

def queueResults : Waiting → Except AuthenticationError Unit
  | .first => .error .verifierUnavailable
  | _ => .ok ()

theorem queue_members : ∀ k, Member 1 (eventsOf k queueActs) (queueResults k)
  | .first => by
      have h : eventsOf .first queueActs = sampleClassify 10 (keylessSnapshot 0 1) ++
        (sampleFailedRefresh 10 (keylessSnapshot 0 1) ++ []) := rfl
      rw [h]
      exact member_of_runs .unusable (run_of_follow (by decide +kernel)) (run_of_follow (by decide +kernel))
        (run_of_follow (by decide +kernel))
  | .second => by
      have h : eventsOf .second queueActs = sampleClassify 10 (keylessSnapshot 0 1) ++
        (sampleRefresh 10 (some (keylessSnapshot 0 1)) 2 ++ sampleClassify 10 (keylessSnapshot 10 2)) := rfl
      rw [h]
      exact member_of_runs .usable (run_of_follow (by decide +kernel)) (run_of_follow (by decide +kernel))
        (run_of_follow (by decide +kernel))
  | .third => by
      have h : eventsOf .third queueActs = sampleClassify 10 (keylessSnapshot 0 1) ++
        (sampleReuse 10 (keylessSnapshot 10 2) ++ sampleClassify 10 (keylessSnapshot 10 2)) := rfl
      rw [h]
      exact member_of_runs .usable (run_of_follow (by decide +kernel)) (run_of_follow (by decide +kernel))
        (run_of_follow (by decide +kernel))

theorem queue_stampede :
    ∃ s', Stampede keylessLibraries sampleConfig ensureCalls 1 queueResults (expiredState 1) queueActs
    s' [.first] .second [.third] := by
  have hnext : (queueActs.foldlM Shared.next (expiredState 1)).isSome = true := by decide +kernel
  obtain ⟨s', hs'⟩ := Option.isSome_iff_exists.mp hnext
  refine ⟨s', ⟨path_of_foldlM (fun _ _ _ => step_of_next) hs', fun k => (queue_members k).follows⟩, rfl,
    fun k => (queue_members k).refreshes, fun k => ?_, rfl, List.forall_mem_singleton.mpr ⟨_, rfl⟩, rfl⟩
  cases k with
  | first | second | third => rintro ⟨⟩

theorem queue_fetches_once : (clientsOf isFetchStart queueActs).length = 2 ∧ queueResults .third = .ok () ∧
    ∀ e ∈ eventsOf .third queueActs, isFetchStart e = false := by
  obtain ⟨s', hstampede⟩ := queue_stampede
  have hfresh : StaysFresh sampleConfig queueActs .second [.third] := by
    intro k hk before deadline after snapshot n hacts htick hstore
    obtain rfl := List.mem_singleton.mp hk
    have hsplit : queueActs = ((sampleClassify 10 (keylessSnapshot 0 1)).map (.own .first) ++
        (sampleClassify 10 (keylessSnapshot 0 1)).map (.own .second) ++
          (sampleClassify 10 (keylessSnapshot 0 1)).map (.own .third) ++
        (sampleFailedRefresh 10 (keylessSnapshot 0 1)).map (.own .first) ++
        (sampleRefresh 10 (some (keylessSnapshot 0 1)) 2).map (.own .second) ++ (samplePoll 10).map (.own .third)) ++
        .own .third ⟨.lockRefresh 100, true⟩ :: (((sampleReuse 10 (keylessSnapshot 10 2)).drop 3).map (.own .third) ++
          (sampleClassify 10 (keylessSnapshot 10 2)).map (.own .second) ++
          (sampleClassify 10 (keylessSnapshot 10 2)).map (.own .third)) := rfl
    obtain ⟨-, rfl⟩ := hstampede.execution.lock_unique hsplit hacts
    obtain rfl : 10 = n := Option.some.inj htick
    have hstored : (⟨.store snapshot, ()⟩ : Event (auth Unit)) ∈ sampleClassify 10 (keylessSnapshot 0 1) ++
      (sampleRefresh 10 (some (keylessSnapshot 0 1)) 2 ++ sampleClassify 10 (keylessSnapshot 10 2)) := hstore
    obtain rfl : snapshot = keylessSnapshot 10 2 := by simpa [sampleClassify, sampleRefresh, samplePoll] using hstored
    exact ⟨0, rfl, Nat.zero_le _⟩
  obtain ⟨hlength, hlater⟩ := hstampede.fetches_once (by decide) hfresh
  exact ⟨hlength, hlater .third (List.mem_singleton.mpr rfl)⟩

/-! ## A second fetch -/

/-- One call replaces the snapshot, and then the other one is about to take the mutex. -/
def racingFront (g next : UInt64) : List (Act Bool (auth Unit)) :=
  (sampleClassify 10 (keylessSnapshot 0 g)).map (.own false) ++
    (sampleClassify 10 (keylessSnapshot 0 g)).map (.own true) ++ (sampleRefresh 10 (some (keylessSnapshot 0 g)) next ++
    sampleClassify 10 (keylessSnapshot 10 next)).map (.own false) ++ (samplePoll 10).map (.own true)

/-- It takes the mutex, and fetches after some more time. -/
def racingActs (g next after : UInt64) (pause : Nat) : List (Act Bool (auth Unit)) :=
  racingFront g next ++ .own true ⟨.lockRefresh 100, true⟩ :: (List.replicate pause .other ++
    ((sampleRefresh (10 + pause) (some (keylessSnapshot 10 next)) after).drop 3 ++
      sampleClassify (10 + pause) (keylessSnapshot (10 + pause) after)).map (.own true))

theorem store_racingActs {next after : UInt64} {pause : Nat} {snapshot : Snapshot Unit}
    (h : ⟨.store snapshot, ()⟩ ∈ eventsOf false (racingActs g next after pause)) :
    snapshot = keylessSnapshot 10 next := by
  have hmem := mem_eventsOf.mp h
  simpa [racingActs, racingFront, sampleClassify, sampleRefresh, samplePoll] using hmem

theorem racing_freshWhenLocked {next after : UInt64} {pause : Nat} {s' : Shared Bool Unit}
    (h : Execution keylessLibraries sampleConfig ensureCalls (expiredState g) (racingActs g next after pause) s') :
    FreshWhenLocked sampleConfig (expiredState g) (racingActs g next after pause) false [true] := by
  intro k hk before deadline after m snapshot hacts hm hstore
  obtain rfl := List.mem_singleton.mp hk
  obtain ⟨rfl, -⟩ := h.lock_unique rfl hacts
  obtain rfl := store_racingActs hstore
  have hclock : m.clock = 10 := clock_eq_of_own hm (by simp [racingFront])
  rw [hclock]
  exact ⟨0, rfl, Nat.zero_le _⟩

def maxGeneration : UInt64 := .ofNat (u64Bound - 1)

theorem saturated_members :
    ∀ k, Member maxGeneration (eventsOf k (racingActs maxGeneration maxGeneration maxGeneration 0))
    (.ok ())
  | false => by
      have h : eventsOf false (racingActs maxGeneration maxGeneration maxGeneration 0) =
        sampleClassify 10 (keylessSnapshot 0 maxGeneration) ++
        (sampleRefresh 10 (some (keylessSnapshot 0 maxGeneration)) maxGeneration ++
          sampleClassify 10 (keylessSnapshot 10 maxGeneration)) := rfl
      rw [h]
      exact member_of_runs .usable (run_of_follow (by decide +kernel)) (run_of_follow (by decide +kernel))
        (run_of_follow (by decide +kernel))
  | true => by
      have h : eventsOf true (racingActs maxGeneration maxGeneration maxGeneration 0) =
        sampleClassify 10 (keylessSnapshot 0 maxGeneration) ++
        (sampleRefresh 10 (some (keylessSnapshot 10 maxGeneration)) maxGeneration ++
          sampleClassify 10 (keylessSnapshot 10 maxGeneration)) := rfl
      rw [h]
      exact member_of_runs .usable (run_of_follow (by decide +kernel)) (run_of_follow (by decide +kernel))
        (run_of_follow (by decide +kernel))

theorem overdue_members : ∀ k, Member 1 (eventsOf k (racingActs 1 2 3 3)) (.ok ())
  | false => by
      have h : eventsOf false (racingActs 1 2 3 3) = sampleClassify 10 (keylessSnapshot 0 1) ++
        (sampleRefresh 10 (some (keylessSnapshot 0 1)) 2 ++ sampleClassify 10 (keylessSnapshot 10 2)) := rfl
      rw [h]
      exact member_of_runs .usable (run_of_follow (by decide +kernel)) (run_of_follow (by decide +kernel))
        (run_of_follow (by decide +kernel))
  | true => by
      have h : eventsOf true (racingActs 1 2 3 3) = sampleClassify 10 (keylessSnapshot 0 1) ++
        (((sampleRefresh 10 (some (keylessSnapshot 10 2)) 3).take 3 ++
          (sampleRefresh 13 (some (keylessSnapshot 10 2)) 3).drop 3) ++ sampleClassify 13 (keylessSnapshot 13 3)) := rfl
      rw [h]
      exact member_of_runs .usable (run_of_follow (by decide +kernel)) (run_of_follow (by decide +kernel))
        (run_of_follow (by decide +kernel))

/-- The fetches of the two calls. -/
theorem racing_stampede {next after : UInt64} {pause : Nat}
    (hmembers : ∀ k, Member g (eventsOf k (racingActs g next after pause)) (.ok ()))
    (hnext : ((racingActs g next after pause).foldlM Shared.next (expiredState g)).isSome = true)
    (horder : clientsOf isLock (racingActs g next after pause) = [false, true]) :
    ∃ s', Stampede keylessLibraries sampleConfig ensureCalls g (fun _ => .ok ()) (expiredState g)
      (racingActs g next after pause) s' [] false [true] := by
  obtain ⟨s', hs'⟩ := Option.isSome_iff_exists.mp hnext
  exact ⟨s', ⟨path_of_foldlM (fun _ _ _ => step_of_next) hs', fun k => (hmembers k).follows⟩, rfl,
    fun k => (hmembers k).refreshes, fun _ => nofun, horder, nofun, rfl⟩

theorem saturated_staysFresh {s' : Shared Bool Unit} (h : Execution keylessLibraries sampleConfig ensureCalls
      (expiredState maxGeneration) (racingActs maxGeneration maxGeneration maxGeneration 0) s') :
    StaysFresh sampleConfig (racingActs maxGeneration maxGeneration maxGeneration 0) false [true] := by
  intro k hk before deadline after snapshot n hacts htick hstore
  obtain rfl := List.mem_singleton.mp hk
  obtain ⟨-, rfl⟩ := h.lock_unique rfl hacts
  obtain rfl : 10 = n := Option.some.inj htick
  obtain rfl := store_racingActs hstore
  exact ⟨0, rfl, Nat.zero_le _⟩

/-- At the last generation the second call fetches again whenever it reads the clock, and at any other one when time
passes between the mutex and its clock. -/
theorem racing_fetches_twice :
    (¬ ∀ (acts : List (Act Bool (auth Unit))) (s' : Shared Bool Unit),
      Stampede keylessLibraries sampleConfig ensureCalls maxGeneration (fun _ => .ok ())
        (expiredState maxGeneration) acts
        s' [] false [true] →
      FreshWhenLocked sampleConfig (expiredState maxGeneration) acts false [true] →
      StaysFresh sampleConfig acts false [true] → (clientsOf isFetchStart acts).length = 0 + 1) ∧
    ¬ ∀ (g : UInt64) (acts : List (Act Bool (auth Unit))) (s' : Shared Bool Unit), g.toNat + 1 < u64Bound →
      Stampede keylessLibraries sampleConfig ensureCalls g (fun _ => .ok ()) (expiredState g) acts s' [] false [true] →
      FreshWhenLocked sampleConfig (expiredState g) acts false [true] →
      (clientsOf isFetchStart acts).length = 0 + 1 := by
  constructor
  · intro honce
    obtain ⟨s', h⟩ := racing_stampede saturated_members (by decide +kernel) (by decide +kernel)
    have hlength := honce _ s' h (racing_freshWhenLocked h.execution) (saturated_staysFresh h.execution)
    exact absurd hlength (by decide +kernel)
  · intro honce
    obtain ⟨s', h⟩ := racing_stampede overdue_members (by decide +kernel) (by decide +kernel)
    have hlength := honce 1 _ s' (by decide) h (racing_freshWhenLocked h.execution)
    exact absurd hlength (by decide +kernel)

end PermissionSync.Authenticator
