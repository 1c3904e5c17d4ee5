import PermissionSync.Auth.Lemmas.Coherence
import PermissionSync.Auth.Theorems.Rejection

/-!
# How the trusted snapshot changes

Whatever calls are made, answered, cancelled and dropped, the snapshots are installed one after another by the calls
that hold the refresh mutex.
-/

namespace PermissionSync.Authenticator

open PermissionSync.Auth PermissionSync.Base PermissionSync.Core

variable {ι K V α : Type} {lib : Libraries K V} {config : Config} {calls : ι → Call} {k : ι}
  {context : SynchronizationContext} {g : UInt64} {t : Trace V} {e : Event (auth V)}

/-! ## A refresh that does not return stores nothing -/

/-- The operation stores a snapshot. -/
def isStore : Event (auth V) → Bool
  | ⟨.store _, _⟩ => true
  | _ => false

def StoresNothing (o : Op V) : Prop := ∀ x, isStore (⟨o, x⟩ : Event (auth V)) = false

theorem Private.storesNothing {o : Op V} (h : Private o) : StoresNothing o := by
  cases o <;> first | exact fun _ => rfl | exact h.elim

theorem Reads.storesNothing {o : Op V} (h : Reads o) : StoresNothing o := by
  cases o <;> first | exact fun _ => rfl | exact h.elim

/-- Nothing is awaited once a snapshot is stored. -/
def AwaitsFirst (stored : Bool) (e : Event (auth V)) : Prop := Awaits e.op → stored = false

abbrev StoresLast (stored : Bool) (p : Io V α) (R : Except AuthenticationError α → Bool → Prop) : Prop :=
  Tracks (fun stored e => stored || isStore e) AwaitsFirst stored p R

theorem storesLast_bind {β : Type} {p : Io V α} {f : α → Io V β} {S : Except AuthenticationError β → Bool → Prop}
    (hp : Only StoresNothing p) (hf : ∀ a, StoresLast false (f a) S) (hfail : ∀ e, S (.error e) false) :
    StoresLast false (p >>= f) S := by
  refine .of_only_bind (P := fun stored => stored = false) hp rfl (fun stored e hstored he =>
    ⟨fun _ => hstored, ?_⟩) ?_ ?_
  · rw [hstored]
    exact he e.ans
  · rintro a _ rfl
    exact hf a
  · rintro e _ rfl
    exact hfail e

theorem checkContext_storesNothing : Only StoresNothing (checkContext context : Io V Unit) :=
  checkContext_private.mono fun _ => Private.storesNothing

theorem fetchSnapshot_storesNothing : Only StoresNothing (fetchSnapshot lib config context) := by
  refine .bind (.ask fun _ => rfl) fun _ => guarded_only ?_ fun _ => rfl
  refine .bind (getJwks_private.mono fun _ => Private.storesNothing) fun _ =>
    .bind checkContext_storesNothing fun _ => ?_
  refine .bind (parseJwks_private.mono fun _ => Private.storesNothing) fun _ =>
    .bind checkContext_storesNothing fun _ => ?_
  exact .bind (.ask fun _ => rfl) fun _ => .pure

/-- A program that fails has stored nothing. -/
abbrev FailsEmpty (r : Except AuthenticationError α) (stored : Bool) : Prop := ∀ e, r = .error e → stored = false

theorem installSnapshot_storesLast {snapshot : Snapshot V} :
    StoresLast false (installSnapshot context snapshot) FailsEmpty := by
  refine storesLast_bind checkContext_storesNothing (fun _ => ?_) fun _ _ _ => rfl
  refine .ask_bind (fun _ _ => rfl) fun answer => ?_
  cases answer with
  | none => exact .fail fun _ _ => rfl
  | some cache =>
      refine tracks_guarded (storesLast_bind checkContext_storesNothing (fun _ => ?_) fun _ _ =>
        ⟨nofun, fun _ _ => rfl⟩)
      exact .ask (fun _ => nofun) fun _ _ => ⟨nofun, nofun⟩

theorem refresh_storesLast : StoresLast false (refresh lib config context g) FailsEmpty := by
  refine storesLast_bind checkContext_storesNothing (fun _ => ?_) fun _ _ _ => rfl
  refine .ask_bind (fun _ _ => rfl) fun answer => ?_
  cases answer with
  | false => exact .fail fun _ _ => rfl
  | true =>
      refine tracks_guarded (storesLast_bind checkContext_storesNothing (fun _ => ?_) fun _ _ =>
        ⟨nofun, fun _ _ => rfl⟩)
      refine storesLast_bind (newerGeneration_reads.mono fun _ => Reads.storesNothing) (fun newer => ?_)
        fun _ _ => ⟨nofun, fun _ _ => rfl⟩
      refine .ite (.pure fun _ => ⟨nofun, nofun⟩) ?_
      refine storesLast_bind (.attempt fetchSnapshot_storesNothing) (fun r => ?_) fun _ _ => ⟨nofun, fun _ _ => rfl⟩
      split
      · exact installSnapshot_storesLast.mono fun r stored h _ => ⟨nofun, fun e he => by rw [h e he]; rfl⟩
      · exact .fail fun _ => ⟨nofun, fun _ _ => rfl⟩
      · exact .fail fun _ => ⟨nofun, fun _ _ => rfl⟩

/-- The operations of a refresh that failed, was cancelled, or is dropped where it awaits. -/
def Unsuccessful (lib : Libraries K V) (config : Config) (context : SynchronizationContext) (g : UInt64) (t : Trace V) :
    Prop :=
  (∃ e, Run (refresh lib config context g) t (.error e)) ∨ ∃ o, Asks (refresh lib config context g) t o ∧ Awaits o

theorem foldl_isStore {stored : Bool} (h : t.foldl (fun stored e => stored || isStore e) stored = false) :
    stored = false ∧ ∀ e ∈ t, isStore e = false := by
  induction t generalizing stored with
  | nil => exact ⟨h, nofun⟩
  | cons e t ih =>
      obtain ⟨hor, ht⟩ := ih h
      obtain ⟨hstored, he⟩ := Bool.or_eq_false_iff.mp hor
      exact ⟨hstored, List.forall_mem_cons.mpr ⟨he, ht⟩⟩

theorem stores_nothing_of_unsuccessful (h : Unsuccessful lib config context g t) : ∀ e ∈ t, isStore e = false := by
  rcases h with ⟨e, hr⟩ | ⟨o, hasks, hawaits⟩
  · exact (foldl_isStore ((refresh_storesLast t _ hr).2 e rfl)).2
  · exact (foldl_isStore ((refresh_storesLast.of_asks nonempty_ans hasks (nonempty_ans o).some).2 hawaits)).2

/-! ## What a call stores it has fetched -/

/-- A snapshot that is stored was fetched by the call, but for its generation. -/
def StoresFetched (lib : Libraries K V) (config : Config) (context : SynchronizationContext) (h : Trace V)
    (e : Event (auth V)) : Prop :=
  ∀ snapshot, e = ⟨.store snapshot, ()⟩ → ∃ fetched generation, Occurs (fetchSnapshot lib config context) fetched h ∧
    snapshot = { fetched with generation := generation }

/-- What is kept of the operations is all of them. -/
abbrev Fetches (lib : Libraries K V) (config : Config) (context : SynchronizationContext) (h : Trace V) (p : Io V α) :
    Prop :=
  Tracks (fun h e => h ++ [e]) (StoresFetched lib config context) h p fun _ _ => True

theorem foldl_history (h t : Trace V) : t.foldl (fun h e => h ++ [e]) h = h ++ t := by
  induction t generalizing h with
  | nil => simp
  | cons e t ih => simp [ih]

theorem storesFetched_of_storesNothing {h : Trace V} (he : StoresNothing e.op) :
    StoresFetched lib config context h e := by
  rintro snapshot rfl
  exact absurd (he ()) (by simp [isStore])

theorem fetches_bind {β : Type} {h : Trace V} {p : Io V α} {f : α → Io V β} (hp : Only StoresNothing p)
    (hf : ∀ a t, Run p t (.ok a) → Fetches lib config context (h ++ t) (f a)) :
    Fetches lib config context h (p >>= f) := by
  refine .bind fun t r hr => ⟨along_of_forall fun _ e he => storesFetched_of_storesNothing (hp.of_run hr e he), ?_⟩
  rw [foldl_history]
  cases r with
  | ok a => exact hf a t hr
  | error _ => trivial

theorem fetches_guarded {h : Trace V} {o : Op V} {p : Io V α} (hp : Fetches lib config context h p)
    (ho : StoresNothing o) : Fetches lib config context h (guarded o p) :=
  tracks_guarded (hp.mono fun _ _ _ _ => ⟨storesFetched_of_storesNothing ho, trivial⟩)

theorem installSnapshot_fetches {h : Trace V} {fetched : Snapshot V}
    (hfetched : Occurs (fetchSnapshot lib config context) fetched h) :
    Fetches lib config context h (installSnapshot context fetched) := by
  refine fetches_bind checkContext_storesNothing fun _ t₁ _ => ?_
  refine .ask_bind (fun _ => storesFetched_of_storesNothing fun _ => rfl) fun answer => ?_
  cases answer with
  | none => exact .fail trivial
  | some cache =>
      refine fetches_guarded (fetches_bind checkContext_storesNothing fun _ t₂ _ => ?_) fun _ => rfl
      refine .ask (fun _ snapshot hs => ?_) fun _ => trivial
      cases hs
      exact ⟨fetched, _, ((hfetched.append _).append _).append _, rfl⟩

theorem refresh_fetches (h : Trace V) : Fetches lib config context h (refresh lib config context g) := by
  refine fetches_bind checkContext_storesNothing fun _ t₁ _ => ?_
  refine .ask_bind (fun _ => storesFetched_of_storesNothing fun _ => rfl) fun answer => ?_
  cases answer with
  | false => exact .fail trivial
  | true =>
      refine fetches_guarded (fetches_bind checkContext_storesNothing fun _ t₂ _ => ?_) fun _ => rfl
      refine fetches_bind (newerGeneration_reads.mono fun _ => Reads.storesNothing) fun newer t₃ _ => ?_
      refine .ite (.pure trivial) (fetches_bind (.attempt fetchSnapshot_storesNothing) fun r t₄ hr => ?_)
      obtain ⟨x, hrun, hx⟩ := run_attempt.mp hr
      cases hx
      split
      · exact installSnapshot_fetches (hrun.occurs _)
      · exact .fail trivial
      · exact .fail trivial

theorem program_fetches (call : Call) : Fetches lib config call.context [] (call.program lib config) := by
  have hrefreshing : Refreshing lib config call.context (fun h e => h ++ [e]) (StoresFetched lib config call.context)
      fun _ : Trace V => True :=
    ⟨fun _ _ he => storesFetched_of_storesNothing he.storesNothing, fun _ _ _ _ => trivial,
      fun _ h _ => refresh_fetches h⟩
  exact hrefreshing.program trivial

theorem drops_storesNothing (loc : Local V) : ∀ e ∈ loc.drops, StoresNothing e.op := by
  obtain ⟨stage, reading, ticked⟩ := loc
  cases reading <;> cases stage <;> simp [Local.drops, Stage.drops, StoresNothing, isStore]

/-- Whatever happens to a call, a snapshot that it stores is one that it fetched before. -/
theorem Follows.storesFetched {call : Call} (h : Follows (call.program lib config) t) {pre post : Trace V}
    (ht : t = pre ++ e :: post) : StoresFetched lib config call.context pre e := by
  have halong := h.tracks (program_fetches call) fun t => along_of_forall fun _ e he =>
    storesFetched_of_storesNothing (drops_storesNothing _ e he)
  rw [ht] at halong
  have hallowed := halong.allowed
  rwa [foldl_history] at hallowed

/-! ## Fetches -/

def isFetchStart : Event (auth V) → Bool
  | ⟨.fetchStarted, _⟩ => true
  | _ => false

/-- The last fetch that was started has not ended. -/
def FetchInProgress (t : Trace V) : Prop := ∃ t₁ t₂, t = t₁ ++ ⟨.fetchStarted, ()⟩ :: t₂ ∧ ⟨.fetchEnded, ()⟩ ∉ t₂

/-- A call that is fetching does nothing that others see before the fetch ends. -/
theorem stage_of_fetchInProgress (halong : Along Local.after Permitted .start t) (h : FetchInProgress t) :
    (localOf t).stage = .fetching := by
  obtain ⟨t₁, t₂, rfl, hend⟩ := h
  obtain ⟨_, _, halong₂⟩ := along_append.mp halong
  rw [localOf, List.foldl_append, List.foldl_cons]
  refine halong₂.invariant (P := fun loc : Local V => loc.stage = .fetching) rfl fun loc e he hstage hpermitted => ?_
  obtain ⟨o, x⟩ := e
  cases o with
  | readCache deadline => cases x <;> exact hstage
  | isCancelled | now | tick | unixSeconds | dropRead | request | frame => exact hstage
  | fetchEnded => exact absurd he hend
  | lockRefresh => exact absurd (hstage.symm.trans hpermitted) nofun
  | fetchStarted => exact absurd (hstage.symm.trans hpermitted) nofun
  | writeCache => exact absurd (hstage.symm.trans hpermitted) nofun
  | store snapshot =>
      obtain ⟨cache, hwriting, _⟩ := hpermitted
      exact absurd (hstage.symm.trans hwriting) nofun
  | dropWrite =>
      rcases hpermitted with ⟨cache, hwriting⟩ | hstored
      · exact absurd (hstage.symm.trans hwriting) nofun
      · exact absurd (hstage.symm.trans hstored) nofun
  | dropRefresh =>
      rcases hpermitted with hother | hother | hother <;> exact absurd (hstage.symm.trans hother) nofun

/-- A call that has left the stages before its fetch does not come back to them. -/
def Local.PastFetch (loc : Local V) : Prop := loc.stage ≠ .before ∧ loc.stage ≠ .locked

theorem pastFetch_after {loc : Local V} (h : loc.PastFetch) (hpermitted : Permitted loc e) :
    (loc.after e).PastFetch := by
  obtain ⟨o, x⟩ := e
  cases o with
  | lockRefresh => exact absurd hpermitted h.1
  | readCache deadline => cases x <;> exact h
  | writeCache deadline =>
      cases x with
      | none => exact h
      | some cache => exact ⟨nofun, nofun⟩
  | isCancelled | now | tick | unixSeconds | dropRead | request | frame => exact h
  | fetchStarted | fetchEnded | store | dropWrite | dropRefresh => exact ⟨nofun, nofun⟩

theorem fetchStarts_le_one (halong : Along Local.after Permitted .start t) : t.countP isFetchStart ≤ 1 := by
  refine (halong.count_le_one (P := Local.PastFetch) (fun _ _ => pastFetch_after) fun loc e he hpermitted => ?_).1
  obtain ⟨o, x⟩ := e
  cases o with
  | fetchStarted => exact ⟨fun hpast => hpast.2 hpermitted, nofun, nofun⟩
  | _ => cases he

/-! ## Installs -/

def isInstall : Act ι (auth V) → Bool
  | .own _ e => isStore e
  | .other => false

theorem toNat_nextGeneration : (nextGeneration g).toNat = min (g.toNat + 1) (u64Bound - 1) := by
  rw [nextGeneration, saturatingAdd, UInt64.toNat_ofNat']
  exact Nat.mod_eq_of_lt ((min_le_right _ _).trans_lt (by decide))

variable [DecidableEq ι] {s' m m' : Shared ι V} {clock : Instant} {acts before after : List (Act ι (auth V))}
  {snapshot : Snapshot V}

/-- What is installed follows what was in the cache. -/
theorem Execution.store_follows
    (h : Execution lib config calls (Shared.new clock) (before ++ .own k ⟨.store snapshot, ()⟩ :: after) s')
    (hm : Path step (Shared.new clock) before m) : snapshot.generation = nextGeneration (generationOf m.cache) ∧
      ∀ old, m.cache = some old → old.acquired ≤ snapshot.acquired := by
  have hcoherent := h.coherent hm
  have halong := h.along k
  rw [eventsOf_append, eventsOf_own] at halong
  obtain ⟨cache, hstage, hgeneration, hticked⟩ := halong.allowed
  have hholds : (localOf (eventsOf k before)).stage.holdsRefresh = true := by
    rw [localOf, hstage]
    rfl
  rw [hcoherent.writing k cache hstage] at hgeneration
  exact ⟨hgeneration, (hcoherent.ticked k _ hholds hticked).2⟩

theorem cache_of_not_install {act : Act ι (auth V)} (h : step m act m') (hno : isInstall act = false) :
    m'.cache = m.cache := by
  refine cache_of_step h ?_
  rintro snapshot ⟨k, rfl⟩
  cases hno

/-- There are at least as many installs as the generation says. -/
theorem Execution.generation_le (h : Execution lib config calls (Shared.new clock) (before ++ after) s')
    (hm : Path step (Shared.new clock) before m) : (generationOf m.cache).toNat ≤ before.countP isInstall := by
  induction before using List.reverseRecOn generalizing after m with
  | nil =>
      rw [path_nil.mp hm]
      exact Nat.zero_le _
  | append_singleton before act ih =>
      obtain ⟨m₁, hm₁, hlast⟩ := path_append.mp hm
      obtain ⟨_, hact, hend⟩ := path_cons.mp hlast
      cases path_nil.mp hend
      rw [List.append_assoc] at h
      have hle := ih h hm₁
      rw [List.countP_append, List.countP_singleton]
      cases hinstall : isInstall act with
      | false =>
          rw [cache_of_not_install hact hinstall]
          simpa using hle
      | true =>
          match act, hinstall with
          | .own k ⟨.store snapshot, ()⟩, _ =>
              cases hact
              have hgeneration := (h.store_follows hm₁).1
              have hcache : generationOf (m₁.perform k ⟨.store snapshot, ()⟩).cache = snapshot.generation := rfl
              rw [hcache, hgeneration, toNat_nextGeneration, if_pos rfl]
              omega

/-- What is installed is what the call itself has fetched, with the next generation. -/
theorem Execution.store_fetched
    (h : Execution lib config calls (Shared.new clock) (before ++ .own k ⟨.store snapshot, ()⟩ :: after) s')
    (hm : Path step (Shared.new clock) before m) :
    ∃ fetched, Occurs (fetchSnapshot lib config (calls k).context) fetched (eventsOf k before) ∧
      snapshot = { fetched with generation := nextGeneration (generationOf m.cache) } := by
  have hevents : eventsOf k (before ++ .own k ⟨.store snapshot, ()⟩ :: after) =
      eventsOf k before ++ ⟨.store snapshot, ()⟩ :: eventsOf k after := by
    rw [eventsOf_append, eventsOf_own]
  obtain ⟨fetched, generation, hoccurs, rfl⟩ := (h.follows k).storesFetched hevents snapshot rfl
  have hgeneration := (h.store_follows hm).1
  exact ⟨fetched, hoccurs, by rw [← hgeneration]⟩

/-- Each install replaces the snapshot as a whole by the one that the call itself has fetched, with the next generation,
and nothing else changes it. At most one fetch is in progress, an unsuccessful refresh leaves the snapshot as it is, and
no call fetches twice. -/
theorem installs_serialized (h : Execution lib config calls (Shared.new clock) acts s')
    (hfew : acts.countP isInstall < u64Bound - 1) :
    (∀ before k snapshot after m m', acts = before ++ .own k ⟨.store snapshot, ()⟩ :: after →
      Path step (Shared.new clock) before m → step m (.own k ⟨.store snapshot, ()⟩) m' →
      (∃ fetched, Occurs (fetchSnapshot lib config (calls k).context) fetched (eventsOf k before) ∧
        snapshot = { fetched with generation := nextGeneration (generationOf m.cache) }) ∧
      m'.cache = some snapshot ∧ snapshot.generation.toNat = (generationOf m.cache).toNat + 1 ∧
      ∀ old, m.cache = some old → old.acquired ≤ snapshot.acquired) ∧
    (∀ (m : Shared ι V) act m', step m act m' → isInstall act = false → m'.cache = m.cache) ∧
    (∀ before after j k, acts = before ++ after → FetchInProgress (eventsOf j before) →
      FetchInProgress (eventsOf k before) → j = k) ∧
    (∀ context g t, Unsuccessful lib config context g t → ∀ e ∈ t, ∀ (m : Shared ι V) k m', step m (.own k e) m' →
      m'.cache = m.cache) ∧
    ∀ k, (eventsOf k acts).countP isFetchStart ≤ 1 := by
  refine ⟨?_, fun _ _ _ => cache_of_not_install, ?_, ?_, fun k => fetchStarts_le_one (h.along k)⟩
  · rintro before k snapshot after m m' rfl hm hstep
    obtain ⟨hgeneration, hacquired⟩ := h.store_follows hm
    refine ⟨h.store_fetched hm, by cases hstep; rfl, ?_, hacquired⟩
    have hle := h.generation_le hm
    rw [List.countP_append, List.countP_cons_of_pos (by rfl)] at hfew
    rw [hgeneration, toNat_nextGeneration]
    omega
  · rintro before after j k rfl hj hk
    obtain ⟨m, hm, _⟩ := path_append.mp h.path
    have hholds (i : ι) (hi : FetchInProgress (eventsOf i before)) :
        (localOf (eventsOf i before)).stage.holdsRefresh = true := by
      rw [stage_of_fetchInProgress (h.along_before i) hi]
      rfl
    exact (h.exclusive rfl hm).eq_of_holds (hholds j hj) (hholds k hk)
  · intro context g t hunsuccessful e he m k m' hstep
    exact cache_of_not_install hstep (stores_nothing_of_unsuccessful hunsuccessful e he)

/-- Of the three calls of the replacement two install what they have fetched, and none fetches twice. -/
theorem replacement_fetches : replacementActs.countP isInstall = 2 ∧
    (∀ act ∈ replacementActs, isInstall act = true → ∃ k snapshot fetched before after generation,
      act = .own k ⟨.store snapshot, ()⟩ ∧ replacementActs = before ++ act :: after ∧
      Occurs (fetchSnapshot keylessLibraries sampleConfig (replacementCalls k).context) fetched (eventsOf k before) ∧
      snapshot = { fetched with generation := nextGeneration generation }) ∧
    ∀ k, (eventsOf k replacementActs).countP isFetchStart ≤ 1 := by
  obtain ⟨s', hexec⟩ := replacement_execution
  have hcount : replacementActs.countP isInstall = 2 := by decide +kernel
  obtain ⟨hinstalls, _, _, _, hstarts⟩ := installs_serialized hexec (hcount ▸ by decide)
  refine ⟨hcount, fun act hact hinstall => ?_, hstarts⟩
  obtain ⟨before, after, hacts⟩ := List.append_of_mem hact
  have hpath := hexec.path
  rw [hacts] at hpath
  obtain ⟨m, hm, hrest⟩ := path_append.mp hpath
  obtain ⟨m', hstep, _⟩ := path_cons.mp hrest
  cases act with
  | other => cases hinstall
  | own k e =>
      obtain ⟨o, x⟩ := e
      cases o with
      | store snapshot =>
          obtain ⟨⟨fetched, hoccurs, hsnapshot⟩, _⟩ := hinstalls before k snapshot after m m' hacts hm hstep
          exact ⟨k, snapshot, fetched, before, after, _, rfl, hacts, hoccurs, hsnapshot⟩
      | _ => cases hinstall

end PermissionSync.Authenticator
