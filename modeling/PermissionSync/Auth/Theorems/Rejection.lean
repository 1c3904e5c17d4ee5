import PermissionSync.Auth.Theorems.Acceptance
import PermissionSync.Auth.Theorems.Scope

/-!
# Rejection

A token that passes the preflight is rejected only on what a verification found in a usable snapshot: invalid claims, an
invalid signature, or no key in a snapshot that was installed after the call had classified the cache.
-/

namespace PermissionSync.Authenticator

open PermissionSync.Auth PermissionSync.Base PermissionSync.Core PermissionSync.Wire
open PermissionSync.Runtime (Duration JwtAlgorithm VerificationCachePolicy)

variable {ι K V : Type} [DecidableEq ι] {lib : Libraries K V} {config : Config} {token : String}
  {algorithm : JwtAlgorithm} {context : SynchronizationContext} {g : UInt64} {c : CacheClassification} {t : Trace V}

/-! ## The verification that rejects -/

/-- Why no candidate is conclusive in a verification of the category after the operations. -/
def Superseding (lib : Libraries K V) (config : Config) (token : String) (algorithm : JwtAlgorithm)
    (context : SynchronizationContext) (g : UInt64) (c c' : CacheClassification) (u : Trace V) : Prop :=
  (∃ u₁ u₂, u = u₁ ++ u₂ ∧ Run (refresh lib config context g) u₂ (.ok ())) ∨
    (c' = .fresh ∧ StaleBefore lib config token algorithm context c u)

theorem Rejection.verification (h : Rejection lib config token algorithm context g c t) :
    ∃ u w u' c' verification, t = u ++ w ++ u' ∧ c' ≠ .coldOrExpired ∧
      Run (verifyCurrent lib config token algorithm context) w (.ok (c'.verification (some verification))) ∧
      (verification = .rejected ∨ verification = .signatureInvalid ∨
        (verification = .noCandidate ∧ Superseding lib config token algorithm context g c c' u)) := by
  cases h with
  | @invalid u w u' c' verification hc' hverify hinvalid =>
      exact ⟨u, w, u', c', verification, rfl, hc', hverify, hinvalid.imp_right Or.inl⟩
  | @refreshed u u' w c' hc' hrefresh hverify =>
      exact ⟨u ++ u', w, [], c', .noCandidate, by simp, hc', hverify,
        Or.inr (Or.inr ⟨rfl, Or.inl ⟨u, u', rfl, hrefresh⟩⟩)⟩
  | @replaced u w hstale hverify =>
      exact ⟨u, w, [], .fresh, .noCandidate, by simp, nofun, hverify, Or.inr (Or.inr ⟨rfl, Or.inr ⟨rfl, hstale⟩⟩)⟩

/-! ## Installations since the classification -/

section

variable {s m : Shared ι V} {k : ι} {acts : List (Act ι (auth V))} {u : Trace V} {snapshot : Snapshot V}

/-- A refresh that succeeded after the classification installed a snapshot or saw an installed one. -/
theorem exists_installs_of_refresh (hpath : Path step s acts m) (hg : g = generationOf s.cache)
    (hrefresh : Run (refresh lib config context g) u (.ok ())) (hsub : u ⊆ eventsOf k acts) :
    ∃ act ∈ acts, ∃ snapshot, Installs act snapshot := by
  by_contra hnone
  have hno : ∀ act ∈ acts, ∀ snapshot, ¬ Installs act snapshot := fun act hact snapshot hinstalls =>
    hnone ⟨act, hact, snapshot, hinstalls⟩
  obtain ⟨pre, inner, _, rfl, hrun⟩ := (run_refresh hrefresh).resolve_left fun hne => nomatch hne.1
  cases hrun with
  | @reused _ cache n hconsults hnewer =>
      obtain ⟨before, front, polls, _, _, rfl, pre', _, rfl⟩ := hconsults
      have hmem : (⟨.readCache context.deadline, some cache⟩ : Event (auth V)) ∈ eventsOf k acts := hsub (by simp)
      have hread := read_eq_cache hpath hno hmem
      obtain ⟨snapshot, hsnapshot, hother⟩ := (Option.any_eq_true _ _).mp hnewer
      rw [hg, ← hread, hsnapshot] at hother
      simp [generationOf] at hother
  | @installed _ _ _ _ _ _ _ snapshot =>
      have hmem : (⟨.store snapshot, ()⟩ : Event (auth V)) ∈ eventsOf k acts := hsub (by simp)
      exact hno _ (mem_eventsOf.mp hmem) snapshot ⟨k, rfl⟩

/-- The snapshot in the cache was found stale, in the classification or in a verification since then. -/
theorem stale_of_staleBefore (hpath : Path step s acts m) (hno : ∀ act ∈ acts, ∀ snapshot, ¬ Installs act snapshot)
    (hsnapshot : s.cache = some snapshot)
    (hclass : c = .stale → ∃ n, ⟨.tick, n⟩ ∈ eventsOf k acts ∧ classifyAge config.cachePolicy (snapshot.age n) = .stale)
    (hstale : StaleBefore lib config token algorithm context c u) (hsub : u ⊆ eventsOf k acts) :
    ∃ n, ⟨.tick, n⟩ ∈ eventsOf k acts ∧ classifyAge config.cachePolicy (snapshot.age n) = .stale := by
  rcases hstale with hc | ⟨w, u', verification, rfl, hverify⟩
  · exact hclass hc
  · have hclass : CacheClassification.stale ≠ .coldOrExpired := nofun
    obtain ⟨pre, found, body, n, _, rfl, hverified⟩ := run_verified hclass hverify
    have hmem : (⟨.readCache context.deadline, some (some found)⟩ : Event (auth V)) ∈ eventsOf k acts := hsub (by simp)
    have hfound := read_eq_cache hpath hno hmem
    cases hfound.trans hsnapshot
    refine ⟨n, hsub ?_, hverified.age⟩
    have htick := hverified.tick
    simp [htick]

/-- What supersedes the snapshot of the classification was installed since. -/
theorem exists_installs_of_superseding {c' : CacheClassification} {n : Instant} (hpath : Path step s acts m)
    (hg : g = generationOf s.cache) (hcache : m.cache = some snapshot)
    (hclass : s.cache = some snapshot → c = .stale →
      ∃ n, ⟨.tick, n⟩ ∈ eventsOf k acts ∧ classifyAge config.cachePolicy (snapshot.age n) = .stale)
    (hage : classifyAge config.cachePolicy (snapshot.age n) = c') (hn : m.clock ≤ n)
    (h : Superseding lib config token algorithm context g c c' u) (hsub : u ⊆ eventsOf k acts) :
    ∃ act ∈ acts, Installs act snapshot := by
  rcases cache_cases hpath with ⟨hno, hsame⟩ | ⟨act, hact, found, hinstalls, hfound⟩
  · rcases h with ⟨u₁, u₂, rfl, hrefresh⟩ | ⟨rfl, hstale⟩
    · obtain ⟨act, hact, found, hinstalls⟩ := exists_installs_of_refresh hpath hg hrefresh
        fun _ he => hsub (List.mem_append_right u₁ he)
      exact absurd hinstalls (hno act hact found)
    · have hsnapshot := hsame.symm.trans hcache
      obtain ⟨n', htick, hstale⟩ := stale_of_staleBefore hpath hno hsnapshot (hclass hsnapshot) hstale hsub
      exact absurd hage (not_fresh_of_stale ((tick_bounds hpath htick).2.trans hn) hstale)
  · cases hfound.symm.trans hcache
    exact ⟨act, hact, hinstalls⟩

end

/-! ## Grounds -/

/-- The claims of an accepted payload are invalid, or its scope is not a list of tokens. -/
def ClaimsInvalid (lib : Libraries K V) (config : Config) (payload : List UInt8) (t : Trace V) : Prop :=
  claimsOf lib payload = none ∨ ∃ claims, claimsOf lib payload = some claims ∧
    ((∀ now, ¬ ClaimsValid lib config claims now) ∨
      (∃ now, ⟨.unixSeconds, some now⟩ ∈ t ∧ ¬ ClaimsValid lib config claims now) ∨
      ScopeMalformed (member claims "scope"))

theorem ClaimsRejected.invalid {payload : List UInt8} (h : ClaimsRejected lib config payload t) :
    ClaimsInvalid lib config payload t := by
  rcases h with hnone | ⟨claims, hclaims, hinvalid | hinvalid | hscope⟩
  · exact Or.inl hnone
  · exact Or.inr ⟨claims, hclaims, Or.inl hinvalid⟩
  · exact Or.inr ⟨claims, hclaims, Or.inr (Or.inl hinvalid)⟩
  · exact Or.inr ⟨claims, hclaims, Or.inr (Or.inr ((decides_scopeSelection _).rejected.mp hscope))⟩

/-- What a read of the snapshot found against the token. -/
inductive Ground (lib : Libraries K V) (config : Config) (token : String)
    (algorithm : JwtAlgorithm) (header : JwsHeader) (snapshot : Snapshot V) (installed : Prop) (t : Trace V) :
    Prop where
  | claims {candidate : Candidate V} {payload : List UInt8} : candidate ∈ snapshot.candidates →
      CandidateMatches algorithm header candidate → lib.verify (candidate.verifier header) token = some payload →
      ClaimsInvalid lib config payload t → Ground lib config token algorithm header snapshot installed t
  | signature : (∃ candidate ∈ snapshot.candidates, CandidateMatches algorithm header candidate) →
      (∀ candidate ∈ snapshot.candidates, CandidateMatches algorithm header candidate →
        lib.verify (candidate.verifier header) token = none) →
      Ground lib config token algorithm header snapshot installed t
  | unknown : (∀ candidate ∈ snapshot.candidates, ¬ CandidateMatches algorithm header candidate) → installed →
      Ground lib config token algorithm header snapshot installed t

theorem Verdict.ground {header : JwsHeader} {snapshot : Snapshot V} {installed : Prop} {verification : Verification}
    (hpreflight : preflightHeader lib token config.algorithms = .ok algorithm)
    (hheader : lib.header token = some header)
    (h : Verdict lib config token algorithm snapshot.candidates t verification)
    (hrejects : verification = .rejected ∨ verification = .signatureInvalid ∨
      (verification = .noCandidate ∧ installed)) :
    Ground lib config token algorithm header snapshot installed t := by
  rcases hrejects with rfl | rfl | ⟨rfl, hinstalled⟩
  · rcases h with hprohibited | ⟨candidate, hmem, payload, haccepted, hclaims⟩
    · obtain ⟨header', hheader', hallowed, _⟩ := preflightHeader_ok hpreflight
      rw [hheader', Option.any_some, hallowed] at hprohibited
      cases hprohibited
    · obtain ⟨hmatches, haccepts⟩ := (acceptedBy_eq_some hpreflight hheader).mp haccepted
      exact .claims hmem hmatches haccepts hclaims.invalid
  · obtain ⟨⟨candidate, hmem, hselected⟩, hnone⟩ := h
    obtain ⟨verifier, hverifier⟩ := Option.isSome_iff_exists.mp hselected
    refine .signature ⟨candidate, hmem, ((selection_eq_some hpreflight hheader).mp hverifier).1⟩ ?_
    intro other hother hmatches
    by_contra haccepts
    obtain ⟨payload, haccepts⟩ := Option.ne_none_iff_exists'.mp haccepts
    cases (hnone other hother).symm.trans ((acceptedBy_eq_some hpreflight hheader).mpr ⟨hmatches, haccepts⟩)
  · refine .unknown (fun candidate hmem hmatches => ?_) hinstalled
    cases (h candidate hmem).symm.trans ((selection_eq_some hpreflight hheader).mpr ⟨hmatches, rfl⟩)

/-- A guarded read that shows the cache. -/
abbrev shown (context : SynchronizationContext) (cache : Option (Snapshot V)) : Event (auth V) :=
  ⟨.readCache context.deadline, some cache⟩

/-- Two reads of a call: that of its classification of the cache, which the operations follow, and that of a
verification among these. -/
structure Readings (lib : Libraries K V) (config : Config) (token : String) (algorithm : JwtAlgorithm)
    (request : AuthenticationRequest) (k : ι) (acts before middle rest : List (Act ι (auth V)))
    (cache : Option (Snapshot V)) (snapshot : Snapshot V) (g : UInt64) (c : CacheClassification) (t : Trace V) :
    Prop where
  acts : acts = before ++ .own k (shown request.context cache) ::
    (middle ++ .own k (shown request.context (some snapshot)) :: rest)
  classifies : ∃ t₀ polls body, eventsOf k before = t₀ ++ polls ∧
    Run (preflight lib config request) t₀ (.ok (token, algorithm)) ∧
    Run (classifyCache config request.context) (polls ++ shown request.context cache :: body) (.ok (g, c)) ∧
    eventsOf k middle ++ shown request.context (some snapshot) :: eventsOf k rest = body ++ t
  verifies : ∃ u polls body u' v, t = u ++ (polls ++ shown request.context (some snapshot) :: body) ++ u' ∧
    eventsOf k rest = body ++ u' ∧ Run (verifyCurrent lib config token algorithm request.context)
      (polls ++ shown request.context (some snapshot) :: body) (.ok v)

theorem usable_age {policy : VerificationCachePolicy} {snapshot : Snapshot V} {n : Instant}
    (h : classifyAge policy (snapshot.age n) ≠ .coldOrExpired) :
    ∃ age, snapshot.age n = some age ∧ age ≤ policy.freshness + policy.staleIfError := by
  cases hclass : classifyAge policy (snapshot.age n) with
  | fresh =>
      obtain ⟨age, hage, hle⟩ := classifyAge_fresh hclass
      exact ⟨age, hage, Nat.le_add_right_of_le hle⟩
  | stale =>
      obtain ⟨age, hage, _, hle⟩ := classifyAge_stale hclass
      exact ⟨age, hage, hle⟩
  | coldOrExpired => exact absurd hclass h

/-- A rejected token whose header passed the preflight was rejected against a snapshot installed when the call read it,
of an age the cache policy allows, and for a ground found in that snapshot. A cold call has refreshed before. -/
theorem rejected_on_read {calls : ι → Call} {s s' : Shared ι V} {acts : List (Act ι (auth V))} {k : ι}
    {request : AuthenticationRequest} {header : JwsHeader} (hexec : Execution lib config calls s acts s')
    (hreturned : Returned lib config (calls k) request (eventsOf k acts) (.error .rejected))
    (htoken : request.rawCompactToken = some token) (hsize : byteLength token ≤ maxTokenBytes)
    (hpreflight : preflightHeader lib token config.algorithms = .ok algorithm)
    (hheader : lib.header token = some header) :
    ∃ before middle rest cache snapshot g c t m n,
      Readings lib config token algorithm request k acts before middle rest cache snapshot g c t ∧
      Path step s (before ++ .own k (shown request.context cache) :: middle) m ∧ m.cache = some snapshot ∧
      ⟨.tick, n⟩ ∈ eventsOf k rest ∧
      (∃ age, snapshot.age n = some age ∧ age ≤ config.cachePolicy.freshness + config.cachePolicy.staleIfError) ∧
      Ground lib config token algorithm header snapshot (∃ act ∈ middle, Installs act snapshot) (eventsOf k rest) ∧
      (ColdBefore lib config token algorithm request.context c t →
        Occurs (refresh lib config request.context g) () t) := by
  rcases run_authenticate hreturned.run with
    hr | ⟨_, hinvalid⟩ | ⟨token', algorithm', t₀, t₁, t₂, g, c, htoken', hpreflight', htrace, hfirst, hclassify, hafter⟩
  · cases hr
  · exact absurd ⟨token, algorithm, htoken, hsize, hpreflight⟩ hinvalid
  cases htoken.symm.trans htoken'
  cases hpreflight.symm.trans hpreflight'
  obtain ⟨cache, polls, ⟨front, _, rfl⟩, hguarded⟩ := run_classifyCache hclassify
  obtain ⟨hg, hclass⟩ := run_classifyGuarded hguarded
  obtain ⟨u, w, u', c', verification, rfl, hc', hverify, hrejects⟩ := (rejection_of_run hafter).verification
  obtain ⟨pre, snapshot, body, n, _, rfl, hverified⟩ := run_verified hc' hverify
  have hevents : eventsOf k acts = (t₀ ++ front) ++ shown request.context cache ::
      ((polls ++ [⟨.dropRead, ()⟩] ++ u ++ pre) ++ shown request.context (some snapshot) ::
        (body ++ [⟨.dropRead, ()⟩] ++ u')) := by
    rw [htrace]
    simp [shown]
  obtain ⟨before, middle, rest, m₁, m₂, hacts, hbefore, hmiddle, hrest, hpath, hobserves₁,
    hpath₂, hobserves₂, hpath₃⟩ :=
    exists_states_of_eventsOf hexec.path hevents
  have hinstalled : verification = .noCandidate ∧ Superseding lib config token algorithm request.context g c c' u →
      verification = .noCandidate ∧ ∃ act ∈ middle, Installs act snapshot := by
    rintro ⟨hnone, hsuperseding⟩
    refine ⟨hnone, exists_installs_of_superseding (k := k) hpath₂ (hg.trans ?_) hobserves₂.2.symm ?_ hverified.age ?_
      hsuperseding ?_⟩
    · rw [hobserves₁.2]
      rfl
    · rintro hsame rfl
      rcases hclass with ⟨_, hcold⟩ | ⟨found, n', hfound, htick, hstale⟩
      · cases hcold
      · cases hfound.symm.trans (hobserves₁.2.trans hsame)
        refine ⟨n', ?_, hstale.symm⟩
        rw [hmiddle]
        simp [htick]
    · have hle := (tick_bounds (k := k) (n := n) hpath₃ (by rw [hrest]; simp [hverified.tick])).1
      rwa [clock_perform] at hle
    · rw [hmiddle]
      intro e he
      simp [he]
  refine ⟨before, middle, rest, cache, snapshot, g, c, _, m₂, n, ⟨hacts, ⟨t₀, front, _, hbefore, hfirst, hclassify, ?_⟩,
    ⟨u, pre, _, u', _, rfl, hrest, hverify⟩⟩, hpath, hobserves₂.2.symm, ?_, usable_age (hverified.age ▸ hc'),
    ?_, refreshed_of_cold hafter⟩
  · rw [hmiddle, hrest]
    simp
  · rw [hrest]
    simp [hverified.tick]
  · have hverdict : Verdict lib config token algorithm snapshot.candidates (eventsOf k rest) verification :=
      hverified.verdict.mono (by rw [hrest]; simp)
    exact hverdict.ground hpreflight hheader (hrejects.imp_right (Or.imp_right hinstalled))

/-! ## A replacement during a failed refresh -/

/-- Libraries that read every document as a key set without keys. -/
def keylessLibraries : Libraries Unit Unit :=
  { sampleLibraries with readJson := fun _ => some (.obj [("keys", .arr [])]) }

/-- The snapshot of a key set without keys. -/
def keylessSnapshot (n : Instant) (generation : UInt64) : Snapshot Unit := ⟨[], n, generation⟩

/-- A refresh that replaces what is in the cache with a key set without keys. -/
def sampleRefresh (n : Instant) (cache : Option (Snapshot Unit)) (generation : UInt64) : Trace Unit :=
  samplePoll n ++ ⟨.lockRefresh 100, true⟩ :: samplePoll n ++ samplePoll n ++ ⟨.readCache 100, some cache⟩ ::
    samplePoll n ++ [⟨.tick, n⟩, ⟨.dropRead, ()⟩] ++ ⟨.fetchStarted, ()⟩ :: samplePoll n ++ samplePoll n ++ ⟨.now, n⟩ ::
    ⟨.request ⟨"https://issuer/keys", some "https", some "issuer", some "issuer"⟩ (n + 10),
      some (some ⟨200, none, none, []⟩)⟩ :: samplePoll n ++ ⟨.frame (n + 10), true⟩ :: samplePoll n ++ samplePoll n ++
    samplePoll n ++ samplePoll n ++ samplePoll n ++ [⟨.tick, n⟩, ⟨.fetchEnded, ()⟩] ++ samplePoll n ++
    ⟨.writeCache 100, some cache⟩ :: samplePoll n ++
    [⟨.store (keylessSnapshot n generation), ()⟩, ⟨.dropWrite, ()⟩, ⟨.dropRefresh, ()⟩]

/-- The first call finds the cache empty and refreshes it. -/
def initialTrace : Trace Unit :=
  samplePoll 0 ++ ⟨.readCache 100, some none⟩ :: samplePoll 0 ++ ⟨.dropRead, ()⟩ :: sampleRefresh 0 none 1 ++
    sampleClassify 0 (keylessSnapshot 0 1)

/-- The beginning of the call whose own refresh fails. -/
def failingTrace : Trace Unit :=
  samplePoll 4 ++ samplePoll 4 ++ samplePoll 4 ++ sampleClassify 4 (keylessSnapshot 0 1) ++
    sampleFailedRefresh 4 (keylessSnapshot 0 1)

/-- The call that replaces the snapshot meanwhile. -/
def replacingTrace : Trace Unit :=
  samplePoll 4 ++ samplePoll 4 ++ samplePoll 4 ++ sampleClassify 4 (keylessSnapshot 0 1) ++
    sampleRefresh 4 (some (keylessSnapshot 0 1)) 2 ++ sampleClassify 4 (keylessSnapshot 4 2)

def replacementCalls : Fin 3 → Call
  | 0 => .ensureTrustedVerifierState sampleContext
  | 1 => .authenticate sampleRequest
  | 2 => .authenticate sampleRequest

def replacementActs : List (Act (Fin 3) (auth Unit)) :=
  initialTrace.map (.own 0) ++ List.replicate 4 .other ++ failingTrace.map (.own 1) ++ replacingTrace.map (.own 2) ++
    (sampleClassify 4 (keylessSnapshot 4 2)).map (.own 1)

theorem initial_run :
    Run (ensureTrustedVerifierState keylessLibraries sampleConfig sampleContext) initialTrace (.ok .usable) :=
  run_of_follow (by decide +kernel)

theorem rejected_run : Run (authenticate keylessLibraries sampleConfig sampleRequest)
    (failingTrace ++ sampleClassify 4 (keylessSnapshot 4 2)) (.error .rejected) :=
  run_of_follow (by decide +kernel)

theorem replacing_run :
    Run (authenticate keylessLibraries sampleConfig sampleRequest) replacingTrace (.error .rejected) :=
  run_of_follow (by decide +kernel)

theorem eventsOf_replacementActs : eventsOf 0 replacementActs = initialTrace ∧
    eventsOf 1 replacementActs = failingTrace ++ sampleClassify 4 (keylessSnapshot 4 2) ∧
    eventsOf 2 replacementActs = replacingTrace := ⟨rfl, rfl, rfl⟩

theorem replacement_execution :
    ∃ s', Execution keylessLibraries sampleConfig replacementCalls (.new 0) replacementActs s' := by
  have hnext : (replacementActs.foldlM Shared.next (.new 0)).isSome = true := by decide +kernel
  obtain ⟨s', hs'⟩ := Option.isSome_iff_exists.mp hnext
  obtain ⟨h₀, h₁, h₂⟩ := eventsOf_replacementActs
  refine ⟨s', path_of_foldlM (fun _ _ _ => step_of_next) hs', fun k => ?_⟩
  match k with
  | 0 =>
      rw [h₀]
      exact .ended (initial_run.bind (run_pure.mpr ⟨rfl, rfl⟩))
  | 1 =>
      rw [h₁]
      exact .ended (run_bind.mpr (Or.inl ⟨_, rejected_run, rfl⟩))
  | 2 =>
      rw [h₂]
      exact .ended (run_bind.mpr (Or.inl ⟨_, replacing_run, rfl⟩))

theorem replacement_returned :
    Returned keylessLibraries sampleConfig (replacementCalls 1) sampleRequest
      (eventsOf 1 replacementActs) (.error .rejected) :=
  ⟨rfl, eventsOf_replacementActs.2.1 ▸ rejected_run⟩

theorem sample_preflight : preflightHeader keylessLibraries "token" sampleConfig.algorithms = .ok .rs256 := by
  decide +kernel

/-- A failed refresh does not keep an unknown key from being rejected: another call may have installed keys since. -/
theorem unknown_key_rejected_after_failed_refresh :
    ¬ ∀ (calls : Fin 3 → Call) (s' : Shared (Fin 3) Unit) (acts before after : List (Act (Fin 3) (auth Unit)))
      (k : Fin 3) (request : AuthenticationRequest) (token : String) (algorithm : JwtAlgorithm) (header : JwsHeader)
      (snapshot : Snapshot Unit) (g : UInt64) (e : AuthenticationError),
      Execution keylessLibraries sampleConfig calls (.new 0) acts s' → request.rawCompactToken = some token →
      byteLength token ≤ maxTokenBytes →
        preflightHeader keylessLibraries token sampleConfig.algorithms = .ok algorithm →
      keylessLibraries.header token = some header →
      -- the last verification finds no key, and the refresh of the call has failed before
      LastRead keylessLibraries sampleConfig token algorithm request.context k acts before after snapshot →
      (∀ candidate ∈ snapshot.candidates, ¬ CandidateMatches algorithm header candidate) →
      Occurs ((refresh keylessLibraries sampleConfig request.context g).attempt : Io Unit
        (Except AuthenticationError Unit))
        (.error e) (eventsOf k before) →
      ¬ Returned keylessLibraries sampleConfig (calls k) request (eventsOf k acts) (.error .rejected) := by
  intro hnever
  obtain ⟨s', hexec⟩ := replacement_execution
  have hlast : LastRead keylessLibraries sampleConfig "token" .rs256 sampleContext 1 replacementActs
      (initialTrace.map (.own 0) ++ List.replicate 4 .other ++ failingTrace.map (.own 1) ++
        replacingTrace.map (.own 2) ++ (samplePoll 4).map (.own 1))
      ((samplePoll 4).map (.own 1) ++ [.own 1 ⟨.tick, 4⟩, .own 1 ⟨.dropRead, ()⟩]) (keylessSnapshot 4 2) :=
    ⟨rfl, failingTrace, samplePoll 4, .fresh .noCandidate, rfl, by simp [PollsOnly, samplePoll, Polls],
      run_of_follow (by decide +kernel)⟩
  have hfailed :
      Run (refresh keylessLibraries sampleConfig sampleContext 1) (sampleFailedRefresh 4 (keylessSnapshot 0 1))
      (.error .verifierUnavailable) := run_of_follow (by decide +kernel)
  refine hnever replacementCalls s' replacementActs _ _ 1 sampleRequest "token" .rs256 _ (keylessSnapshot 4 2) 1
    .verifierUnavailable hexec rfl (by decide +kernel) sample_preflight rfl hlast nofun ?_ replacement_returned
  exact ⟨samplePoll 4 ++ samplePoll 4 ++ samplePoll 4 ++ sampleClassify 4 (keylessSnapshot 0 1), _, samplePoll 4, rfl,
    run_attempt.mpr ⟨_, hfailed, rfl⟩⟩

theorem rejected_on_replacement : ∃ before middle rest cache snapshot g c t m n,
    Readings keylessLibraries sampleConfig "token" .rs256 sampleRequest 1 replacementActs before
      middle rest cache snapshot
      g c t ∧
      Path step (.new 0) (before ++ .own 1 (shown sampleContext cache) :: middle) m ∧ m.cache = some snapshot ∧
      ⟨.tick, n⟩ ∈ eventsOf 1 rest ∧
      Ground keylessLibraries sampleConfig "token" .rs256 ⟨[("alg", .str "RS256"), ("kid", .str "key")]⟩ snapshot
        (∃ act ∈ middle, Installs act snapshot) (eventsOf 1 rest) := by
  obtain ⟨s', hexec⟩ := replacement_execution
  obtain ⟨before, middle, rest, cache, snapshot, g, c, t, m, n, hreadings, hpath, hcache, htick, _, hground, _⟩ :=
    rejected_on_read hexec replacement_returned rfl (by decide +kernel) sample_preflight rfl
  exact ⟨before, middle, rest, cache, snapshot, g, c, t, m, n, hreadings, hpath, hcache, htick, hground⟩

end PermissionSync.Authenticator
