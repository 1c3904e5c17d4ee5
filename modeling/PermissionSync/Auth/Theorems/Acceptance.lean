import PermissionSync.Auth.Lemmas.Timeline

/-!
# Acceptance

Whatever the other calls do, a token is accepted only against the snapshot that is installed when its last verification
reads the cache, while that snapshot is fresh or the call's own refresh has failed within the grace.
-/

namespace PermissionSync.Authenticator

open PermissionSync.Auth PermissionSync.Base PermissionSync.Core PermissionSync.Wire
open PermissionSync.Runtime (Duration JwtAlgorithm VerificationCachePolicy)

variable {ι K V : Type} [DecidableEq ι] {lib : Libraries K V} {config : Config} {token : String}
  {algorithm : JwtAlgorithm}

/-! ## The last verification of a call -/

/-- The call's last operations are a verification, which reads the snapshot at this step of the timeline. -/
structure LastRead (lib : Libraries K V) (config : Config) (token : String) (algorithm : JwtAlgorithm)
    (context : SynchronizationContext) (k : ι) (acts before after : List (Act ι (auth V))) (snapshot : Snapshot V) :
    Prop where
  acts : acts = before ++ .own k ⟨.readCache context.deadline, some (some snapshot)⟩ :: after
  verifies : ∃ u polls v, eventsOf k before = u ++ polls ∧ PollsOnly polls ∧
    Run (verifyCurrent lib config token algorithm context)
      (polls ++ ⟨.readCache context.deadline, some (some snapshot)⟩ :: eventsOf k after) (.ok v)

/-- The snapshot is fresh, or it is stale within the grace and the refresh of this call failed other than by
cancellation. -/
def InTime (lib : Libraries K V) (config : Config) (context : SynchronizationContext)
    (snapshot : Snapshot V) (n : Instant) (t : Trace V) : Prop :=
  ∃ age, snapshot.age n = some age ∧ (age ≤ config.cachePolicy.freshness ∨
    config.cachePolicy.freshness < age ∧ age ≤ config.cachePolicy.freshness + config.cachePolicy.staleIfError ∧
      ∃ g e, e ≠ .cancelled ∧
        Occurs ((refresh lib config context g).attempt : Io V (Except AuthenticationError Unit)) (.error e) t)

theorem Concluded.inTime {context : SynchronizationContext} {g : UInt64}
    {t u w body t₀ t₁ pre : Trace V} {snapshot : Snapshot V}
    {r : Except AuthenticationError AuthenticatedTechnicalCaller} {c : CacheClassification}
    {verification : Verification} {n : Instant}
    (h : Concluded lib config token algorithm context g t r u w c verification)
    (hv : Verified lib config token algorithm body snapshot n c verification) :
    InTime lib config context snapshot n (t₀ ++ t₁ ++ u ++ pre) := by
  rcases h.age with rfl | ⟨rfl, u₁, u₂, rfl, hrefresh⟩
  · obtain ⟨age, hage, hle⟩ := classifyAge_fresh hv.age
    exact ⟨age, hage, Or.inl hle⟩
  · obtain ⟨age, hage, hlt, hle⟩ := classifyAge_stale hv.age
    refine ⟨age, hage, Or.inr ⟨hlt, hle, g, .verifierUnavailable, nofun, t₀ ++ t₁ ++ u₁, u₂, pre, by simp, ?_⟩⟩
    exact run_attempt.mpr ⟨_, hrefresh, rfl⟩

/-- What an accepting verification found. -/
theorem Verdict.authenticates {candidates : List (Candidate V)} {t : Trace V} {verification : Verification}
    {r : Except AuthenticationError AuthenticatedTechnicalCaller}
    (h : Verdict lib config token algorithm candidates t verification) (hresult : verificationResult verification = r)
    (hr : Accepted r) :
    (∀ caller, r = .ok caller → caller.bearerToken = token) ∧
      ∃ candidate ∈ candidates, ∃ claims, Authenticates lib config token algorithm candidate t claims := by
  subst hresult
  cases verification with
  | valid caller =>
      obtain ⟨candidate, hmem, claims, hauth, _, hbearer, _⟩ := h
      refine ⟨?_, candidate, hmem, claims, hauth⟩
      rintro _ ⟨⟩
      exact hbearer
  | forbidden =>
      obtain ⟨candidate, hmem, claims, hauth, _⟩ := h
      exact ⟨nofun, candidate, hmem, claims, hauth⟩
  | rejected | verifierUnavailable | noCandidate | signatureInvalid => exact absurd hr (not_accepted nofun)

/-- An accepted token was verified against the snapshot that was installed when the call last read the cache: one of its
keys verifies the token, the claims hold at a time the call read, and the snapshot was in time. -/
theorem accepted_against_installed {calls : ι → Call} {s s' : Shared ι V} {acts : List (Act ι (auth V))} {k : ι}
    {request : AuthenticationRequest} {r : Except AuthenticationError AuthenticatedTechnicalCaller}
    (hexec : Execution lib config calls s acts s')
    (hreturned : Returned lib config (calls k) request (eventsOf k acts) r) (hr : Accepted r) :
    ∃ token header algorithm, request.rawCompactToken = some token ∧
      (∀ caller, r = .ok caller → caller.bearerToken = token) ∧ lib.header token = some header ∧
      header.algorithm = some (algorithmName algorithm) ∧ algorithm ∈ config.algorithms ∧
      ∃ before after m snapshot, LastRead lib config token algorithm request.context k acts before after snapshot ∧
        Path step s before m ∧ m.cache = some snapshot ∧
        (∃ candidate ∈ snapshot.candidates, ∃ payload claims now,
          CandidateMatches algorithm header candidate ∧
          lib.verify (candidate.verifier header) token = some payload ∧ claimsOf lib payload = some claims ∧
          ⟨.unixSeconds, some now⟩ ∈ eventsOf k after ∧ ClaimsValid lib config claims now) ∧
        ∃ n, ⟨.tick, n⟩ ∈ eventsOf k after ∧ InTime lib config request.context snapshot n (eventsOf k before) := by
  rcases run_authenticate hreturned.run with
    rfl | ⟨rfl, _⟩ | ⟨token, algorithm, t₀, t₁, t₂, g, c, htoken, hpreflight, htrace, _, _, hafter⟩
  · exact absurd hr (not_accepted nofun)
  · exact absurd hr (not_accepted nofun)
  obtain ⟨header, hheader, _, hname, hallowed⟩ := preflightHeader_ok hpreflight
  obtain ⟨u, w, c', verification, hconcluded⟩ := concludes_of_run hafter hr
  have hclass : c' ≠ .coldOrExpired := by
    rcases hconcluded.age with rfl | ⟨rfl, _⟩ <;> nofun
  obtain ⟨pre, snapshot, body, n, hpolls, rfl, hverified⟩ := run_verified hclass hconcluded.run
  have hevents : eventsOf k acts = (t₀ ++ t₁ ++ u ++ pre) ++
      ⟨.readCache request.context.deadline, some (some snapshot)⟩ :: (body ++ [⟨.dropRead, ()⟩]) := by
    rw [htrace, hconcluded.trace]
    simp
  obtain ⟨before, after, m, hacts, hbefore, hafterEvents, hpath, hobserves, _⟩ :=
    exists_state_of_eventsOf hexec.path hevents
  obtain ⟨hbearer, candidate, hmem, claims, payload, now, haccepted, hclaims, hread, hvalid⟩ :=
    hverified.verdict.authenticates hconcluded.result hr
  obtain ⟨hmatches, haccepts⟩ := (acceptedBy_eq_some hpreflight hheader).mp haccepted
  refine ⟨token, header, algorithm, htoken, hbearer, hheader, hname, hallowed, before, after, m, snapshot, ⟨hacts, ?_⟩,
    hpath, hobserves.2.symm, ⟨candidate, hmem, payload, claims, now, hmatches, haccepts, hclaims, ?_, hvalid⟩, n, ?_,
      ?_⟩
  · refine ⟨t₀ ++ t₁ ++ u, pre, c'.verification (some verification), hbefore, hpolls, ?_⟩
    rw [hafterEvents]
    exact hconcluded.run
  · rw [hafterEvents]
    exact List.mem_append_left _ hread
  · rw [hafterEvents]
    exact List.mem_append_left _ hverified.tick
  · rw [hbefore]
    exact hconcluded.inTime hverified

/-! ## A call beside another one -/

/-- Libraries with one verifier, which accepts every token. -/
def sampleLibraries : Libraries Unit Unit where
  header _ := some ⟨[("alg", .str "RS256"), ("kid", .str "key")]⟩
  verify _ _ := some []
  importJwk _ := some ()
  verifierFromJwk _ _ := some ()
  readJson _ := some (.obj [("iss", .str "issuer"), ("aud", .str "audience"), ("exp", .num (.int 2000)),
    ("iat", .num (.int 900)), ("client_id", .str "client"), ("scope", .str "permissionsync:glpi")])
  parseUri _ := none
  round q := q

def sampleConfig : Config where
  issuer := "issuer"
  audience := "audience"
  source := .direct ⟨"https://issuer/keys", some "https", some "issuer", some "issuer"⟩
  algorithms := [.rs256]
  ascending := .cons nofun .nil
  metadataTimeout := 10
  cachePolicy := ⟨2, 3⟩
  clockSkew := 0

def sampleContext : SynchronizationContext := ⟨100, 0⟩

def sampleCandidate : Candidate Unit := ⟨some "key", .rs256, (), ()⟩

def sampleRequest : AuthenticationRequest := ⟨some "token", sampleContext⟩

/-- A check of the context at an instant. -/
def samplePoll (n : Instant) : Trace Unit := [⟨.isCancelled 0, false⟩, ⟨.now, n⟩]

/-- A classification of the cache at an instant. -/
def sampleClassify (n : Instant) (snapshot : Snapshot Unit) : Trace Unit :=
  samplePoll n ++ ⟨.readCache 100, some (some snapshot)⟩ :: samplePoll n ++ [⟨.tick, n⟩, ⟨.dropRead, ()⟩]

/-- A verification that accepts the token. -/
def sampleVerify (n : Instant) (snapshot : Snapshot Unit) : Trace Unit :=
  samplePoll n ++ ⟨.readCache 100, some (some snapshot)⟩ :: samplePoll n ++ ⟨.tick, n⟩ ::
    samplePoll n ++ samplePoll n ++ samplePoll n ++ samplePoll n ++ ⟨.unixSeconds, some 1000⟩ :: samplePoll n ++
    samplePoll n ++ [⟨.dropRead, ()⟩]

/-- A refresh whose request fails. -/
def sampleFailedRefresh (n : Instant) (snapshot : Snapshot Unit) : Trace Unit :=
  samplePoll n ++ ⟨.lockRefresh 100, true⟩ :: samplePoll n ++ sampleClassify n snapshot ++ ⟨.fetchStarted, ()⟩ ::
    samplePoll n ++ samplePoll n ++ ⟨.now, n⟩ ::
      ⟨.request ⟨"https://issuer/keys", some "https", some "issuer", some "issuer"⟩
      (n + 10), some none⟩ :: samplePoll n ++ [⟨.fetchEnded, ()⟩, ⟨.dropRefresh, ()⟩]

def sampleSnapshot : Snapshot Unit := ⟨[sampleCandidate], 0, 1⟩

/-- The snapshot is stale, and the call falls back on it when its refresh has failed. -/
def fallbackTrace : Trace Unit :=
  samplePoll 4 ++ samplePoll 4 ++ samplePoll 4 ++ sampleClassify 4 sampleSnapshot ++
    sampleFailedRefresh 4 sampleSnapshot ++ sampleVerify 4 sampleSnapshot

theorem fallback_run : Run (authenticate sampleLibraries sampleConfig sampleRequest) fallbackTrace
    (.ok ⟨"client", "token", .selected ⟨"glpi", by decide⟩⟩) :=
  run_of_follow (by decide +kernel)

/-- The authentication, and a call that has not started. -/
def sampleCalls : Bool → Call
  | false => .authenticate sampleRequest
  | true => .trustedVerifierState sampleContext

def staleState : Shared Bool Unit := ⟨4, some sampleSnapshot, [], none, none⟩

def fallbackActs : List (Act Bool (auth Unit)) := fallbackTrace.map (Act.own false)

theorem fallback_execution : ∃ s', Execution sampleLibraries sampleConfig sampleCalls staleState fallbackActs s' := by
  have hnext : (fallbackActs.foldlM Shared.next staleState).isSome = true := by decide +kernel
  obtain ⟨s', hs'⟩ := Option.isSome_iff_exists.mp hnext
  refine ⟨s', path_of_foldlM (fun _ _ _ => step_of_next) hs', fun k => ?_⟩
  cases k with
  | false =>
      rw [fallbackActs, eventsOf_map_own]
      exact .ended (fallback_run.bind (run_pure.mpr ⟨rfl, rfl⟩))
  | true =>
      rw [fallbackActs, eventsOf_map_own_ne (by decide)]
      exact .pending (asks_of_pending rfl)

theorem fallback_against_installed : ∃ algorithm before after m snapshot n,
    LastRead sampleLibraries sampleConfig "token" algorithm sampleContext false fallbackActs before after snapshot ∧
      Path step staleState before m ∧ m.cache = some snapshot ∧
      InTime sampleLibraries sampleConfig sampleContext snapshot n (eventsOf false before) := by
  obtain ⟨s', hexec⟩ := fallback_execution
  have hreturned : Returned sampleLibraries sampleConfig (sampleCalls false) sampleRequest (eventsOf false fallbackActs)
      (.ok ⟨"client", "token", .selected ⟨"glpi", by decide⟩⟩) :=
    ⟨rfl, by rw [fallbackActs, eventsOf_map_own]; exact fallback_run⟩
  obtain ⟨token, _, algorithm, htoken, _, _, _, _, before, after, m, snapshot, hlast, hpath, hcache, _, n, _, hage⟩ :=
    accepted_against_installed hexec hreturned (Or.inl ⟨_, rfl⟩)
  cases htoken
  exact ⟨algorithm, before, after, m, snapshot, n, hlast, hpath, hcache, hage⟩

end PermissionSync.Authenticator
