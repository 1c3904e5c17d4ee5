import PermissionSync.Auth.Lemmas.Available
import PermissionSync.Auth.Theorems.Acceptance

/-!
# Candidates in any order

A verification depends on the set of candidates with the algorithm of the token, and further candidates do not change
what was decided by the claims.
-/

namespace PermissionSync.Authenticator

open PermissionSync.Auth PermissionSync.Base PermissionSync.Core PermissionSync.Wire
open PermissionSync.Runtime (JwtAlgorithm)

variable {K V α : Type} {lib : Libraries K V} {config : Config} {token : String} {algorithm : JwtAlgorithm}
  {context : SynchronizationContext} {candidates candidates' : List (Candidate V)} {payload : List UInt8}

/-! ## The result at fixed instants -/

/-- The context stays available, the clocks show these times, and the cache holds the snapshot. -/
def Fixed (context : SynchronizationContext) (tick : Instant) (wall : Option ℚ) (snapshot : Snapshot V)
    (e : Event (auth V)) : Prop :=
  Available context e ∧ match e with
    | ⟨.tick, instant⟩ => instant = tick
    | ⟨.unixSeconds, seconds⟩ => seconds = wall
    | ⟨.readCache _, cache⟩ => cache = some (some snapshot)
    | _ => True

/-- What `validate_claims` decides at a wall time. -/
def claimsDecision (lib : Libraries K V) (config : Config) (payload : List UInt8) (wall : Option ℚ) :
    Except AuthenticationError (String × TargetSelection) := do
  let claims ← okOr (claimsOf lib payload) .rejected
  let parsed ← parseAuthenticationClaimShapes lib claims config
  let now ← okOr wall .verifierUnavailable
  ensure (TimelyAt lib config parsed now) .rejected
  let selection ← scopeSelection (member claims "scope")
  return (parsed.clientId, selection)

/-- The verification of a token whose signature was accepted. -/
def acceptedResult (lib : Libraries K V) (config : Config) (token : String) (payload : List UInt8) (wall : Option ℚ) :
    Option Verification :=
  match claimsDecision lib config payload wall with
  | .ok (clientId, selection) => some (.valid ⟨clientId, token, selection⟩)
  | .error .cancelled => none
  | .error .verifierUnavailable => some .verifierUnavailable
  | .error .forbidden => some .forbidden
  | .error .rejected => some .rejected

/-- What the loop over the candidates finds. -/
def candidatesResult (lib : Libraries K V) (config : Config) (token : String) (algorithm : JwtAlgorithm)
    (wall : Option ℚ) (candidates : List (Candidate V)) (selectedAny prohibited : Bool) : Option Verification :=
  match candidates.findSome? (acceptedBy lib token algorithm) with
  | some payload => acceptedResult lib config token payload wall
  | none => some (unaccepted lib token algorithm candidates selectedAny prohibited)

/-- The result of `verify_current`. -/
def currentResult (lib : Libraries K V) (config : Config) (token : String) (algorithm : JwtAlgorithm) (tick : Instant)
    (wall : Option ℚ) (snapshot : Snapshot V) : CacheVerification :=
  if classifyAge config.cachePolicy (snapshot.age tick) = .coldOrExpired then .coldOrExpired
  else (classifyAge config.cachePolicy (snapshot.age tick)).verification
    (candidatesResult lib config token algorithm wall snapshot.candidates false false)

section

variable {tick : Instant} {wall : Option ℚ} {snapshot : Snapshot V}

theorem Fixed.available (e : Event (auth V)) (h : Fixed context tick wall snapshot e) : Available context e := h.1

theorem yields_guarded {C : Event (auth V) → Prop} {o : Op V} {p : Io V α} {x : Except AuthenticationError α}
    (hp : Yields C p x) : Yields C (guarded o p) x := by
  intro t r hC hr
  obtain ⟨t', y, rfl, hrun⟩ := run_guarded.mp hr
  exact hp t' r (fun e he => hC e (List.mem_append_left _ he)) hrun

theorem validateClaims_yields : Yields (Fixed context tick wall snapshot) (validateClaims lib config payload context)
    (claimsDecision lib config payload wall) := by
  refine yields_checkContext_bind Fixed.available (Yields.lift.bind fun claims _ => Yields.lift.bind fun parsed _ => ?_)
  refine yields_checkContext_bind Fixed.available (.ask_bind fun seconds hseconds => ?_)
  obtain rfl : seconds = wall := hseconds.2
  refine Yields.lift.bind fun now _ => Yields.lift.bind fun _ _ => yields_checkContext_bind Fixed.available ?_
  exact Yields.lift.bind fun selection _ => yields_checkContext_bind Fixed.available .pure

theorem claimsVerification_yields : Yields (Fixed context tick wall snapshot)
    (claimsVerification lib config token context payload) (.ok (acceptedResult lib config token payload wall)) := by
  refine validateClaims_yields.attempt.bind (g := fun _ => .ok (acceptedResult lib config token payload wall)) ?_
  rintro x ⟨⟩
  unfold acceptedResult
  rcases claimsDecision lib config payload wall with e | ⟨clientId, selection⟩
  · cases e <;> exact .pure
  · exact .pure

theorem verifyCandidates_yields (selectedAny prohibited : Bool) : Yields (Fixed context tick wall snapshot)
    (verifyCandidates lib config token algorithm context candidates selectedAny prohibited)
    (.ok (candidatesResult lib config token algorithm wall candidates selectedAny prohibited)) := by
  induction candidates generalizing selectedAny prohibited with
  | nil => simpa [candidatesResult, unaccepted, verifyCandidates] using Yields.pure
  | cons candidate candidates ih =>
      refine yields_unavailable_bind Fixed.available (yields_unavailable_bind Fixed.available ?_)
      change Yields _ (match acceptedBy lib token algorithm candidate with
        | some payload => claimsVerification lib config token context payload
        | none => verifyCandidates lib config token algorithm context candidates
            (selectedAny || (selection lib token algorithm candidate).isSome)
            (prohibited || (lib.header token).any prohibitedHeader)) _
      rw [candidatesResult, List.findSome?_cons]
      cases acceptedBy lib token algorithm candidate with
      | some payload => exact claimsVerification_yields
      | none =>
          have hrest := ih (selectedAny || (selection lib token algorithm candidate).isSome)
            (prohibited || (lib.header token).any prohibitedHeader)
          rw [candidatesResult, unaccepted_cons] at hrest
          exact hrest

theorem verifyCurrent_yields : Yields (Fixed context tick wall snapshot)
    (verifyCurrent lib config token algorithm context)
    (.ok (currentResult lib config token algorithm tick wall snapshot)) := by
  refine yields_unavailable_bind Fixed.available (.ask_bind fun cache hcache => ?_)
  obtain rfl : cache = some (some snapshot) := hcache.2
  refine yields_guarded (yields_unavailable_bind Fixed.available (.ask_bind fun instant hinstant => ?_))
  obtain rfl : instant = tick := hinstant.2
  unfold currentResult
  dsimp only
  split_ifs with hcold
  · exact .pure
  · exact (verifyCandidates_yields false false).bind fun _ _ => .pure

/-- Some answer is the fixed one. -/
theorem exists_fixed (h : 0 < context.deadline) (o : Op V) : ∃ x, Fixed context tick wall snapshot ⟨o, x⟩ := by
  cases o with
  | tick => exact ⟨tick, trivial, rfl⟩
  | unixSeconds => exact ⟨wall, trivial, rfl⟩
  | readCache => exact ⟨some (some snapshot), trivial, rfl⟩
  | _ =>
      obtain ⟨x, hx⟩ := exists_available h _
      exact ⟨x, hx, trivial⟩

end

/-! ## Sets of candidates -/

/-- `deserialize_compact_with_selector`: the payload of the token, if the verifier accepts the signature. -/
def signedPayload (accepts : V → String → Bool) (payload : String → Option (List UInt8))
    (verifier : V) (token : String) :
    Option (List UInt8) :=
  if accepts verifier token then payload token else none

section

variable {accepts : V → String → Bool} {payloadOf : String → Option (List UInt8)} {wall : Option ℚ}
  (hverify : lib.verify = signedPayload accepts payloadOf)
include hverify

/-- The payload does not depend on the candidate that accepts it. -/
theorem payloadOf_of_acceptedBy {candidate : Candidate V}
    (h : acceptedBy lib token algorithm candidate = some payload) :
    payloadOf token = some payload := by
  obtain ⟨verifier, _, haccepts⟩ := Option.bind_eq_some_iff.mp h
  rw [hverify] at haccepts
  exact (Option.ite_none_right_eq_some.mp haccepts).2

theorem findSome_acceptedBy (h : ∃ candidate ∈ candidates, acceptedBy lib token algorithm candidate = some payload) :
    candidates.findSome? (acceptedBy lib token algorithm) = some payload := by
  obtain ⟨candidate, hmem, haccepted⟩ := h
  cases hfound : candidates.findSome? (acceptedBy lib token algorithm) with
  | none => cases haccepted.symm.trans (List.findSome?_eq_none_iff.mp hfound candidate hmem)
  | some payload' =>
      obtain ⟨candidate', _, haccepted'⟩ := List.exists_of_findSome?_eq_some hfound
      rw [← payloadOf_of_acceptedBy hverify haccepted, ← payloadOf_of_acceptedBy hverify haccepted']

end

/-- The claims of the token decided. -/
def DecidedByClaims : Verification → Prop
  | .valid _ | .forbidden | .rejected => True
  | .verifierUnavailable | .noCandidate | .signatureInvalid => False

/-- A candidate that is selected has the algorithm of the token. -/
theorem algorithm_of_selection {candidate : Candidate V} (h : (selection lib token algorithm candidate).isSome = true) :
    candidate.algorithm = algorithm := by
  by_contra hne
  obtain ⟨verifier, hverifier⟩ := Option.isSome_iff_exists.mp h
  obtain ⟨header, _, hselected⟩ := Option.bind_eq_some_iff.mp hverifier
  simp [selectVerifier, hne] at hselected

theorem unaccepted_eq (hpreflight : preflightHeader lib token config.algorithms = .ok algorithm) :
    unaccepted lib token algorithm candidates false false =
      if ∃ candidate ∈ candidates, (selection lib token algorithm candidate).isSome = true then .signatureInvalid
      else .noCandidate := by
  obtain ⟨header, hheader, hallowed, _⟩ := preflightHeader_ok hpreflight
  simp [unaccepted, hheader, hallowed]

section

variable {accepts : V → String → Bool} {payloadOf : String → Option (List UInt8)} {wall : Option ℚ}
  (hverify : lib.verify = signedPayload accepts payloadOf)
  (hpreflight : preflightHeader lib token config.algorithms = .ok algorithm)
include hverify hpreflight

/-- Only the set of candidates with the algorithm of the token counts. -/
theorem candidatesResult_congr
    (h : ∀ candidate, candidate.algorithm = algorithm → (candidate ∈ candidates' ↔ candidate ∈ candidates)) :
    candidatesResult lib config token algorithm wall candidates' false false =
      candidatesResult lib config token algorithm wall candidates false false := by
  have hselected (candidate : Candidate V) (hsome : (selection lib token algorithm candidate).isSome = true) :
      candidate ∈ candidates' ↔ candidate ∈ candidates := h candidate (algorithm_of_selection hsome)
  have haccepted {candidate : Candidate V} {payload : List UInt8} (hsome : acceptedBy lib token algorithm candidate =
      some payload) :
      candidate ∈ candidates' ↔ candidate ∈ candidates := by
    obtain ⟨verifier, hverifier, _⟩ := Option.bind_eq_some_iff.mp hsome
    exact hselected candidate (Option.isSome_iff_exists.mpr ⟨verifier, hverifier⟩)
  have hfound : candidates'.findSome? (acceptedBy lib token algorithm) =
      candidates.findSome? (acceptedBy lib token algorithm) := by
    cases hfind : candidates.findSome? (acceptedBy lib token algorithm) with
    | none =>
        refine List.findSome?_eq_none_iff.mpr fun candidate hmem => ?_
        by_contra hne
        obtain ⟨payload, hsome⟩ := Option.ne_none_iff_exists'.mp hne
        exact hne (List.findSome?_eq_none_iff.mp hfind candidate ((haccepted hsome).mp hmem))
    | some payload =>
        obtain ⟨candidate, hmem, hsome⟩ := List.exists_of_findSome?_eq_some hfind
        exact findSome_acceptedBy hverify ⟨candidate, (haccepted hsome).mpr hmem, hsome⟩
  have hany : (∃ candidate ∈ candidates', (selection lib token algorithm candidate).isSome = true) ↔
      ∃ candidate ∈ candidates, (selection lib token algorithm candidate).isSome = true :=
    exists_congr fun candidate => and_congr_left fun hsome => hselected candidate hsome
  simp only [candidatesResult, hfound, unaccepted_eq hpreflight, hany]

/-- What the claims decided stands when candidates are added. -/
theorem candidatesResult_of_subset {verification : Verification} (hsub : candidates ⊆ candidates')
    (h : candidatesResult lib config token algorithm wall candidates false false = some verification)
    (hdecided : DecidedByClaims verification) :
    candidatesResult lib config token algorithm wall candidates' false false = some verification := by
  rw [← h]
  unfold candidatesResult at h ⊢
  cases hfind : candidates.findSome? (acceptedBy lib token algorithm) with
  | none =>
      rw [hfind, unaccepted_eq hpreflight] at h
      split_ifs at h <;> cases h <;> exact hdecided.elim
  | some payload =>
      obtain ⟨candidate, hmem, hsome⟩ := List.exists_of_findSome?_eq_some hfind
      rw [findSome_acceptedBy hverify ⟨candidate, hsub hmem, hsome⟩]

end

/-- At one instant, a verification depends only on which candidates have the algorithm of the token. A verdict on the
claims stays when candidates are added. -/
theorem verifyCurrent_stable (accepts : V → String → Bool) (payloadOf : String → Option (List UInt8))
    (hverify : lib.verify = signedPayload accepts payloadOf)
    (hpreflight : preflightHeader lib token config.algorithms = .ok algorithm) (context : SynchronizationContext)
    (tick : Instant) (wall : Option ℚ) (snapshot : Snapshot V) :
    (0 < context.deadline → ∃ t r, (∀ e ∈ t, Fixed context tick wall snapshot e) ∧
      Run (verifyCurrent lib config token algorithm context) t r) ∧
    ∀ t r candidates' t' r', (∀ e ∈ t, Fixed context tick wall snapshot e) →
      Run (verifyCurrent lib config token algorithm context) t r →
      (∀ e ∈ t', Fixed context tick wall { snapshot with candidates := candidates' } e) →
      Run (verifyCurrent lib config token algorithm context) t' r' →
      -- a permutation, repetitions, further candidates with other algorithms
      ((∀ candidate, candidate.algorithm = algorithm → (candidate ∈ candidates' ↔ candidate ∈ snapshot.candidates)) →
        r' = r) ∧
      (snapshot.candidates ⊆ candidates' → ∀ verification, r = .ok (.fresh verification) ∨
        r = .ok (.stale verification) → DecidedByClaims verification → r' = r) := by
  refine ⟨fun hopen => ?_, fun t r candidates' t' r' hfixed hrun hfixed' hrun' => ?_⟩
  · obtain ⟨t, hfixed, hrun⟩ := verifyCurrent_yields.exists_run (exists_fixed hopen)
    exact ⟨t, _, hfixed, hrun⟩
  obtain rfl := verifyCurrent_yields t r hfixed hrun
  obtain rfl := verifyCurrent_yields t' r' hfixed' hrun'
  have hage : ({ snapshot with candidates := candidates' } : Snapshot V).age tick = snapshot.age tick := rfl
  rw [Except.ok.injEq, currentResult, currentResult, hage]
  refine ⟨fun hsame => ?_, fun hsub verification hresult hdecided => ?_⟩
  · rw [candidatesResult_congr hverify hpreflight hsame]
  · by_cases hcold : classifyAge config.cachePolicy (snapshot.age tick) = .coldOrExpired
    · rw [if_pos hcold, if_pos hcold]
    · rw [if_neg hcold] at hresult
      have hfound :
          candidatesResult lib config token algorithm wall snapshot.candidates false false = some verification := by
        have hfresh : CacheClassification.fresh ≠ .coldOrExpired := nofun
        have hstale : CacheClassification.stale ≠ .coldOrExpired := nofun
        rcases hresult with hresult | hresult
        · exact (verification_eq_some hcold hfresh (Except.ok.inj hresult)).2
        · exact (verification_eq_some hcold hstale (Except.ok.inj hresult)).2
      rw [if_neg hcold, if_neg hcold, hfound, candidatesResult_of_subset hverify hpreflight hsub hfound hdecided]

/-- The snapshot with its candidate twice, between candidates of another algorithm. -/
def repeatedCandidates : List (Candidate Unit) :=
  [⟨none, .edDsa, (), ()⟩, sampleCandidate, ⟨none, .edDsa, (), ()⟩, sampleCandidate]

theorem repeated_candidates_verified : ∃ t t' r,
    (∀ e ∈ t, Fixed sampleContext 1 (some 1000) sampleSnapshot e) ∧
      (∀ e ∈ t', Fixed sampleContext 1 (some 1000) { sampleSnapshot with candidates := repeatedCandidates } e) ∧
      Run (verifyCurrent sampleLibraries sampleConfig "token" .rs256 sampleContext) t r ∧
      Run (verifyCurrent sampleLibraries sampleConfig "token" .rs256 sampleContext) t' r := by
  have hverify : sampleLibraries.verify = signedPayload (fun _ _ => true) (fun _ => some []) := rfl
  have hpreflight : preflightHeader sampleLibraries "token" sampleConfig.algorithms = .ok .rs256 := by decide +kernel
  have hopen : 0 < sampleContext.deadline := by decide
  obtain ⟨hexists, hstable⟩ := verifyCurrent_stable _ _ hverify hpreflight sampleContext 1 (some 1000) sampleSnapshot
  obtain ⟨t, r, hfixed, hrun⟩ := hexists hopen
  obtain ⟨t', r', hfixed', hrun'⟩ := (verifyCurrent_stable _ _ hverify hpreflight sampleContext 1 (some 1000)
    { sampleSnapshot with candidates := repeatedCandidates }).1 hopen
  have hsame := (hstable t r repeatedCandidates t' r' hfixed hrun hfixed' hrun').1 fun candidate halgorithm => by
    have hother : candidate ≠ ⟨none, .edDsa, (), ()⟩ := by
      rintro rfl
      cases halgorithm
    simp [repeatedCandidates, sampleSnapshot, hother]
  exact ⟨t, t', r, hfixed, hfixed', hrun, hsame ▸ hrun'⟩

end PermissionSync.Authenticator
