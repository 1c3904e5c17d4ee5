import PermissionSync.Auth.Lemmas.Runs

/-!
# What a verification finds

A verification against a snapshot is decided by the first candidate that accepts the token and by the claims of its
payload, or by whether a candidate matches the token at all.
-/

namespace PermissionSync.Authenticator

open PermissionSync.Auth PermissionSync.Base PermissionSync.Core PermissionSync.Wire
open PermissionSync.Runtime (Duration JwtAlgorithm)

variable {K V : Type} {lib : Libraries K V} {config : Config} {token : String} {algorithm : JwtAlgorithm}
  {context : SynchronizationContext} {t : Trace V} {payload : List UInt8} {claims : List (String × Json)} {now : ℚ}

/-! ## Claims -/

/-- The claims of a payload. -/
def claimsOf (lib : Libraries K V) (payload : List UInt8) : Option (List (String × Json)) :=
  (lib.readJson payload).bind Json.asObject

/-- The authentication claims are valid at the wall time. -/
structure ClaimsValid (lib : Libraries K V) (config : Config) (claims : List (String × Json)) (now : ℚ) : Prop where
  iss : member claims "iss" = some (.str config.issuer)
  aud : member claims "aud" = some (.str config.audience) ∨ ∃ values, member claims "aud" = some (.arr values) ∧
    (∀ value ∈ values, ∃ audience, value = .str audience) ∧ .str config.audience ∈ values
  exp : ∃ exp, numericDate lib.round (member claims "exp") = some exp ∧ now < exp
  iat : ∃ iat, numericDate lib.round (member claims "iat") = some iat ∧ iat ≤ allowedAt lib config now
  nbf : ∀ value, member claims "nbf" = some value →
    ∃ nbf, numericDate lib.round (some value) = some nbf ∧ nbf ≤ allowedAt lib config now
  clientId : ∃ clientId, member claims "client_id" = some (.str clientId)

theorem bind_asStr_eq_some {value : Option Json} {text : String} :
    value.bind Json.asStr = some text ↔ value = some (.str text) := by
  cases value with
  | none => simp
  | some value => cases value <;> simp [Json.asStr]

theorem asStr_eq_some {value : Json} {text : String} : value.asStr = some text ↔ value = .str text := by
  cases value <;> simp [Json.asStr]

theorem audienceMatches_iff {value : Option Json} {expected : String} : audienceMatches value expected = true ↔
    value = some (.str expected) ∨ ∃ values, value = some (.arr values) ∧
      (∀ value ∈ values, ∃ audience, value = .str audience) ∧ .str expected ∈ values := by
  unfold audienceMatches
  split
  · simp
  · rename_i values
    have htexts : (∀ value ∈ values, value.asStr.isSome = true) ↔
        ∀ value ∈ values, ∃ audience, value = .str audience := by
      simp only [Option.isSome_iff_exists, asStr_eq_some]
    simp only [Bool.and_eq_true, Bool.not_eq_true', List.isEmpty_eq_false_iff, List.all_eq_true, List.any_eq_true,
      beq_iff_eq, htexts, asStr_eq_some, exists_eq_right, Option.some.injEq, reduceCtorEq, false_or, Json.arr.injEq,
      exists_eq_left']
    constructor
    · rintro ⟨⟨_, htext⟩, hmem⟩
      exact ⟨htext, hmem⟩
    · rintro ⟨htext, hmem⟩
      exact ⟨⟨List.ne_nil_of_mem hmem, htext⟩, hmem⟩
  · rename_i hstr harr
    refine iff_of_false Bool.false_ne_true ?_
    rintro (rfl | ⟨values, rfl, _⟩)
    · exact hstr _ rfl
    · exact harr _ rfl

theorem optionalDate_ok {round : ℚ → ℚ} {value : Option Json} {date : Option ℚ} : optionalDate round value = .ok date ↔
    (value = none ∧ date = none) ∨
      ∃ v d, value = some v ∧ numericDate round (some v) = some d ∧ date = some d := by
  cases value with
  | none => simp [optionalDate, eq_comm]
  | some value => cases hdate : numericDate round (some value) <;> simp [optionalDate, hdate, Except.map, eq_comm]

theorem parseAuthenticationClaimShapes_ok {parsed : ParsedAuthenticationClaims} :
    parseAuthenticationClaimShapes lib claims config = .ok parsed ↔
      (member claims "iss" = some (.str config.issuer) ∧ audienceMatches (member claims "aud") config.audience = true) ∧
        numericDate lib.round (member claims "exp") = some parsed.exp ∧
        numericDate lib.round (member claims "iat") = some parsed.iat ∧
        member claims "client_id" = some (.str parsed.clientId) ∧
        optionalDate lib.round (member claims "nbf") = .ok parsed.nbf := by
  simp only [parseAuthenticationClaimShapes, bind_eq_ok, ensure_eq_ok, okOr_eq_ok, bind_asStr_eq_some, pure_eq_ok,
    Except.ok.injEq]
  constructor
  · rintro ⟨_, hwho, _, hexp, _, hiat, _, hclient, _, hnbf, rfl⟩
    exact ⟨hwho, hexp, hiat, hclient, hnbf⟩
  · rintro ⟨hwho, hexp, hiat, hclient, hnbf⟩
    exact ⟨(), hwho, _, hexp, _, hiat, _, hclient, _, hnbf, rfl⟩

/-- The parsed claims are valid when they are timely. -/
theorem claimsValid_iff : ClaimsValid lib config claims now ↔
    ∃ parsed, parseAuthenticationClaimShapes lib claims config = .ok parsed ∧ TimelyAt lib config parsed now := by
  simp only [parseAuthenticationClaimShapes_ok, optionalDate_ok, audienceMatches_iff, TimelyAt, not_le, not_lt]
  constructor
  · rintro ⟨hiss, haud, ⟨exp, hexp, hnow⟩, ⟨iat, hiat, hallowed⟩, hnbf, ⟨clientId, hclient⟩⟩
    cases hvalue : member claims "nbf" with
    | none =>
        exact ⟨⟨clientId, exp, iat, none⟩, ⟨⟨hiss, haud⟩, hexp, hiat, hclient, Or.inl ⟨rfl, rfl⟩⟩, hnow,
          hallowed, nofun⟩
    | some value =>
        obtain ⟨nbf, hdate, hle⟩ := hnbf value hvalue
        refine ⟨⟨clientId, exp, iat, some nbf⟩,
          ⟨⟨hiss, haud⟩, hexp, hiat, hclient, Or.inr ⟨value, nbf, rfl, hdate, rfl⟩⟩, hnow, hallowed, ?_⟩
        rintro _ ⟨⟩
        exact hle
  · rintro ⟨parsed, ⟨⟨hiss, haud⟩, hexp, hiat, hclient, hnbf⟩, hnow, hallowed, hbefore⟩
    refine ⟨hiss, haud, ⟨_, hexp, hnow⟩, ⟨_, hiat, hallowed⟩, fun value hvalue => ?_, ⟨_, hclient⟩⟩
    rcases hnbf with ⟨hnone, _⟩ | ⟨value', nbf, hvalue', hdate, hparsed⟩
    · cases hnone.symm.trans hvalue
    · cases hvalue'.symm.trans hvalue
      exact ⟨nbf, hdate, hbefore nbf hparsed⟩

/-- A failed check of the shapes rejects the token. -/
theorem parseAuthenticationClaimShapes_error {e : AuthenticationError}
    (h : parseAuthenticationClaimShapes lib claims config = .error e) : e = .rejected := by
  have hdate (value : Option Json) (he : optionalDate lib.round value = .error e) : e = .rejected := by
    cases value with
    | none => cases he
    | some value =>
        cases hvalue : numericDate lib.round (some value) <;> rw [optionalDate, hvalue] at he <;> cases he
        rfl
  simp only [parseAuthenticationClaimShapes, bind_eq_error, ensure_eq_error, okOr_eq_error, pure_eq_ok, reduceCtorEq,
    and_false, exists_false, or_false] at h
  rcases h with ⟨_, rfl⟩ | ⟨_, _, ⟨_, rfl⟩ | ⟨_, _, ⟨_, rfl⟩ | ⟨_, _, ⟨_, rfl⟩ | ⟨_, _, he⟩⟩⟩⟩
  · rfl
  · rfl
  · rfl
  · rfl
  · exact hdate _ he

/-- What the checks of the claims come to, unless they are cancelled. -/
inductive ClaimsRun (lib : Libraries K V) (config : Config) (payload : List UInt8) (t : Trace V) :
    Except AuthenticationError (String × TargetSelection) → Prop where
  | cancelled : ClaimsRun lib config payload t (.error .cancelled)
  | unreadable : claimsOf lib payload = none → ClaimsRun lib config payload t (.error .rejected)
  | misshapen {claims : List (String × Json)} : claimsOf lib payload = some claims →
      (∀ now, ¬ ClaimsValid lib config claims now) → ClaimsRun lib config payload t (.error .rejected)
  | clockless : ⟨.unixSeconds, none⟩ ∈ t → ClaimsRun lib config payload t (.error .verifierUnavailable)
  | untimely {claims : List (String × Json)} {now : ℚ} : claimsOf lib payload = some claims →
      ⟨.unixSeconds, some now⟩ ∈ t → ¬ ClaimsValid lib config claims now →
      ClaimsRun lib config payload t (.error .rejected)
  | decided {claims : List (String × Json)} {now : ℚ} {clientId : String} : claimsOf lib payload = some claims →
      ⟨.unixSeconds, some now⟩ ∈ t → ClaimsValid lib config claims now →
      member claims "client_id" = some (.str clientId) →
      ClaimsRun lib config payload t ((scopeSelection (member claims "scope")).map (Prod.mk clientId))

theorem run_validateClaims {r : Except AuthenticationError (String × TargetSelection)}
    (h : Run (validateClaims lib config payload context) t r) : ClaimsRun lib config payload t r := by
  rcases run_checkContext_bind h with ⟨_, rfl⟩ | ⟨t₁, t₂, rfl, _, h₁⟩
  · exact .cancelled
  rcases run_lift_bind.mp h₁ with ⟨e, hclaims, rfl, rfl⟩ | ⟨claims, hclaims, h₂⟩
  · obtain ⟨hnone, rfl⟩ := okOr_eq_error.mp hclaims
    exact .unreadable hnone
  have hclaims := okOr_eq_ok.mp hclaims
  rcases run_lift_bind.mp h₂ with ⟨e, hparse, rfl, rfl⟩ | ⟨parsed, hparse, h₃⟩
  · obtain rfl := parseAuthenticationClaimShapes_error hparse
    refine .misshapen hclaims fun now hvalid => ?_
    obtain ⟨parsed, hok, _⟩ := claimsValid_iff.mp hvalid
    cases hparse.symm.trans hok
  rcases run_checkContext_bind h₃ with ⟨_, rfl⟩ | ⟨t₃, t₄, rfl, _, h₄⟩
  · exact .cancelled
  obtain ⟨wall, t₅, rfl, h₅⟩ := run_ask_bind.mp h₄
  rcases run_lift_bind.mp h₅ with ⟨e, hwall, rfl, rfl⟩ | ⟨now, hwall, h₆⟩
  · obtain ⟨rfl, rfl⟩ := okOr_eq_error.mp hwall
    exact .clockless (by simp)
  obtain rfl := okOr_eq_ok.mp hwall
  have hread : ⟨.unixSeconds, some now⟩ ∈ t₁ ++ (t₃ ++ (⟨.unixSeconds, some now⟩ : Event (auth V)) :: t₅) := by simp
  rcases run_lift_bind.mp h₆ with ⟨e, htimely, rfl, rfl⟩ | ⟨_, htimely, h₇⟩
  · obtain ⟨huntimely, rfl⟩ := ensure_eq_error.mp htimely
    refine .untimely hclaims hread fun hvalid => ?_
    obtain ⟨parsed', hok, htimely'⟩ := claimsValid_iff.mp hvalid
    cases hparse.symm.trans hok
    exact huntimely htimely'
  have hvalid : ClaimsValid lib config claims now := claimsValid_iff.mpr ⟨parsed, hparse, ensure_eq_ok.mp htimely⟩
  have hclient := (parseAuthenticationClaimShapes_ok.mp hparse).2.2.2.1
  rcases run_checkContext_bind h₇ with ⟨_, rfl⟩ | ⟨t₆, t₇, rfl, _, h₈⟩
  · exact .cancelled
  have hdecided := ClaimsRun.decided hclaims hread hvalid hclient
  rcases run_lift_bind.mp h₈ with ⟨e, hscope, rfl, rfl⟩ | ⟨selection, hscope, h₉⟩
  · rwa [hscope] at hdecided
  rcases run_checkContext_bind h₉ with ⟨_, rfl⟩ | ⟨t₈, t₉, rfl, _, hend⟩
  · exact .cancelled
  obtain ⟨rfl, rfl⟩ := run_pure.mp hend
  rwa [hscope] at hdecided

/-! ## Candidates -/

/-- The verifier that is selected for a candidate. -/
def selection (lib : Libraries K V) (token : String) (algorithm : JwtAlgorithm) (candidate : Candidate V) : Option V :=
  (lib.header token).bind fun header => selectVerifier algorithm header candidate

/-- The payload that the candidate accepts. -/
def acceptedBy (lib : Libraries K V) (token : String) (algorithm : JwtAlgorithm) (candidate : Candidate V) :
    Option (List UInt8) :=
  (selection lib token algorithm candidate).bind fun verifier => lib.verify verifier token

/-- The verification of a token that no candidate accepts. -/
def unaccepted (lib : Libraries K V) (token : String) (algorithm : JwtAlgorithm) (candidates : List (Candidate V))
    (selectedAny prohibited : Bool) : Verification :=
  if prohibited || (!candidates.isEmpty && (lib.header token).any prohibitedHeader) then .rejected
  else if selectedAny || candidates.any fun candidate => (selection lib token algorithm candidate).isSome then
    .signatureInvalid
  else .noCandidate

theorem unaccepted_cons {candidate : Candidate V} {candidates : List (Candidate V)} {selectedAny prohibited : Bool} :
    unaccepted lib token algorithm candidates (selectedAny || (selection lib token algorithm candidate).isSome)
      (prohibited || (lib.header token).any prohibitedHeader) =
    unaccepted lib token algorithm (candidate :: candidates) selectedAny prohibited := by
  simp only [unaccepted, List.isEmpty_cons, List.any_cons, Bool.or_assoc, Bool.not_false, Bool.true_and]
  cases (lib.header token).any prohibitedHeader <;> simp

/-- The loop goes on with the payload that the first accepting candidate accepts. -/
theorem run_verifyCandidates {candidates : List (Candidate V)} {selectedAny prohibited : Bool}
    {verification : Verification}
    (h : Run (verifyCandidates lib config token algorithm context candidates selectedAny prohibited) t
      (.ok (some verification))) :
    match candidates.findSome? (acceptedBy lib token algorithm) with
    | some payload => ∃ t', t' <:+ t ∧
        Run (claimsVerification lib config token context payload) t' (.ok (some verification))
    | none => verification = unaccepted lib token algorithm candidates selectedAny prohibited := by
  induction candidates generalizing t selectedAny prohibited with
  | nil =>
      obtain ⟨_, hverification⟩ := run_pure.mp h
      cases hverification
      simp [unaccepted]
  | cons candidate candidates ih =>
      obtain ⟨t₁, t₂, rfl, _, hend | hrest⟩ := run_unavailable_bind h
      · cases (run_pure.mp hend).2
      obtain ⟨t₃, t₄, rfl, _, hend | hrest⟩ := run_unavailable_bind hrest
      · cases (run_pure.mp hend).2
      rw [List.findSome?_cons]
      change Run (match acceptedBy lib token algorithm candidate with
        | some payload => claimsVerification lib config token context payload
        | none => verifyCandidates lib config token algorithm context candidates
            (selectedAny || (selection lib token algorithm candidate).isSome)
            (prohibited || (lib.header token).any prohibitedHeader)) t₄ _ at hrest
      cases haccepted : acceptedBy lib token algorithm candidate with
      | some payload =>
          rw [haccepted] at hrest
          exact ⟨t₄, ⟨t₁ ++ t₃, by simp⟩, hrest⟩
      | none =>
          rw [haccepted] at hrest
          have hih := ih hrest
          dsimp only
          split at hih
          · rename_i payload hfound
            rw [hfound]
            obtain ⟨t', hsuffix, hrun⟩ := hih
            exact ⟨t', hsuffix.trans ⟨t₁ ++ t₃, by simp⟩, hrun⟩
          · rename_i hfound
            rw [hfound, hih, unaccepted_cons]

/-! ## Verdicts -/

/-- The claims of an accepted payload are invalid, or the syntax of its scope is. -/
def ClaimsRejected (lib : Libraries K V) (config : Config) (payload : List UInt8) (t : Trace V) : Prop :=
  claimsOf lib payload = none ∨ ∃ claims, claimsOf lib payload = some claims ∧
    ((∀ now, ¬ ClaimsValid lib config claims now) ∨
      (∃ now, ⟨.unixSeconds, some now⟩ ∈ t ∧ ¬ ClaimsValid lib config claims now) ∨
      scopeSelection (member claims "scope") = .error .rejected)

/-- The candidate accepts the token, and its claims are valid at a wall time that was read. -/
def Authenticates (lib : Libraries K V) (config : Config) (token : String) (algorithm : JwtAlgorithm)
    (candidate : Candidate V) (t : Trace V) (claims : List (String × Json)) : Prop :=
  ∃ payload now, acceptedBy lib token algorithm candidate = some payload ∧ claimsOf lib payload = some claims ∧
    ⟨.unixSeconds, some now⟩ ∈ t ∧ ClaimsValid lib config claims now

/-- What a verification means for the candidates of the snapshot. -/
def Verdict (lib : Libraries K V) (config : Config) (token : String) (algorithm : JwtAlgorithm)
    (candidates : List (Candidate V)) (t : Trace V) : Verification → Prop
  | .valid caller => ∃ candidate ∈ candidates, ∃ claims, Authenticates lib config token algorithm candidate t claims ∧
      member claims "client_id" = some (.str caller.clientId) ∧ caller.bearerToken = token ∧
      scopeSelection (member claims "scope") = .ok caller.targetSelection
  | .forbidden => ∃ candidate ∈ candidates, ∃ claims, Authenticates lib config token algorithm candidate t claims ∧
      scopeSelection (member claims "scope") = .error .forbidden
  | .rejected => (lib.header token).any prohibitedHeader = true ∨ ∃ candidate ∈ candidates, ∃ payload,
      acceptedBy lib token algorithm candidate = some payload ∧ ClaimsRejected lib config payload t
  | .verifierUnavailable => True
  | .signatureInvalid => (∃ candidate ∈ candidates, (selection lib token algorithm candidate).isSome = true) ∧
      ∀ candidate ∈ candidates, acceptedBy lib token algorithm candidate = none
  | .noCandidate => ∀ candidate ∈ candidates, selection lib token algorithm candidate = none

theorem verdict_unaccepted {candidates : List (Candidate V)}
    (h : ∀ candidate ∈ candidates, acceptedBy lib token algorithm candidate = none) :
    Verdict lib config token algorithm candidates t (unaccepted lib token algorithm candidates false false) := by
  unfold unaccepted
  split_ifs with hprohibited hselected
  · simp only [Bool.false_or, Bool.and_eq_true] at hprohibited
    exact Or.inl hprohibited.2
  · rw [Bool.false_or, List.any_eq_true] at hselected
    exact ⟨hselected, h⟩
  · have hnone : ∀ candidate ∈ candidates, selection lib token algorithm candidate = none := by simpa using hselected
    exact hnone

theorem verdict_of_claims {candidates : List (Candidate V)} {candidate : Candidate V} (hmem : candidate ∈ candidates)
    (haccepted : acceptedBy lib token algorithm candidate = some payload) {verification : Verification}
    (h : Run (claimsVerification lib config token context payload) t (.ok (some verification))) :
    Verdict lib config token algorithm candidates t verification := by
  obtain ⟨r, t₁, t₂, rfl, hvalidate, hend⟩ := run_attempt_bind.mp h
  have hrejected (hclaims : ClaimsRejected lib config payload t₁) :
      Verdict lib config token algorithm candidates (t₁ ++ []) .rejected :=
    Or.inr ⟨candidate, hmem, payload, haccepted, by simpa using hclaims⟩
  cases run_validateClaims hvalidate with
  | cancelled => cases (run_pure.mp hend).2
  | unreadable hnone =>
      obtain ⟨rfl, hverification⟩ := run_pure.mp hend
      cases hverification
      exact hrejected (Or.inl hnone)
  | misshapen hclaims hinvalid =>
      obtain ⟨rfl, hverification⟩ := run_pure.mp hend
      cases hverification
      exact hrejected (Or.inr ⟨_, hclaims, Or.inl hinvalid⟩)
  | clockless _ =>
      obtain ⟨rfl, hverification⟩ := run_pure.mp hend
      cases hverification
      trivial
  | untimely hclaims hread hinvalid =>
      obtain ⟨rfl, hverification⟩ := run_pure.mp hend
      cases hverification
      exact hrejected (Or.inr ⟨_, hclaims, Or.inr (Or.inl ⟨_, hread, hinvalid⟩)⟩)
  | @decided claims now clientId hclaims hread hvalid hclient =>
      have hauth : Authenticates lib config token algorithm candidate (t₁ ++ []) claims :=
        ⟨payload, now, haccepted, hclaims, by simpa using hread, hvalid⟩
      cases hscope : scopeSelection (member claims "scope") with
      | ok target =>
          rw [hscope] at hend
          obtain ⟨rfl, hverification⟩ := run_pure.mp hend
          cases hverification
          exact ⟨candidate, hmem, claims, hauth, hclient, rfl, hscope⟩
      | error e =>
          rw [hscope] at hend
          cases e with
          | cancelled => cases (run_pure.mp hend).2
          | verifierUnavailable =>
              obtain ⟨rfl, hverification⟩ := run_pure.mp hend
              cases hverification
              trivial
          | forbidden =>
              obtain ⟨rfl, hverification⟩ := run_pure.mp hend
              cases hverification
              exact ⟨candidate, hmem, claims, hauth, hscope⟩
          | rejected =>
              obtain ⟨rfl, hverification⟩ := run_pure.mp hend
              cases hverification
              exact hrejected (Or.inr ⟨claims, hclaims, Or.inr (Or.inr hscope)⟩)

theorem Authenticates.mono {candidate : Candidate V} {t' : Trace V}
    (h : Authenticates lib config token algorithm candidate t claims) (hsub : t ⊆ t') :
    Authenticates lib config token algorithm candidate t' claims := by
  obtain ⟨payload, now, haccepted, hclaims, hread, hvalid⟩ := h
  exact ⟨payload, now, haccepted, hclaims, hsub hread, hvalid⟩

theorem ClaimsRejected.mono {t' : Trace V} (h : ClaimsRejected lib config payload t) (hsub : t ⊆ t') :
    ClaimsRejected lib config payload t' := by
  rcases h with hnone | ⟨claims, hclaims, hinvalid | ⟨now, hread, hinvalid⟩ | hscope⟩
  · exact Or.inl hnone
  · exact Or.inr ⟨claims, hclaims, Or.inl hinvalid⟩
  · exact Or.inr ⟨claims, hclaims, Or.inr (Or.inl ⟨now, hsub hread, hinvalid⟩)⟩
  · exact Or.inr ⟨claims, hclaims, Or.inr (Or.inr hscope)⟩

theorem Verdict.mono {candidates : List (Candidate V)} {t' : Trace V} {verification : Verification}
    (h : Verdict lib config token algorithm candidates t verification) (hsub : t ⊆ t') :
    Verdict lib config token algorithm candidates t' verification := by
  cases verification with
  | valid caller =>
      obtain ⟨candidate, hmem, claims, hauth, hrest⟩ := h
      exact ⟨candidate, hmem, claims, hauth.mono hsub, hrest⟩
  | forbidden =>
      obtain ⟨candidate, hmem, claims, hauth, hrest⟩ := h
      exact ⟨candidate, hmem, claims, hauth.mono hsub, hrest⟩
  | rejected =>
      rcases h with hprohibited | ⟨candidate, hmem, payload, haccepted, hclaims⟩
      · exact Or.inl hprohibited
      · exact Or.inr ⟨candidate, hmem, payload, haccepted, hclaims.mono hsub⟩
  | verifierUnavailable => trivial
  | noCandidate | signatureInvalid => exact h

theorem verdict_of_verifyCandidates {candidates : List (Candidate V)} {verification : Verification}
    (h : Run (verifyCandidates lib config token algorithm context candidates false false) t (.ok (some verification))) :
    Verdict lib config token algorithm candidates t verification := by
  have hfound := run_verifyCandidates h
  split at hfound
  · rename_i payload hsome
    obtain ⟨t', hsuffix, hrun⟩ := hfound
    obtain ⟨candidate, hmem, haccepted⟩ := List.exists_of_findSome?_eq_some hsome
    exact (verdict_of_claims hmem haccepted hrun).mono hsuffix.subset
  · rename_i hnone
    rw [hfound]
    exact verdict_unaccepted (List.findSome?_eq_none_iff.mp hnone)

/-- The snapshot was read, its age at a tick is of the category, and the verification is what it says. -/
structure Verified (lib : Libraries K V) (config : Config) (token : String) (algorithm : JwtAlgorithm) (t : Trace V)
    (snapshot : Snapshot V) (n : Instant) (classification : CacheClassification) (verification : Verification) :
    Prop where
  tick : ⟨.tick, n⟩ ∈ t
  age : classifyAge config.cachePolicy (snapshot.age n) = classification
  verdict : Verdict lib config token algorithm snapshot.candidates t verification

theorem verification_eq_some {c c' : CacheClassification} {v : Option Verification} {verification : Verification}
    (hc : c ≠ .coldOrExpired) (hc' : c' ≠ .coldOrExpired) (h : c.verification v = c'.verification (some verification)) :
    c = c' ∧ v = some verification := by
  cases v with
  | none => cases c' <;> cases h
  | some v => cases c <;> cases c' <;> simp_all [CacheClassification.verification]

theorem run_verifyGuarded {cache : Option (Snapshot V)} {classification : CacheClassification}
    {verification : Verification} (hclass : classification ≠ .coldOrExpired)
    (h : Run (verifyGuarded lib config token algorithm context cache) t
      (.ok (classification.verification (some verification)))) :
    ∃ snapshot n, cache = some snapshot ∧
      Verified lib config token algorithm t snapshot n classification verification := by
  obtain ⟨t₁, t₂, rfl, _, hend | hrest⟩ := run_unavailable_bind h
  · cases classification <;> cases (run_pure.mp hend).2
  cases cache with
  | none => cases classification <;> first | exact absurd rfl hclass | cases (run_pure.mp hrest).2
  | some snapshot =>
      obtain ⟨n, t₃, rfl, hverify⟩ := run_ask_bind.mp hrest
      dsimp only at hverify
      split at hverify
      · cases classification <;> first | exact absurd rfl hclass | cases (run_pure.mp hverify).2
      · rename_i hage
        obtain ⟨v, t₄, t₅, rfl, hcandidates, hend⟩ := run_bind_ok.mp hverify
        obtain ⟨rfl, hresult⟩ := run_pure.mp hend
        obtain ⟨rfl, rfl⟩ := verification_eq_some hage hclass (Except.ok.inj hresult).symm
        refine ⟨snapshot, n, rfl, by simp, rfl, (verdict_of_verifyCandidates hcandidates).mono ?_⟩
        simp

/-- A verification that was not cancelled read a snapshot that was not expired. -/
theorem run_verified {classification : CacheClassification} {verification : Verification}
    (hclass : classification ≠ .coldOrExpired) (h : Run (verifyCurrent lib config token algorithm context) t
      (.ok (classification.verification (some verification)))) :
    ∃ pre snapshot body n, PollsOnly pre ∧
      t = pre ++ ⟨.readCache context.deadline, some (some snapshot)⟩ :: (body ++ [⟨.dropRead, ()⟩]) ∧
      Verified lib config token algorithm body snapshot n classification verification := by
  obtain ⟨cache, body, ⟨pre, hpolls, rfl⟩, hbody⟩ := (run_verifyCurrent h).resolve_left fun hne => by
    cases classification <;> cases hne
  obtain ⟨snapshot, n, rfl, hverified⟩ := run_verifyGuarded hclass hbody
  exact ⟨pre, snapshot, body, n, hpolls, rfl, hverified⟩

end PermissionSync.Authenticator
