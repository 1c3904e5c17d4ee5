import PermissionSync.Auth.Lemmas.Verdicts

/-!
# How a call decides

Every decision of `authenticate` is the result of its last verification, except that a signature that was proven invalid
stays so when the refresh fails. What a verification counts for depends on whether and how the refresh ended before it.
-/

namespace PermissionSync.Authenticator

open PermissionSync.Auth PermissionSync.Base PermissionSync.Core PermissionSync.Wire
open PermissionSync.Runtime (Duration JwtAlgorithm)

variable {K V : Type} {lib : Libraries K V} {config : Config} {token : String} {algorithm : JwtAlgorithm}
  {context : SynchronizationContext} {t : Trace V} {g : UInt64}
  {r : Except AuthenticationError AuthenticatedTechnicalCaller}

/-! ## Verifications do not fail -/

theorem unavailable_total : Total (unavailable context : Io V Bool) := by
  refine .bind .ask fun cancelled => ?_
  cases cancelled with
  | true => exact .pure
  | false => exact .bind .ask fun _ => .pure

theorem verifyCandidates_total (candidates : List (Candidate V)) (selectedAny prohibited : Bool) :
    Total (verifyCandidates lib config token algorithm context candidates selectedAny prohibited) := by
  induction candidates generalizing selectedAny prohibited with
  | nil => exact .pure
  | cons candidate candidates ih =>
      refine .bind unavailable_total fun stopped => .ite .pure (.bind unavailable_total fun stopped => .ite .pure ?_)
      split
      · refine .bind .attempt fun result => ?_
        split <;> exact .pure
      · exact ih _ _

theorem verifyGuarded_total {cache : Option (Snapshot V)} :
    Total (verifyGuarded lib config token algorithm context cache) := by
  refine .bind unavailable_total fun stopped => .ite .pure ?_
  cases cache with
  | none => exact .pure
  | some snapshot => exact .bind .ask fun n => .ite .pure (.bind (verifyCandidates_total _ _ _) fun _ => .pure)

theorem verifyCurrent_total : Total (verifyCurrent lib config token algorithm context) := by
  intro t e h
  rcases run_verifyCurrent h with hr | ⟨cache, body, _, hbody⟩
  · cases hr
  · exact verifyGuarded_total _ _ hbody

/-! ## After a refresh -/

theorem refresh_error {e : AuthenticationError} (h : Run (refresh lib config context g) t (.error e)) :
    e = .cancelled ∨ e = .verifierUnavailable := by
  rcases run_refresh h with ⟨he, _⟩ | ⟨_, _, _, _, hrun⟩
  · cases he
    exact Or.inl rfl
  · cases hrun with
    | cancelled => exact Or.inl rfl
    | failed => exact Or.inr rfl

theorem run_refreshThenVerifyFresh (h : Run (refreshThenVerifyFresh lib config token algorithm context g) t r) :
    (∃ e, (e = .cancelled ∨ e = .verifierUnavailable) ∧ r = .error e) ∨
      ∃ u w v, t = u ++ w ∧ Run (refresh lib config context g) u (.ok ()) ∧
        Run (verifyCurrent lib config token algorithm context) w (.ok v) ∧ r = refreshedVerificationResult v := by
  rcases run_bind.mp h with ⟨e, hfail, rfl⟩ | ⟨_, u, w, rfl, hrefresh, hrest⟩
  · exact Or.inl ⟨e, refresh_error hfail, rfl⟩
  · obtain ⟨v, w₁, w₂, rfl, hverify, hend⟩ := verifyCurrent_total.run_bind hrest
    obtain ⟨rfl, rfl⟩ := run_lift.mp hend
    exact Or.inr ⟨u, w₁, v, by simp, hrefresh, hverify, rfl⟩

theorem run_refreshOrStaleFallback (h : Run (refreshOrStaleFallback lib config token algorithm context g) t r) :
    r = .error .cancelled ∨ ∃ u w v x, t = u ++ w ∧ Run (refresh lib config context g) u x ∧
      Run (verifyCurrent lib config token algorithm context) w (.ok v) ∧
      ((x = .ok () ∧ r = refreshedVerificationResult v) ∨
        (x = .error .verifierUnavailable ∧ r = staleCacheFallbackResult v)) := by
  obtain ⟨x, u, w, rfl, hrefresh, hrest⟩ := run_attempt_bind.mp h
  cases x with
  | ok _ =>
      obtain ⟨v, w₁, w₂, rfl, hverify, hend⟩ := verifyCurrent_total.run_bind hrest
      obtain ⟨rfl, rfl⟩ := run_lift.mp hend
      exact Or.inr ⟨u, w₁, v, _, by simp, hrefresh, hverify, Or.inl ⟨rfl, rfl⟩⟩
  | error e =>
      rcases refresh_error hrefresh with rfl | rfl
      · exact Or.inl (run_fail.mp hrest).2
      · obtain ⟨v, w₁, w₂, rfl, hverify, hend⟩ := verifyCurrent_total.run_bind hrest
        obtain ⟨rfl, rfl⟩ := run_lift.mp hend
        exact Or.inr ⟨u, w₁, v, _, by simp, hrefresh, hverify, Or.inr ⟨rfl, rfl⟩⟩

theorem run_refreshAfterProvenSignatureInvalid
    (h : Run (refreshAfterProvenSignatureInvalid lib config token algorithm context g) t r) :
    r = .error .cancelled ∨ r = .error .rejected ∨ ∃ u w v, t = u ++ w ∧ Run (refresh lib config context g) u (.ok ()) ∧
      Run (verifyCurrent lib config token algorithm context) w (.ok v) ∧ r = refreshedVerificationResult v := by
  obtain ⟨x, u, w, rfl, hrefresh, hrest⟩ := run_attempt_bind.mp h
  cases x with
  | ok _ =>
      obtain ⟨v, w₁, w₂, rfl, hverify, hend⟩ := verifyCurrent_total.run_bind hrest
      obtain ⟨rfl, rfl⟩ := run_lift.mp hend
      exact Or.inr (Or.inr ⟨u, w₁, v, by simp, hrefresh, hverify, rfl⟩)
  | error e =>
      rcases refresh_error hrefresh with rfl | rfl
      · exact Or.inl (run_fail.mp hrest).2
      · exact Or.inr (Or.inl (run_fail.mp hrest).2)

/-! ## Acceptance -/

/-- The token was authenticated, whether or not its scope is allowed. -/
def Accepted (r : Except AuthenticationError AuthenticatedTechnicalCaller) : Prop :=
  (∃ caller, r = .ok caller) ∨ r = .error .forbidden

theorem not_accepted {e : AuthenticationError} (he : e ≠ .forbidden) : ¬ Accepted (.error e) := by
  rintro (⟨_, h⟩ | h)
  · cases h
  · exact he (Except.error.inj h)

/-- A verification after a refresh accepts only what it found in a fresh snapshot. -/
theorem accepted_of_refreshed {v : CacheVerification} (h : r = refreshedVerificationResult v) (hr : Accepted r) :
    ∃ verification, v = .fresh verification ∧ verificationResult verification = r := by
  subst h
  match v with
  | .fresh verification => exact ⟨verification, rfl, rfl⟩
  | .stale (.valid _) | .stale .forbidden | .stale .rejected | .stale .verifierUnavailable | .stale .noCandidate
  | .stale .signatureInvalid | .coldOrExpired | .cancelled => exact absurd hr (not_accepted nofun)

theorem accepted_of_fallback {v : CacheVerification} (h : r = staleCacheFallbackResult v) (hr : Accepted r) :
    ∃ verification, (v = .fresh verification ∨ v = .stale verification) ∧ verificationResult verification = r := by
  subst h
  match v with
  | .fresh verification => exact ⟨verification, Or.inl rfl, rfl⟩
  | .stale (.valid caller) => exact ⟨.valid caller, Or.inr rfl, rfl⟩
  | .stale .forbidden => exact ⟨.forbidden, Or.inr rfl, rfl⟩
  | .stale .rejected | .stale .verifierUnavailable | .stale .noCandidate | .stale .signatureInvalid | .coldOrExpired
  | .cancelled => exact absurd hr (not_accepted nofun)

/-- The call ends with a verification of its result, against a fresh snapshot, or against a stale one after its refresh
failed. -/
structure Concluded (lib : Libraries K V) (config : Config) (token : String) (algorithm : JwtAlgorithm)
    (context : SynchronizationContext) (g : UInt64) (t : Trace V)
    (r : Except AuthenticationError AuthenticatedTechnicalCaller) (u w : Trace V) (c : CacheClassification)
    (verification : Verification) : Prop where
  trace : t = u ++ w
  run : Run (verifyCurrent lib config token algorithm context) w (.ok (c.verification (some verification)))
  age : c = .fresh ∨ c = .stale ∧ ∃ u₁ u₂, u = u₁ ++ u₂ ∧
    Run (refresh lib config context g) u₂ (.error .verifierUnavailable)
  result : verificationResult verification = r

/-- Some verification concludes the call. -/
def Concludes (lib : Libraries K V) (config : Config) (token : String) (algorithm : JwtAlgorithm)
    (context : SynchronizationContext) (g : UInt64) (t : Trace V)
    (r : Except AuthenticationError AuthenticatedTechnicalCaller) : Prop :=
  ∃ u w c verification, Concluded lib config token algorithm context g t r u w c verification

theorem Concludes.prepend (h : Concludes lib config token algorithm context g t r) (t' : Trace V) :
    Concludes lib config token algorithm context g (t' ++ t) r := by
  obtain ⟨u, w, c, verification, rfl, hrun, hage, hresult⟩ := h
  refine ⟨t' ++ u, w, c, verification, by simp, hrun, hage.imp_right fun hstale => ⟨hstale.1, ?_⟩, hresult⟩
  obtain ⟨u₁, u₂, rfl, hrefresh⟩ := hstale.2
  exact ⟨t' ++ u₁, u₂, by simp, hrefresh⟩

theorem concludes_refreshed {u w : Trace V} {v : CacheVerification}
    (hverify : Run (verifyCurrent lib config token algorithm context) w (.ok v)) (h : r = refreshedVerificationResult v)
    (hr : Accepted r) : Concludes lib config token algorithm context g (u ++ w) r := by
  obtain ⟨verification, rfl, hv⟩ := accepted_of_refreshed h hr
  exact ⟨u, w, .fresh, verification, rfl, hverify, Or.inl rfl, hv⟩

theorem concludes_refreshThenVerifyFresh (h : Run (refreshThenVerifyFresh lib config token algorithm context g) t r)
    (hr : Accepted r) : Concludes lib config token algorithm context g t r := by
  rcases run_refreshThenVerifyFresh h with ⟨e, he, rfl⟩ | ⟨u, w, v, rfl, _, hverify, hresult⟩
  · refine absurd hr (not_accepted ?_)
    rcases he with rfl | rfl <;> nofun
  · exact concludes_refreshed hverify hresult hr

theorem concludes_refreshOrStaleFallback (h : Run (refreshOrStaleFallback lib config token algorithm context g) t r)
    (hr : Accepted r) : Concludes lib config token algorithm context g t r := by
  rcases run_refreshOrStaleFallback h with rfl | ⟨u, w, v, x, rfl, hrefresh, hverify, ⟨_, hresult⟩ | ⟨rfl, hresult⟩⟩
  · exact absurd hr (not_accepted nofun)
  · exact concludes_refreshed hverify hresult hr
  · obtain ⟨verification, rfl | rfl, hv⟩ := accepted_of_fallback hresult hr
    · exact ⟨u, w, .fresh, verification, rfl, hverify, Or.inl rfl, hv⟩
    · exact ⟨u, w, .stale, verification, rfl, hverify, Or.inr ⟨rfl, [], u, rfl, hrefresh⟩, hv⟩

theorem concludes_refreshAfterProven
    (h : Run (refreshAfterProvenSignatureInvalid lib config token algorithm context g) t r) (hr : Accepted r) :
    Concludes lib config token algorithm context g t r := by
  rcases run_refreshAfterProvenSignatureInvalid h with rfl | rfl | ⟨u, w, v, rfl, _, hverify, hresult⟩
  · exact absurd hr (not_accepted nofun)
  · exact absurd hr (not_accepted nofun)
  · exact concludes_refreshed hverify hresult hr

/-- A token is accepted by the last verification only. -/
theorem concludes_of_run {c : CacheClassification}
    (h : Run (afterClassification lib config token algorithm context g c) t r) (hr : Accepted r) :
    Concludes lib config token algorithm context g t r := by
  cases c with
  | stale => exact concludes_refreshOrStaleFallback h hr
  | coldOrExpired => exact concludes_refreshThenVerifyFresh h hr
  | fresh =>
      obtain ⟨v, t₁, t₂, rfl, hverify, hrest⟩ := verifyCurrent_total.run_bind h
      match v with
      | .cancelled | .stale .rejected | .stale .verifierUnavailable | .fresh .rejected | .fresh .verifierUnavailable =>
          obtain ⟨_, rfl⟩ := run_fail.mp hrest
          exact absurd hr (not_accepted nofun)
      | .fresh .forbidden =>
          obtain ⟨rfl, rfl⟩ := run_fail.mp hrest
          exact ⟨[], t₁, .fresh, .forbidden, by simp, hverify, Or.inl rfl, rfl⟩
      | .fresh (.valid caller) =>
          obtain ⟨rfl, rfl⟩ := run_pure.mp hrest
          exact ⟨[], t₁, .fresh, .valid caller, by simp, hverify, Or.inl rfl, rfl⟩
      | .coldOrExpired | .fresh .noCandidate => exact (concludes_refreshThenVerifyFresh hrest hr).prepend t₁
      | .stale (.valid _) | .stale .forbidden | .stale .noCandidate =>
          exact (concludes_refreshOrStaleFallback hrest hr).prepend t₁
      | .stale .signatureInvalid | .fresh .signatureInvalid => exact (concludes_refreshAfterProven hrest hr).prepend t₁

/-! ## Rejection -/

theorem rejected_of_refreshed {v : CacheVerification} (h : refreshedVerificationResult v = .error .rejected) :
    ∃ c verification, c ≠ .coldOrExpired ∧ v = CacheClassification.verification c (some verification) ∧
      (verification = .rejected ∨ verification = .signatureInvalid ∨ verification = .noCandidate) := by
  match v with
  | .fresh .rejected => exact ⟨.fresh, .rejected, nofun, rfl, by simp⟩
  | .fresh .signatureInvalid => exact ⟨.fresh, .signatureInvalid, nofun, rfl, by simp⟩
  | .fresh .noCandidate => exact ⟨.fresh, .noCandidate, nofun, rfl, by simp⟩
  | .stale .rejected => exact ⟨.stale, .rejected, nofun, rfl, by simp⟩
  | .stale .signatureInvalid => exact ⟨.stale, .signatureInvalid, nofun, rfl, by simp⟩
  | .stale .noCandidate => exact ⟨.stale, .noCandidate, nofun, rfl, by simp⟩
  | .fresh (.valid _) | .fresh .forbidden | .fresh .verifierUnavailable | .stale (.valid _) | .stale .forbidden
  | .stale .verifierUnavailable | .coldOrExpired | .cancelled => cases h

/-- After a failed refresh an unknown key is rejected only by a fresh snapshot. -/
theorem rejected_of_fallback {v : CacheVerification} (h : staleCacheFallbackResult v = .error .rejected) :
    v = .fresh .noCandidate ∨ ∃ c verification, c ≠ .coldOrExpired ∧
      v = CacheClassification.verification c (some verification) ∧
      (verification = .rejected ∨ verification = .signatureInvalid) := by
  match v with
  | .fresh .rejected => exact Or.inr ⟨.fresh, .rejected, nofun, rfl, by simp⟩
  | .fresh .signatureInvalid => exact Or.inr ⟨.fresh, .signatureInvalid, nofun, rfl, by simp⟩
  | .fresh .noCandidate => exact Or.inl rfl
  | .stale .rejected => exact Or.inr ⟨.stale, .rejected, nofun, rfl, by simp⟩
  | .stale .signatureInvalid => exact Or.inr ⟨.stale, .signatureInvalid, nofun, rfl, by simp⟩
  | .fresh (.valid _) | .fresh .forbidden | .fresh .verifierUnavailable | .stale (.valid _) | .stale .forbidden
  | .stale .verifierUnavailable | .stale .noCandidate | .coldOrExpired | .cancelled => cases h

/-- The cache was stale when it was classified, or in a verification among the operations. -/
def StaleBefore (lib : Libraries K V) (config : Config) (token : String) (algorithm : JwtAlgorithm)
    (context : SynchronizationContext) (c : CacheClassification) (u : Trace V) : Prop :=
  c = .stale ∨ ∃ w u' verification, u = w ++ u' ∧
    Run (verifyCurrent lib config token algorithm context) w (.ok (.stale verification))

/-- Why a call rejects a token after it classified the cache: a verification proved the token invalid, or the key was
unknown after the refresh, or it was unknown to a fresh snapshot although the cache had been stale. -/
inductive Rejection (lib : Libraries K V) (config : Config) (token : String) (algorithm : JwtAlgorithm)
    (context : SynchronizationContext) (g : UInt64) (c : CacheClassification) : Trace V → Prop where
  | invalid {u w u' : Trace V} {c' : CacheClassification} {verification : Verification} : c' ≠ .coldOrExpired →
      Run (verifyCurrent lib config token algorithm context) w (.ok (c'.verification (some verification))) →
      verification = .rejected ∨ verification = .signatureInvalid →
      Rejection lib config token algorithm context g c (u ++ w ++ u')
  | refreshed {u u' w : Trace V} {c' : CacheClassification} : c' ≠ .coldOrExpired →
      Run (refresh lib config context g) u' (.ok ()) →
      Run (verifyCurrent lib config token algorithm context) w (.ok (c'.verification (some .noCandidate))) →
      Rejection lib config token algorithm context g c (u ++ u' ++ w)
  | replaced {u w : Trace V} : StaleBefore lib config token algorithm context c u →
      Run (verifyCurrent lib config token algorithm context) w (.ok (.fresh .noCandidate)) →
      Rejection lib config token algorithm context g c (u ++ w)

variable {c : CacheClassification}

theorem rejection_of_refreshed {u u' w : Trace V} {v : CacheVerification}
    (hrefresh : Run (refresh lib config context g) u' (.ok ()))
    (hverify : Run (verifyCurrent lib config token algorithm context) w (.ok v))
    (h : .error .rejected = refreshedVerificationResult v) :
    Rejection lib config token algorithm context g c (u ++ u' ++ w) := by
  obtain ⟨c', verification, hc', rfl, hrejected | hinvalid | hunknown⟩ := rejected_of_refreshed h.symm
  · rw [← List.append_nil (u ++ u' ++ w)]
    exact .invalid hc' hverify (Or.inl hrejected)
  · rw [← List.append_nil (u ++ u' ++ w)]
    exact .invalid hc' hverify (Or.inr hinvalid)
  · exact .refreshed hc' hrefresh (hunknown ▸ hverify)

theorem rejection_refreshThenVerifyFresh {u : Trace V}
    (h : Run (refreshThenVerifyFresh lib config token algorithm context g) t (.error .rejected)) :
    Rejection lib config token algorithm context g c (u ++ t) ∧ Occurs (refresh lib config context g) () t := by
  rcases run_refreshThenVerifyFresh h with ⟨e, rfl | rfl, he⟩ | ⟨u', w, v, rfl, hrefresh, hverify, hresult⟩
  · cases he
  · cases he
  · rw [← List.append_assoc]
    exact ⟨rejection_of_refreshed hrefresh hverify hresult, [], u', w, rfl, hrefresh⟩

theorem rejection_refreshOrStaleFallback {u : Trace V}
    (h : Run (refreshOrStaleFallback lib config token algorithm context g) t (.error .rejected))
    (hstale : ∀ u', StaleBefore lib config token algorithm context c (u ++ u')) :
    Rejection lib config token algorithm context g c (u ++ t) := by
  rcases run_refreshOrStaleFallback h with he | ⟨u', w, v, x, rfl, hrefresh, hverify, ⟨rfl, hresult⟩ | ⟨_, hresult⟩⟩
  · cases he
  · rw [← List.append_assoc]
    exact rejection_of_refreshed hrefresh hverify hresult
  · rw [← List.append_assoc]
    obtain rfl | ⟨c', verification, hc', rfl, hrejected⟩ := rejected_of_fallback hresult.symm
    · exact .replaced (hstale u') hverify
    · rw [← List.append_nil (u ++ u' ++ w)]
      exact .invalid hc' hverify hrejected

theorem rejection_of_verification {w : Trace V} {verification : Verification} (c' : CacheClassification)
    (hc' : c' ≠ .coldOrExpired)
    (hverify : Run (verifyCurrent lib config token algorithm context) w (.ok (c'.verification (some verification))))
    (h : verification = .rejected ∨ verification = .signatureInvalid) :
    Rejection lib config token algorithm context g c (w ++ t) :=
  .invalid (u := []) hc' hverify h

theorem rejection_of_run (h : Run (afterClassification lib config token algorithm context g c) t (.error .rejected)) :
    Rejection lib config token algorithm context g c t := by
  cases c with
  | stale => exact rejection_refreshOrStaleFallback (u := []) h fun _ => Or.inl rfl
  | coldOrExpired => exact (rejection_refreshThenVerifyFresh (u := []) h).1
  | fresh =>
      obtain ⟨v, t₁, t₂, rfl, hverify, hrest⟩ := verifyCurrent_total.run_bind h
      match v with
      | .cancelled | .stale .verifierUnavailable | .fresh .verifierUnavailable | .fresh .forbidden =>
          cases (run_fail.mp hrest).2
      | .fresh (.valid caller) => cases (run_pure.mp hrest).2
      | .stale .rejected => exact rejection_of_verification .stale nofun hverify (Or.inl rfl)
      | .fresh .rejected => exact rejection_of_verification .fresh nofun hverify (Or.inl rfl)
      | .coldOrExpired | .fresh .noCandidate => exact (rejection_refreshThenVerifyFresh hrest).1
      | .stale (.valid _) | .stale .forbidden | .stale .noCandidate =>
          exact rejection_refreshOrStaleFallback hrest fun u' => Or.inr ⟨t₁, u', _, rfl, hverify⟩
      | .stale .signatureInvalid => exact rejection_of_verification .stale nofun hverify (Or.inr rfl)
      | .fresh .signatureInvalid => exact rejection_of_verification .fresh nofun hverify (Or.inr rfl)

/-- The cache was empty or expired when it was classified, or in the verification that follows. -/
def ColdBefore (lib : Libraries K V) (config : Config) (token : String) (algorithm : JwtAlgorithm)
    (context : SynchronizationContext) (c : CacheClassification) (t : Trace V) : Prop :=
  c = .coldOrExpired ∨ (c = .fresh ∧ ∃ w u, t = w ++ u ∧
    Run (verifyCurrent lib config token algorithm context) w (.ok .coldOrExpired))

/-- Without a usable snapshot a token is rejected only after a refresh that succeeded. -/
theorem refreshed_of_cold (h : Run (afterClassification lib config token algorithm context g c) t (.error .rejected))
    (hcold : ColdBefore lib config token algorithm context c t) : Occurs (refresh lib config context g) () t := by
  rcases hcold with rfl | ⟨rfl, w, u, rfl, hverify⟩
  · exact (rejection_refreshThenVerifyFresh (c := .coldOrExpired) (u := []) h).2
  · have hrest := hverify.bind_iff.mp h
    exact (rejection_refreshThenVerifyFresh (c := .fresh) (u := []) hrest).2.prepend w

end PermissionSync.Authenticator
