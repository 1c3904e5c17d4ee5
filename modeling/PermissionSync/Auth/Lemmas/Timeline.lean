import PermissionSync.Auth.Lemmas.Decisions

/-!
# What the timeline says about a call

Time does not go back, only a store changes the cache, and a guarded read shows what is installed.
-/

namespace PermissionSync.Authenticator

open PermissionSync.Auth PermissionSync.Base PermissionSync.Core PermissionSync.Wire
open PermissionSync.Runtime (Duration JwtAlgorithm VerificationCachePolicy)

variable {ι K V : Type} [DecidableEq ι] {lib : Libraries K V} {config : Config} {k : ι} {e : Event (auth V)}
  {s s' m : Shared ι V} {act : Act ι (auth V)} {acts : List (Act ι (auth V))}

/-! ## Steps -/

@[simp] theorem clock_perform : (s.perform k e).clock = s.clock := by
  unfold Shared.perform
  split <;> rfl

theorem cache_perform (h : ∀ snapshot, e ≠ ⟨.store snapshot, ()⟩) : (s.perform k e).cache = s.cache := by
  unfold Shared.perform
  split
  case h_4 snapshot _ => exact absurd rfl (h snapshot)
  all_goals rfl

theorem clock_le_of_step (h : step s act s') : s.clock ≤ s'.clock := by
  cases h with
  | own _ => simp
  | other hle => exact hle

theorem clock_le (h : Path step s acts s') : s.clock ≤ s'.clock :=
  h.invariant (P := fun m => s.clock ≤ m.clock) le_rfl fun _ _ _ hle hstep => hle.trans (clock_le_of_step hstep)

/-- The step installs the snapshot. -/
def Installs (act : Act ι (auth V)) (snapshot : Snapshot V) : Prop := ∃ k, act = .own k ⟨.store snapshot, ()⟩

theorem cache_of_step (h : step s act s') (hno : ∀ snapshot, ¬ Installs act snapshot) : s'.cache = s.cache := by
  cases h with
  | own _ => exact cache_perform fun snapshot he => hno snapshot ⟨_, by rw [he]⟩
  | other _ => rfl

/-- Along a path nothing is installed and the cache stays, or the last snapshot that is installed is in the cache. -/
theorem cache_cases (h : Path step s acts s') :
    ((∀ act ∈ acts, ∀ snapshot, ¬ Installs act snapshot) ∧ s'.cache = s.cache) ∨
      ∃ act ∈ acts, ∃ snapshot, Installs act snapshot ∧ s'.cache = some snapshot := by
  induction h with
  | nil => exact Or.inl ⟨nofun, rfl⟩
  | @cons s m s' act acts hact hrest ih =>
      rcases ih with ⟨hno, hcache⟩ | ⟨act', hmem, snapshot, hinstalls, hcache⟩
      · by_cases hone : ∃ snapshot, Installs act snapshot
        · obtain ⟨snapshot, k, rfl⟩ := hone
          refine Or.inr ⟨_, List.mem_cons_self, snapshot, ⟨k, rfl⟩, ?_⟩
          rw [hcache]
          cases hact
          rfl
        · have hone := not_exists.mp hone
          exact Or.inl ⟨List.forall_mem_cons.mpr ⟨hone, hno⟩, hcache.trans (cache_of_step hact hone)⟩
      · exact Or.inr ⟨act', List.mem_cons_of_mem _ hmem, snapshot, hinstalls, hcache⟩

/-! ## Operations of one call -/

/-- The state in which a call performed an operation. -/
theorem exists_state_of_eventsOf (h : Path step s acts s') {pre post : Trace V}
    (he : eventsOf k acts = pre ++ e :: post) :
    ∃ before after m, acts = before ++ .own k e :: after ∧ eventsOf k before = pre ∧ eventsOf k after = post ∧
      Path step s before m ∧ Observes m e ∧ Path step (m.perform k e) after s' := by
  obtain ⟨before, after, rfl, hbefore, hafter⟩ := exists_of_eventsOf_eq he
  obtain ⟨m, hpath, hrest⟩ := path_append.mp h
  obtain ⟨m', hstep, hrest⟩ := path_cons.mp hrest
  cases hstep with
  | own hobserves => exact ⟨before, after, m, rfl, hbefore, hafter, hpath, hobserves, hrest⟩

/-- The states in which a call performed two operations. -/
theorem exists_states_of_eventsOf (h : Path step s acts s') {e₁ e₂ : Event (auth V)} {pre mid post : Trace V}
    (he : eventsOf k acts = pre ++ e₁ :: (mid ++ e₂ :: post)) :
    ∃ before middle rest m₁ m₂, acts = before ++ .own k e₁ :: (middle ++ .own k e₂ :: rest) ∧
      eventsOf k before = pre ∧ eventsOf k middle = mid ∧ eventsOf k rest = post ∧
      Path step s (before ++ .own k e₁ :: middle) m₂ ∧ Observes m₁ e₁ ∧
      Path step (m₁.perform k e₁) middle m₂ ∧ Observes m₂ e₂ ∧ Path step (m₂.perform k e₂) rest s' := by
  obtain ⟨before, after, m₁, rfl, hbefore, hafter, hpath, hobserves₁, hrest⟩ := exists_state_of_eventsOf h he
  obtain ⟨middle, rest, m₂, rfl, hmiddle, hrest', hpath₂, hobserves₂, hend⟩ := exists_state_of_eventsOf hrest hafter
  exact ⟨before, middle, rest, m₁, m₂, rfl, hbefore, hmiddle, hrest',
    path_append.mpr ⟨m₁, hpath, .cons (.own hobserves₁) hpath₂⟩, hobserves₁, hpath₂, hobserves₂, hend⟩

/-- A tick is read between the ends of the path. -/
theorem tick_bounds (h : Path step s acts s') {n : Instant} (hmem : ⟨.tick, n⟩ ∈ eventsOf k acts) :
    s.clock ≤ n ∧ n ≤ s'.clock := by
  obtain ⟨pre, post, he⟩ := List.append_of_mem hmem
  obtain ⟨before, after, m, _, _, _, hbefore, hobserves, hafter⟩ := exists_state_of_eventsOf h he
  obtain rfl : n = m.clock := hobserves
  refine ⟨clock_le hbefore, ?_⟩
  have hle := clock_le hafter
  rwa [clock_perform] at hle

/-- While nothing is installed every read shows the same cache. -/
theorem read_eq_cache (h : Path step s acts s') (hno : ∀ act ∈ acts, ∀ snapshot, ¬ Installs act snapshot)
    {deadline : Instant} {cache : Option (Snapshot V)} (hmem : ⟨.readCache deadline, some cache⟩ ∈ eventsOf k acts) :
    cache = s.cache := by
  obtain ⟨pre, post, he⟩ := List.append_of_mem hmem
  obtain ⟨before, after, m, rfl, _, _, hbefore, hobserves, _⟩ := exists_state_of_eventsOf h he
  rcases cache_cases hbefore with ⟨_, hcache⟩ | ⟨act, hact, snapshot, hinstalls, _⟩
  · exact hobserves.2.trans hcache
  · exact absurd hinstalls (hno act (List.mem_append_left _ hact) snapshot)

/-! ## Ages -/

theorem classifyAge_fresh {policy : VerificationCachePolicy} {age : Option Duration}
    (h : classifyAge policy age = .fresh) : ∃ d, age = some d ∧ d ≤ policy.freshness := by
  cases age with
  | none => cases h
  | some d =>
      refine ⟨d, rfl, ?_⟩
      by_contra hle
      rw [classifyAge, if_neg hle] at h
      split at h <;> cases h

theorem classifyAge_stale {policy : VerificationCachePolicy} {age : Option Duration}
    (h : classifyAge policy age = .stale) :
    ∃ d, age = some d ∧ policy.freshness < d ∧ d ≤ policy.freshness + policy.staleIfError := by
  cases age with
  | none => cases h
  | some d =>
      refine ⟨d, rfl, ?_⟩
      rw [classifyAge] at h
      split at h
      · cases h
      · split at h
        · rename_i hwithin
          unfold withinStale durationSum at hwithin
          split_ifs at hwithin
          simpa using hwithin
        · cases h

/-- A snapshot that was stale does not become fresh. -/
theorem not_fresh_of_stale {policy : VerificationCachePolicy} {snapshot : Snapshot V} {n n' : Instant} (hle : n ≤ n')
    (hstale : classifyAge policy (snapshot.age n) = .stale) : classifyAge policy (snapshot.age n') ≠ .fresh := by
  intro hfresh
  obtain ⟨d, hd, hlt, _⟩ := classifyAge_stale hstale
  obtain ⟨d', hd', hle'⟩ := classifyAge_fresh hfresh
  obtain ⟨_, ⟨⟩⟩ := Option.ite_none_right_eq_some.mp hd
  obtain ⟨_, ⟨⟩⟩ := Option.ite_none_right_eq_some.mp hd'
  exact absurd hle' (not_le.mpr (hlt.trans_le (Nat.sub_le_sub_right hle snapshot.acquired)))

/-! ## The credential -/

theorem preflightHeader_ok {token : String} {allowed : List JwtAlgorithm} {algorithm : JwtAlgorithm}
    (h : preflightHeader lib token allowed = .ok algorithm) :
    ∃ header, lib.header token = some header ∧ prohibitedHeader header = false ∧
      header.algorithm = some (algorithmName algorithm) ∧ algorithm ∈ allowed := by
  simp only [preflightHeader, bind_eq_ok, okOr_eq_ok, ensure_eq_ok] at h
  obtain ⟨header, hheader, _, ⟨hcrit, hb64⟩, _, _, name, hname, hfind⟩ := h
  have heq : algorithmName algorithm = name := by simpa using List.find?_some hfind
  exact ⟨header, hheader, by simp [prohibitedHeader, hcrit, hb64], heq ▸ hname, List.mem_of_find?_eq_some hfind⟩

/-- The candidate has the algorithm of the token, and the key id of its header if that has one. -/
structure CandidateMatches (algorithm : JwtAlgorithm) (header : JwsHeader) (candidate : Candidate V) : Prop where
  algorithm : candidate.algorithm = algorithm
  kid : ∀ kid, header.keyId = some kid → candidate.kid = some kid

/-- The verifier of the candidate for a token with the header. -/
def Candidate.verifier (candidate : Candidate V) (header : JwsHeader) : V :=
  if header.keyId.isSome then candidate.withKid else candidate.withoutKid

/-- A matching candidate is selected with its verifier. -/
theorem selection_eq_some {token : String} {allowed : List JwtAlgorithm} {algorithm : JwtAlgorithm} {header : JwsHeader}
    {candidate : Candidate V} {verifier : V} (h : preflightHeader lib token allowed = .ok algorithm)
    (hheader : lib.header token = some header) : selection lib token algorithm candidate = some verifier ↔
      CandidateMatches algorithm header candidate ∧ candidate.verifier header = verifier := by
  obtain ⟨header', hheader', hallowed, hname, _⟩ := preflightHeader_ok h
  cases hheader.symm.trans hheader'
  rw [selection, hheader, Option.bind_some, selectVerifier, hallowed, if_neg Bool.false_ne_true, hname]
  simp only [ne_eq, not_true_eq_false, or_false]
  by_cases halgorithm : candidate.algorithm = algorithm
  · rw [if_neg (not_not.mpr halgorithm), Candidate.verifier]
    cases hkid : header.keyId with
    | none =>
        have hmatches : CandidateMatches algorithm header candidate :=
          ⟨halgorithm, fun kid hsome => by cases hkid.symm.trans hsome⟩
        simp [hmatches]
    | some kid =>
        by_cases hsame : candidate.kid = some kid
        · have hmatches : CandidateMatches algorithm header candidate := by
            refine ⟨halgorithm, fun kid' hsome => ?_⟩
            cases hkid.symm.trans hsome
            exact hsame
          simp [hmatches, hsame]
        · have hother : ¬ CandidateMatches algorithm header candidate := fun hmatches => hsame (hmatches.kid kid hkid)
          simp [hother, hsame]
  · rw [if_pos halgorithm]
    exact iff_of_false nofun fun hmatches => halgorithm hmatches.1.algorithm

theorem acceptedBy_eq_some {token : String} {allowed : List JwtAlgorithm}
    {algorithm : JwtAlgorithm} {header : JwsHeader} {candidate : Candidate V} {payload : List UInt8}
    (h : preflightHeader lib token allowed = .ok algorithm) (hheader : lib.header token = some header) :
    acceptedBy lib token algorithm candidate = some payload ↔
      CandidateMatches algorithm header candidate ∧ lib.verify (candidate.verifier header) token = some payload := by
  simp only [acceptedBy, Option.bind_eq_some_iff, selection_eq_some h hheader]
  constructor
  · rintro ⟨_, ⟨hmatches, rfl⟩, haccepts⟩
    exact ⟨hmatches, haccepts⟩
  · rintro ⟨hmatches, haccepts⟩
    exact ⟨_, ⟨hmatches, rfl⟩, haccepts⟩

theorem preflightHeader_error {token : String} {allowed : List JwtAlgorithm} {e : AuthenticationError}
    (h : preflightHeader lib token allowed = .error e) : e = .rejected := by
  have hkid {header : JwsHeader} (he : checkKid header = .error e) : e = .rejected := by
    unfold checkKid at he
    split at he
    · cases he
    · simp only [bind_eq_error, okOr_eq_error, ensure_eq_error] at he
      rcases he with ⟨_, rfl⟩ | ⟨_, _, _, rfl⟩ <;> rfl
  simp only [preflightHeader, bind_eq_error, okOr_eq_error, ensure_eq_error] at h
  rcases h with ⟨_, rfl⟩ | ⟨_, _, ⟨_, rfl⟩ | ⟨_, _, he | ⟨_, _, ⟨_, rfl⟩ | ⟨_, _, _, rfl⟩⟩⟩⟩
  · rfl
  · rfl
  · exact hkid he
  · rfl
  · rfl

theorem run_preflight {request : AuthenticationRequest} {t : Trace V}
    {r : Except AuthenticationError (String × JwtAlgorithm)} (h : Run (preflight lib config request) t r) :
    PollsOnly t ∧ (r = .error .cancelled ∨
      (r = .error .rejected ∧ ¬ ∃ token algorithm, request.rawCompactToken = some token ∧
        byteLength token ≤ maxTokenBytes ∧ preflightHeader lib token config.algorithms = .ok algorithm) ∨
      ∃ token algorithm, request.rawCompactToken = some token ∧ byteLength token ≤ maxTokenBytes ∧
        preflightHeader lib token config.algorithms = .ok algorithm ∧ r = .ok (token, algorithm)) := by
  refine ⟨Only.of_run ?_ h, ?_⟩
  · refine .bind checkContext_polls fun _ => .bind .lift fun _ => .bind .lift fun _ =>
      .bind checkContext_polls fun _ => ?_
    exact .bind .lift fun _ => .bind checkContext_polls fun _ => .pure
  rcases run_checkContext_bind h with ⟨_, rfl⟩ | ⟨t₁, t₂, rfl, _, h₁⟩
  · exact Or.inl rfl
  rcases run_lift_bind.mp h₁ with ⟨e, htoken, _, rfl⟩ | ⟨token, htoken, h₂⟩
  · obtain ⟨hnone, rfl⟩ := okOr_eq_error.mp htoken
    refine Or.inr (Or.inl ⟨rfl, ?_⟩)
    rintro ⟨token, _, hsome, _⟩
    cases hnone.symm.trans hsome
  have htoken := okOr_eq_ok.mp htoken
  rcases run_lift_bind.mp h₂ with ⟨e, hsize, _, rfl⟩ | ⟨_, hsize, h₃⟩
  · obtain ⟨hlong, rfl⟩ := ensure_eq_error.mp hsize
    refine Or.inr (Or.inl ⟨rfl, ?_⟩)
    rintro ⟨token', _, hsome, hshort, _⟩
    cases htoken.symm.trans hsome
    exact hlong hshort
  have hsize := ensure_eq_ok.mp hsize
  rcases run_checkContext_bind h₃ with ⟨_, rfl⟩ | ⟨t₃, t₄, rfl, _, h₄⟩
  · exact Or.inl rfl
  rcases run_lift_bind.mp h₄ with ⟨e, hheader, _, rfl⟩ | ⟨algorithm, hheader, h₅⟩
  · obtain rfl := preflightHeader_error hheader
    refine Or.inr (Or.inl ⟨rfl, ?_⟩)
    rintro ⟨token', _, hsome, _, hok⟩
    cases htoken.symm.trans hsome
    cases hheader.symm.trans hok
  rcases run_checkContext_bind h₅ with ⟨_, rfl⟩ | ⟨t₅, t₆, rfl, _, hend⟩
  · exact Or.inl rfl
  exact Or.inr (Or.inr ⟨token, algorithm, htoken, hsize, hheader, (run_pure.mp hend).2⟩)

/-- A decision about a credential that passed the preflight follows the classification of the cache. -/
theorem run_authenticate {request : AuthenticationRequest} {t : Trace V}
    {r : Except AuthenticationError AuthenticatedTechnicalCaller} (h : Run (authenticate lib config request) t r) :
    r = .error .cancelled ∨
      (r = .error .rejected ∧ ¬ ∃ token algorithm, request.rawCompactToken = some token ∧
        byteLength token ≤ maxTokenBytes ∧ preflightHeader lib token config.algorithms = .ok algorithm) ∨
      ∃ token algorithm t₀ t₁ t₂ g c, request.rawCompactToken = some token ∧
        preflightHeader lib token config.algorithms = .ok algorithm ∧ t = t₀ ++ t₁ ++ t₂ ∧
        Run (preflight lib config request) t₀ (.ok (token, algorithm)) ∧
        Run (classifyCache config request.context) t₁ (.ok (g, c)) ∧
        Run (afterClassification lib config token algorithm request.context g c) t₂ r := by
  rcases run_bind.mp h with ⟨e, hfail, rfl⟩ | ⟨x, t₀, t', rfl, hpreflight, hrest⟩
  · obtain ⟨_, he | ⟨he, hno⟩ | ⟨_, _, _, _, _, he⟩⟩ := run_preflight hfail
    · cases he
      exact Or.inl rfl
    · cases he
      exact Or.inr (Or.inl ⟨rfl, hno⟩)
    · cases he
  · obtain ⟨_, hx | ⟨hx, _⟩ | ⟨token, algorithm, htoken, _, hheader, hx⟩⟩ := run_preflight hpreflight
    · cases hx
    · cases hx
    cases hx
    rcases run_bind.mp hrest with ⟨e, hfail, rfl⟩ | ⟨x, t₁, t₂, rfl, hclassify, hafter⟩
    · obtain rfl := classifyCache_error hfail
      exact Or.inl rfl
    · exact Or.inr (Or.inr ⟨token, algorithm, t₀, t₁, t₂, x.1, x.2, htoken, hheader, by simp,
        hpreflight, hclassify, hafter⟩)

end PermissionSync.Authenticator
