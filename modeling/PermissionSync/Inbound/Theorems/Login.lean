import PermissionSync.Base.Result
import PermissionSync.Inbound.Lemmas.Decisions
import PermissionSync.Inbound.Theorems.Stages
import PermissionSync.Wire.Struct

/-!
# Which bodies are accepted

The contract of the body is one object with three members. The derived reader also takes the array of the three values.
-/

namespace PermissionSync.Inbound

open PermissionSync.Base PermissionSync.Core PermissionSync.Auth PermissionSync.Orchestration PermissionSync.Wire

variable {ε : Type} {read : JsonReader} {provider : Bool} {headers : List HeaderField} {body : InboundBody}
  {context : SynchronizationContext} {t : Trace} {outcome : HttpOutcome} {j : Json} {login : LoginBody}

/-! ## What the derived reader takes -/

theorem mapM_asStr {values : List Json} {texts : List String} :
    values.mapM Json.asStr = some texts ↔ values = texts.map .str := by
  induction values generalizing texts with
  | nil => cases texts <;> simp
  | cons v values ih =>
      simp only [List.mapM_cons, Option.bind_eq_bind, Option.bind_eq_some_iff, Option.pure_def, Option.some.injEq]
      constructor
      · intro h
        obtain ⟨s, hs, rest, hrest, rfl⟩ := h
        cases v <;> cases hs
        rw [ih.mp hrest]
        rfl
      · intro h
        cases texts with
        | nil => cases h
        | cons s texts =>
            cases h
            exact ⟨s, rfl, texts, ih.mpr rfl, rfl⟩

theorem LoginBody.decode_eq_some_iff :
    LoginBody.decode j = some login ↔
      j.HasExactly [("event_type", .str login.eventType), ("username", .str login.username),
        ("groups", .arr (login.groups.map .str))] ∨
      j = .arr [.str login.eventType, .str login.username, .arr (login.groups.map .str)] := by
  have hfields : structFields ["event_type", "username", "groups"] true j =
      some ([Json.str login.eventType, .str login.username, .arr (login.groups.map .str)].map some) ↔ _ :=
    structFields_eq_some_iff (by decide) rfl
  refine Iff.trans ?_ hfields
  constructor
  · intro h
    unfold LoginBody.decode at h
    split at h
    · rename_i eventType username groups hf
      simp only [Option.map_eq_some_iff, mapM_asStr] at h
      obtain ⟨texts, rfl, rfl⟩ := h
      exact hf
    · cases h
  · intro h
    have hgroups := mapM_asStr.mpr (rfl : login.groups.map Json.str = login.groups.map .str)
    simp [LoginBody.decode, h, hgroups]

/-- The documented body, with the username and the groups it carries. -/
def IsLogin (j : Json) (username : String) (groups : List String) : Prop :=
  j.HasExactly [("event_type", .str "LOGIN"), ("username", .str username), ("groups", .arr (groups.map .str))]

/-- The body was collected and is the documented one. -/
def CarriesLogin (read : JsonReader) (body : InboundBody) (username : String) (groups : List String) : Prop :=
  ∃ bytes j, body = .collected bytes ∧ read bytes = some j ∧ IsLogin j username groups

/-- The body was collected and is the array of the three values. -/
def CarriesSequence (read : JsonReader) (body : InboundBody) (username : String) (groups : List String) : Prop :=
  ∃ bytes, body = .collected bytes ∧ read bytes = some (.arr [.str "LOGIN", .str username, .arr (groups.map .str)])

theorem acceptedBody_eq_some_iff : acceptedBody read body = some login ↔ login.eventType = "LOGIN" ∧
    (CarriesLogin read body login.username login.groups ∨ CarriesSequence read body login.username login.groups) := by
  cases body with
  | boundExceeded => simp [acceptedBody, CarriesLogin, CarriesSequence]
  | collected bytes =>
      simp only [acceptedBody, Option.filter_eq_some_iff, Option.bind_eq_some_iff, decide_eq_true_eq,
        LoginBody.decode_eq_some_iff]
      constructor
      · rintro ⟨⟨j, hj, hshape⟩, hevent⟩
        rw [hevent] at hshape
        rcases hshape with hobject | rfl
        · exact ⟨hevent, Or.inl ⟨bytes, j, rfl, hj, hobject⟩⟩
        · exact ⟨hevent, Or.inr ⟨bytes, rfl, hj⟩⟩
      · rintro ⟨hevent, ⟨_, j, hbytes, hj, hlogin⟩ | ⟨_, hbytes, hj⟩⟩
        · cases hbytes
          exact ⟨⟨j, hj, Or.inl (hevent ▸ hlogin)⟩, hevent⟩
        · cases hbytes
          exact ⟨⟨_, hj, Or.inr (by rw [hevent])⟩, hevent⟩

/-- The body is not both. -/
theorem not_carriesLogin_of_sequence {username username' : String} {groups groups' : List String}
    (h : CarriesSequence read body username groups) : ¬ CarriesLogin read body username' groups' := by
  rintro ⟨_, j, rfl, hj, ms, rfl, _⟩
  obtain ⟨_, hbytes, hj'⟩ := h
  cases hbytes
  cases hj.symm.trans hj'

/-! ## The handler -/

theorem synchronizationOutcome_ne_invalidRequest
    (r : Except SelectedTargetSynchronizationError ReconciliationOutcome) :
    synchronizationOutcome r ≠ .invalidRequest := by
  match r with
  | .ok .changed => decide
  | .ok .unchanged => decide
  | .error e => cases e <;> decide

/-- After a successful authentication the outcome is an invalid request exactly when the body is not accepted. -/
theorem Decision.invalidRequest_iff {synchronizer : Synchronizer} {caller : AuthenticatedTechnicalCaller}
    (h : Decision read synchronizer body context (.ok caller) t outcome) :
    outcome = .invalidRequest ↔ acceptedBody read body = none := by
  cases h with
  | invalidBody _ refused => simp [refused]
  | targetless _ accepted _ => simp [accepted]
  | @synchronized _ _ _ _ _ result _ accepted _ _ => simp [accepted, synchronizationOutcome_ne_invalidRequest result]

/-- The Provider and the Adapter get the identity of the accepted body. -/
theorem identity_of_accepted
    (hrun : Run (handle read ⟨provider, .port⟩ headers body context : Io ε HttpOutcome) t (.ok outcome))
    (haccepted : acceptedBody read body = some login) {e : Event service} (he : e ∈ t) :
    (∀ request, e.op = .resolve request → request.identity = ⟨login.username, login.groups⟩) ∧
      ∀ adapter request, e.op = .reconcile adapter request → request.identity = ⟨login.username, login.groups⟩ := by
  obtain ⟨pre, post, rfl⟩ := List.append_of_mem he
  have hproper := (handle_holds _ _ hrun).1 pre e post rfl
  constructor
  · intro request hop
    obtain ⟨_, _, _, _, hp, hgiven⟩ := hproper (by rw [hop]; simp [stage])
    rw [hop] at hgiven
    obtain ⟨_, rfl⟩ := hgiven
    cases hp.accepted.symm.trans haccepted
    rfl
  · intro adapter request hop
    obtain ⟨_, _, _, _, hp, hgiven⟩ := hproper (by rw [hop]; simp [stage])
    rw [hop] at hgiven
    obtain ⟨_, _, _, _, rfl⟩ := hgiven
    cases hp.accepted.symm.trans haccepted
    rfl

/-- Every authentication succeeded. -/
def Authenticated : Event service → Prop
  | ⟨.authenticate _ _, x⟩ => ∃ caller, x = .ok caller
  | _ => True

/-- The outcome is an invalid request unless the body is the documented object, and its username and groups are the
identity that the Provider and the Adapter get. -/
structure HandledAsDocumented (read : JsonReader) (body : InboundBody) (t : Trace) (outcome : HttpOutcome) : Prop where
  accepts : outcome ≠ .invalidRequest ↔ ∃ username groups, CarriesLogin read body username groups
  identity : ∀ username groups, CarriesLogin read body username groups → ∀ e ∈ t,
    (∀ request, e.op = .resolve request → request.identity = ⟨username, groups⟩) ∧
      ∀ adapter request, e.op = .reconcile adapter request → request.identity = ⟨username, groups⟩

/-- After a successful authentication in an available context, exactly the array of the three values is not handled as
documented. -/
theorem handle_accepts_login
    (hrun : Run (handle read ⟨provider, .port⟩ headers body context : Io ε HttpOutcome) t (.ok outcome))
    (hclear : Clear context t) (hauth : ∀ e ∈ t, Authenticated e) :
    HandledAsDocumented read body t outcome ↔ ¬ ∃ username groups, CarriesSequence read body username groups := by
  obtain ⟨checks, x, t', ht, _, hdecision⟩ := handle_decides hrun hclear
  obtain ⟨caller, rfl⟩ : ∃ caller, x = .ok caller :=
    hauth ⟨.authenticate (extractBearer headers) context, x⟩ (by simp [ht])
  have hvalid : outcome ≠ .invalidRequest ↔ ∃ login, acceptedBody read body = some login := by
    rw [ne_eq, hdecision.invalidRequest_iff]
    exact Option.ne_none_iff_exists'
  constructor
  · rintro h ⟨username, groups, hsequence⟩
    have haccepted : acceptedBody read body = some ⟨"LOGIN", username, groups⟩ :=
      acceptedBody_eq_some_iff.mpr ⟨rfl, Or.inr hsequence⟩
    obtain ⟨_, _, hlogin⟩ := h.accepts.mp (hvalid.mpr ⟨_, haccepted⟩)
    exact not_carriesLogin_of_sequence hsequence hlogin
  · intro h
    refine ⟨hvalid.trans ⟨?_, ?_⟩, fun username groups hcarries e he => ?_⟩
    · rintro ⟨login, haccepted⟩
      obtain ⟨_, hlogin | hsequence⟩ := acceptedBody_eq_some_iff.mp haccepted
      · exact ⟨_, _, hlogin⟩
      · exact absurd ⟨_, _, hsequence⟩ h
    · rintro ⟨username, groups, hlogin⟩
      exact ⟨⟨"LOGIN", username, groups⟩, acceptedBody_eq_some_iff.mpr ⟨rfl, Or.inl hlogin⟩⟩
    · have haccepted : acceptedBody read body = some ⟨"LOGIN", username, groups⟩ :=
        acceptedBody_eq_some_iff.mpr ⟨rfl, Or.inl hcarries⟩
      exact identity_of_accepted hrun haccepted he

/-- The sample request carries its login. -/
theorem sample_accepts_login : Clear sampleContext sampleTrace ∧
    HandledAsDocumented sampleRead (.collected []) sampleTrace .changed ∧
    ∀ e ∈ sampleTrace, ∀ request, e.op = .resolve request → request.identity = ⟨"ada", ["/staff"]⟩ := by
  have hclear : Clear sampleContext sampleTrace := by simp [sampleTrace, samplePassed, sampleContext, Stops]
  have hauth : ∀ e ∈ sampleTrace, Authenticated e := by
    simp only [sampleTrace, samplePassed, List.cons_append, List.nil_append,
      List.forall_mem_cons, Authenticated, true_and]
    exact ⟨⟨_, rfl⟩, by simp⟩
  have hhandled := (handle_accepts_login sample_run hclear hauth).mpr (by rintro ⟨_, _, _, _, ⟨⟩⟩)
  exact ⟨hclear, hhandled, fun e he => (hhandled.identity "ada" ["/staff"] ⟨[], _, rfl, rfl, _, rfl, .refl _⟩ e he).1⟩

/-! ## The array in place of the object -/

/-- The body `["LOGIN", "ada", []]`. -/
def sequenceBody : Json := .arr [.str "LOGIN", .str "ada", .arr []]

def sequenceCaller : AuthenticatedTechnicalCaller := ⟨"caller", "a", .noTarget⟩

def sequenceTrace : Trace :=
  samplePassed ++ samplePassed ++ [⟨.authenticate (some "a") sampleContext, .ok sequenceCaller⟩] ++ samplePassed ++
    samplePassed ++ samplePassed

/-- The array of the three values completes like the documented object, although it is none. -/
theorem handle_accepts_sequence :
    Run (handle (fun _ => some sequenceBody) ⟨true, .port⟩ sampleHeaders (.collected []) sampleContext :
      Io Empty HttpOutcome) sequenceTrace (.ok .targetlessNoop) ∧
    Clear sampleContext sequenceTrace ∧ (∀ e ∈ sequenceTrace, Authenticated e) ∧
    ¬ ∃ username groups, CarriesLogin (fun _ => some sequenceBody) (.collected []) username groups := by
  refine ⟨run_of_follow rfl, ?_, ?_, ?_⟩
  · simp [sequenceTrace, samplePassed, sampleContext, Stops]
  · simp only [sequenceTrace, samplePassed, List.cons_append, List.nil_append, List.forall_mem_cons, Authenticated,
      true_and]
    exact ⟨⟨_, rfl⟩, by simp⟩
  · intro h
    obtain ⟨_, _, _, _, _, hj, _, rfl, _⟩ := h
    cases hj

end PermissionSync.Inbound
