import PermissionSync.Glpi.Lemmas.Apply
import PermissionSync.Glpi.Lemmas.Reads

/-!
# What is known after the references and the user were resolved
-/

namespace PermissionSync.Glpi

open PermissionSync.Base PermissionSync.Wire

variable {config : ValidatedConfig} {context : SynchronizationContext} {session : GlpiSession}
variable {request : AdapterRequest}

/-! ## The user -/

theorem run_resolveUserId_ok {options : SearchOptions} {username : String} {t : Trace} {found : Option Nat} :
    Run (resolveUserId config session options username context) t (.ok found) ↔
      ∃ idField nameField active deleted activeIds deletedIds t₁ t₂,
        options.require "User.id" = .ok idField ∧ options.require "User.name" = .ok nameField ∧ t = t₁ ++ t₂ ∧
        Run (searchAllPages config session (narrowing .user idField nameField username (some false)) context) t₁
          (.ok active) ∧
        Run (searchAllPages config session (narrowing .user idField nameField username (some true)) context) t₂
          (.ok deleted) ∧
        exactPositiveIds active idField nameField username = .ok activeIds ∧
        exactPositiveIds deleted idField nameField username = .ok deletedIds ∧
        selectUser activeIds deletedIds = .ok found := by
  rw [resolveUserId]
  constructor
  · intro h
    rcases run_lift_bind.mp h with ⟨_, _, _, hr⟩ | ⟨idField, hid, h⟩
    · cases hr
    rcases run_lift_bind.mp h with ⟨_, _, _, hr⟩ | ⟨nameField, hname, h⟩
    · cases hr
    obtain ⟨active, t₁, t', rfl, hactive, h⟩ := run_bind_ok.mp h
    obtain ⟨deleted, t₂, t'', rfl, hdeleted, h⟩ := run_bind_ok.mp h
    rcases run_lift_bind.mp h with ⟨_, _, _, hr⟩ | ⟨activeIds, ha, h⟩
    · cases hr
    rcases run_lift_bind.mp h with ⟨_, _, _, hr⟩ | ⟨deletedIds, hd, h⟩
    · cases hr
    obtain ⟨rfl, hs⟩ := run_lift.mp h
    exact ⟨idField, nameField, active, deleted, activeIds, deletedIds, t₁, t₂, hid, hname, by simp, hactive, hdeleted,
      ha, hd, hs.symm⟩
  · rintro ⟨idField, nameField, active, deleted, activeIds, deletedIds, t₁, t₂, hid, hname, rfl, hactive, hdeleted,
      ha, hd, hs⟩
    refine run_lift_bind.mpr (Or.inr ⟨idField, hid, run_lift_bind.mpr (Or.inr ⟨nameField, hname, ?_⟩)⟩)
    refine Run.bind hactive ?_
    rw [← List.append_nil t₂]
    refine Run.bind hdeleted (run_lift_bind.mpr (Or.inr ⟨activeIds, ha, ?_⟩))
    exact run_lift_bind.mpr (Or.inr ⟨deletedIds, hd, run_lift.mpr ⟨rfl, hs.symm⟩⟩)

theorem selectUser_eq_ok {active deleted : List Nat} {found : Option Nat} :
    selectUser active deleted = .ok found ↔ deleted = [] ∧ active = found.toList := by
  simp only [selectUser, bind_eq_ok, ensure_eq_ok, pure_eq_ok, Except.ok.injEq]
  constructor
  · rintro ⟨_, ⟨rfl, hlen⟩, rfl⟩
    refine ⟨rfl, ?_⟩
    cases active with
    | nil => rfl
    | cons id rest =>
        obtain rfl : rest = [] := List.length_eq_zero_iff.mp (by simpa using hlen)
        rfl
  · rintro ⟨rfl, rfl⟩
    cases found with
    | none => exact ⟨(), ⟨rfl, by simp⟩, rfl⟩
    | some id => exact ⟨(), ⟨rfl, by simp⟩, rfl⟩

/-- Complete searches of the active and of the deleted accounts showed no exact match. -/
def AbsentUser (config : ValidatedConfig) (session : GlpiSession) (username : String)
    (context : SynchronizationContext) (h : Trace) : Prop :=
  ∃ idField nameField active deleted,
    Occurs (searchAllPages config session (narrowing .user idField nameField username (some false)) context) active h ∧
    Occurs (searchAllPages config session (narrowing .user idField nameField username (some true)) context) deleted h ∧
    exactPositiveIds active idField nameField username = .ok [] ∧
    exactPositiveIds deleted idField nameField username = .ok []

theorem absentUser_of_run {options : SearchOptions} {username : String} {t : Trace}
    (h : Run (resolveUserId config session options username context) t (.ok none)) (h₀ h₁ : Trace) :
    AbsentUser config session username context (h₀ ++ t ++ h₁) := by
  obtain ⟨idField, nameField, active, deleted, activeIds, deletedIds, t₁, t₂, _, _, rfl,
    hactive, hdeleted, ha, hd, hs⟩ :=
    run_resolveUserId_ok.mp h
  obtain ⟨rfl, rfl⟩ := selectUser_eq_ok.mp hs
  exact ⟨idField, nameField, active, deleted, ⟨h₀, t₁, t₂ ++ h₁, by simp, hactive⟩,
    ⟨h₀ ++ t₁, t₂, h₁, by simp, hdeleted⟩, ha, hd⟩

/-! ## The references -/

/-- Every entry of the map was resolved in the history. -/
def Known (resolve : String → Io Nat) (known : Std.TreeMap String Nat) (h : Trace) : Prop :=
  ∀ s id, known[s]? = some id → Occurs (resolve s) id h

theorem Known.append {resolve : String → Io Nat} {known : Std.TreeMap String Nat} {h : Trace}
    (hk : Known resolve known h) (t : Trace) : Known resolve known (h ++ t) :=
  fun s id hs => (hk s id hs).append t

theorem run_resolveOnce_ok {resolve : String → Io Nat} {known out : Std.TreeMap String Nat} {selector : String}
    {t : Trace} (hr : Run (resolveOnce known selector resolve) t (.ok out)) {h : Trace}
    (hk : Known resolve known h) :
    Known resolve out (h ++ t) ∧ selector ∈ out ∧ ∀ s ∈ known, s ∈ out := by
  unfold resolveOnce at hr
  split at hr
  · obtain ⟨rfl, ho⟩ := run_pure.mp hr
    cases ho
    exact ⟨hk.append [], ‹_›, fun _ => id⟩
  · obtain ⟨id, t₁, t₂, rfl, hres, hp⟩ := run_bind_ok.mp hr
    obtain ⟨rfl, ho⟩ := run_pure.mp hp
    cases ho
    refine ⟨fun s id' hs => ?_, by simp, fun s hs => by simp [hs]⟩
    rw [Std.TreeMap.getElem?_insert] at hs
    split at hs
    · rename_i he
      cases hs
      rw [← compare_eq_iff_eq.mp he, List.append_nil]
      exact hres.occurs h
    · exact (hk s id' hs).append _

/-- What the loop over the desired assignments has resolved. -/
structure ResolvedIn (config : ValidatedConfig) (session : GlpiSession) (entityOptions profileOptions : SearchOptions)
    (context : SynchronizationContext) (resolved : Resolved) (h : Trace) : Prop where
  entities : Known (fun s => resolveEntityId config session entityOptions s context) resolved.entities h
  profiles : Known (fun s => resolveProfileId config session profileOptions s context) resolved.profiles h

theorem run_resolveAssignment_ok {entityOptions profileOptions : SearchOptions} {resolved out : Resolved}
    {a : CanonicalAssignment} {t h : Trace}
    (hr : Run (resolveAssignment config session entityOptions profileOptions context resolved a) t (.ok out))
    (hk : ResolvedIn config session entityOptions profileOptions context resolved h) :
    ResolvedIn config session entityOptions profileOptions context out (h ++ t) ∧
      (a.entity ∈ out.entities ∧ a.profile ∈ out.profiles) ∧
      (∀ s ∈ resolved.entities, s ∈ out.entities) ∧ ∀ s ∈ resolved.profiles, s ∈ out.profiles := by
  obtain ⟨_, t₁, _, rfl, _, hr₁⟩ := run_bind_ok.mp hr
  obtain ⟨entities, t₂, _, rfl, hentity, hr₂⟩ := run_bind_ok.mp hr₁
  obtain ⟨_, t₃, _, rfl, _, hr₃⟩ := run_bind_ok.mp hr₂
  obtain ⟨profiles, t₄, _, rfl, hprofile, hr₄⟩ := run_bind_ok.mp hr₃
  obtain ⟨rfl, ho⟩ := run_pure.mp hr₄
  cases ho
  obtain ⟨hke, hae, hsube⟩ := run_resolveOnce_ok hentity (hk.entities.append t₁)
  obtain ⟨hkp, hap, hsubp⟩ := run_resolveOnce_ok hprofile (hk.profiles.append (t₁ ++ t₂ ++ t₃))
  refine ⟨⟨?_, ?_⟩, ⟨hae, hap⟩, hsube, hsubp⟩
  · simpa using hke.append (t₃ ++ t₄)
  · simpa using hkp

theorem run_resolveAssignments_ok {entityOptions profileOptions : SearchOptions} {desired : List CanonicalAssignment}
    {resolved out : Resolved} {t h : Trace}
    (hr : Run (desired.foldlM (resolveAssignment config session entityOptions profileOptions context) resolved) t
      (.ok out))
    (hk : ResolvedIn config session entityOptions profileOptions context resolved h) :
    ResolvedIn config session entityOptions profileOptions context out (h ++ t) ∧
      (∀ a ∈ desired, a.entity ∈ out.entities ∧ a.profile ∈ out.profiles) ∧
      (∀ s ∈ resolved.entities, s ∈ out.entities) ∧ ∀ s ∈ resolved.profiles, s ∈ out.profiles := by
  induction desired generalizing resolved t h with
  | nil =>
      obtain ⟨rfl, ho⟩ := run_pure.mp hr
      cases ho
      exact ⟨by simpa using hk, by simp, fun _ => id, fun _ => id⟩
  | cons a desired ih =>
      rw [List.foldlM_cons] at hr
      obtain ⟨mid, t₁, t₂, rfl, ha, hrest⟩ := run_bind_ok.mp hr
      obtain ⟨hk₁, hmem, hsube, hsubp⟩ := run_resolveAssignment_ok ha hk
      obtain ⟨hk₂, hall, hsube', hsubp'⟩ := ih hrest hk₁
      refine ⟨by simpa using hk₂, fun a' ha' => ?_, fun s hs => hsube' s (hsube s hs),
        fun s hs => hsubp' s (hsubp s hs)⟩
      rcases List.mem_cons.mp ha' with rfl | ha'
      · exact ⟨hsube' _ hmem.1, hsubp' _ hmem.2⟩
      · exact hall a' ha'

/-- A selector was resolved, with search options that were resolved before. -/
def Resolves (config : ValidatedConfig) (session : GlpiSession) (context : SynchronizationContext)
    (itemtype : Itemtype) (resolve : SearchOptions → String → Io Nat) (known : Std.TreeMap String Nat)
    (selector : String) (h : Trace) : Prop :=
  ∃ options id, Occurs (resolveSearchOptions config session itemtype itemtype.requiredUids context) options h ∧
    Occurs (resolve options selector) id h ∧ known[selector]? = some id

/-- What has to be established before anything is changed. -/
structure Prerequisites (config : ValidatedConfig) (request : AdapterRequest) (session : GlpiSession)
    (desired : List CanonicalAssignment) (references : References) (h : Trace) : Prop where
  version : request.version = 1
  payload : parseAndNormalize request.payload = .ok desired
  began : ∃ e ∈ h, Accepted .initSession readInitSession session e
  visible : ∃ e ∈ h, Accepted .getFullSession readVisibility () e
  userOptions : Occurs (resolveSearchOptions config session .user requiredUserUids request.context)
    references.userOptions h
  profileUserOptions : Occurs (resolveSearchOptions config session .profileUser requiredProfileUserUids
    request.context) references.profileUserOptions h
  entities : ∀ a ∈ desired, Resolves config session request.context .entity
    (fun options s => resolveEntityId config session options s request.context) references.resolved.entities a.entity h
  profiles : ∀ a ∈ desired, Resolves config session request.context .profile
    (fun options s => resolveProfileId config session options s request.context) references.resolved.profiles
    a.profile h

theorem Prerequisites.append {desired : List CanonicalAssignment} {references : References} {h : Trace}
    (hp : Prerequisites config request session desired references h) (t : Trace) :
    Prerequisites config request session desired references (h ++ t) where
  version := hp.version
  payload := hp.payload
  began := by
    obtain ⟨e, he, ha⟩ := hp.began
    exact ⟨e, List.mem_append_left _ he, ha⟩
  visible := by
    obtain ⟨e, he, ha⟩ := hp.visible
    exact ⟨e, List.mem_append_left _ he, ha⟩
  userOptions := hp.userOptions.append t
  profileUserOptions := hp.profileUserOptions.append t
  entities a ha := by
    obtain ⟨options, id, ho, hr, hk⟩ := hp.entities a ha
    exact ⟨options, id, ho.append t, hr.append t, hk⟩
  profiles a ha := by
    obtain ⟨options, id, ho, hr, hk⟩ := hp.profiles a ha
    exact ⟨options, id, ho.append t, hr.append t, hk⟩

theorem run_acceptRequest_ok {t : Trace} {desired : List CanonicalAssignment} :
    Run (acceptRequest request) t (.ok desired) ↔
      ∃ n, n < request.context.deadline ∧ t = [polled false, clock n] ∧ request.version = 1 ∧
        parseAndNormalize request.payload = .ok desired := by
  constructor
  · intro h
    obtain ⟨⟨⟩, t₁, _, rfl, hc, h₁⟩ := run_bind_ok.mp h
    obtain ⟨n, rfl, hn⟩ := run_checkContext_ok.mp hc
    rcases run_lift_bind.mp h₁ with ⟨_, _, _, hr⟩ | ⟨_, hv, h₂⟩
    · cases hr
    · obtain ⟨rfl, hp⟩ := run_lift.mp h₂
      exact ⟨n, hn, rfl, ensure_eq_ok.mp hv, hp.symm⟩
  · rintro ⟨n, hn, rfl, hv, hp⟩
    rw [← List.append_nil [polled false, clock n]]
    refine Run.bind (run_checkContext_ok.mpr ⟨n, rfl, hn⟩) (run_lift_bind.mpr (Or.inr ⟨(), ensure_of hv _, ?_⟩))
    exact run_lift.mpr ⟨rfl, hp.symm⟩

theorem run_userSearchOptions_ok {t : Trace} {options : SearchOptions × SearchOptions} :
    Run (userSearchOptions config session context) t (.ok options) ↔
      ∃ t₁ t₂, t = t₁ ++ t₂ ∧
        Run (resolveSearchOptions config session .user requiredUserUids context) t₁ (.ok options.1) ∧
        Run (resolveSearchOptions config session .profileUser requiredProfileUserUids context) t₂ (.ok options.2) := by
  constructor
  · intro h
    obtain ⟨userOptions, t₁, _, rfl, hu, h₁⟩ := run_bind_ok.mp h
    obtain ⟨profileUserOptions, t₂, _, rfl, hp, h₂⟩ := run_bind_ok.mp h₁
    obtain ⟨rfl, ho⟩ := run_pure.mp h₂
    cases ho
    exact ⟨t₁, t₂, by simp, hu, hp⟩
  · rintro ⟨t₁, t₂, rfl, hu, hp⟩
    rw [← List.append_nil t₂]
    exact Run.bind hu (Run.bind hp (run_pure.mpr ⟨rfl, rfl⟩))

/-- The parts of a completed resolution of the references. Without desired assignments there are only the options of
the user. -/
theorem run_resolveReferences_ok {desired : List CanonicalAssignment} {references : References} {t : Trace} :
    Run (resolveReferences config session desired context) t (.ok references) ↔
      (desired = [] ∧ references.resolved = ⟨∅, ∅⟩ ∧
        Run (userSearchOptions config session context) t
          (.ok (references.userOptions, references.profileUserOptions))) ∨
      desired ≠ [] ∧ ∃ entityOptions profileOptions t₁ t₂ t₃ t₄, t = t₁ ++ t₂ ++ t₃ ++ t₄ ∧
        Run (resolveSearchOptions config session .entity requiredEntityUids context) t₁ (.ok entityOptions) ∧
        Run (resolveSearchOptions config session .profile requiredProfileUids context) t₂ (.ok profileOptions) ∧
        Run (userSearchOptions config session context) t₃
          (.ok (references.userOptions, references.profileUserOptions)) ∧
        Run (desired.foldlM (resolveAssignment config session entityOptions profileOptions context) ⟨∅, ∅⟩) t₄
          (.ok references.resolved) := by
  by_cases hd : desired = []
  · rw [resolveReferences, if_pos hd]
    constructor
    · intro h
      obtain ⟨⟨u, p⟩, t₁, _, rfl, hu, h₁⟩ := run_bind_ok.mp h
      obtain ⟨rfl, ho⟩ := run_pure.mp h₁
      cases ho
      exact Or.inl ⟨hd, rfl, by simpa using hu⟩
    · rintro (⟨_, hres, hu⟩ | ⟨hne, _⟩)
      · rw [← List.append_nil t]
        refine Run.bind hu (run_pure.mpr ⟨rfl, ?_⟩)
        rw [← hres]
      · exact absurd hd hne
  · rw [resolveReferences, if_neg hd]
    constructor
    · intro h
      obtain ⟨entityOptions, t₁, _, rfl, he, h₁⟩ := run_bind_ok.mp h
      obtain ⟨profileOptions, t₂, _, rfl, hp, h₂⟩ := run_bind_ok.mp h₁
      obtain ⟨⟨u, p⟩, t₃, _, rfl, hu, h₃⟩ := run_bind_ok.mp h₂
      obtain ⟨resolved, t₄, _, rfl, hr, h₄⟩ := run_bind_ok.mp h₃
      obtain ⟨rfl, ho⟩ := run_pure.mp h₄
      cases ho
      exact Or.inr ⟨hd, entityOptions, profileOptions, t₁, t₂, t₃, t₄, by simp, he, hp, hu, hr⟩
    · rintro (⟨hnil, _⟩ | ⟨_, entityOptions, profileOptions, t₁, t₂, t₃, t₄, rfl, he, hp, hu, hr⟩)
      · exact absurd hnil hd
      · rw [← List.append_nil t₄]
        simp only [List.append_assoc]
        exact Run.bind he (Run.bind hp (Run.bind hu (Run.bind hr (run_pure.mpr ⟨rfl, rfl⟩))))

theorem run_prepare_ok {desired : List CanonicalAssignment} {references : References} {t : Trace} :
    Run (prepare config session desired context) t (.ok references) ↔
      ∃ t₁ t₂ t₃, t = t₁ ++ t₂ ++ t₃ ∧ Run (timed config context (forceAllEntities config session)) t₁ (.ok ()) ∧
        Run (timed config context (verifyCompleteVisibility config session)) t₂ (.ok ()) ∧
        Run (resolveReferences config session desired context) t₃ (.ok references) := by
  constructor
  · intro h
    obtain ⟨⟨⟩, t₁, _, rfl, hf, h₁⟩ := run_bind_ok.mp h
    obtain ⟨⟨⟩, t₂, t₃, rfl, hv, hr⟩ := run_bind_ok.mp h₁
    exact ⟨t₁, t₂, t₃, by simp, hf, hv, hr⟩
  · rintro ⟨t₁, t₂, t₃, rfl, hf, hv, hr⟩
    rw [List.append_assoc]
    exact Run.bind hf (Run.bind hv hr)

theorem getElem?_of_mem {known : Std.TreeMap String Nat} {s : String} (h : s ∈ known) : ∃ id, known[s]? = some id :=
  Option.isSome_iff_exists.mp (by simpa using h)

/-- A completed planning has established the prerequisites by the time it looks up the user. -/
theorem prerequisites_of_run {desired : List CanonicalAssignment} {references : References} {tA tI tP : Trace}
    (ha : Run (acceptRequest request) tA (.ok desired))
    (hi : Run (timed config request.context (initSession config)) tI (.ok session))
    (hp : Run (prepare config session desired request.context) tP (.ok references)) :
    Prerequisites config request session desired references (tA ++ tI ++ tP) := by
  obtain ⟨_, _, _, hversion, hpayload⟩ := run_acceptRequest_ok.mp ha
  obtain ⟨ei, hei, hinit⟩ := init_accepted hi
  obtain ⟨t₁, t₂, t₃, rfl, _, hv, hr⟩ := run_prepare_ok.mp hp
  obtain ⟨n, hs, response, _, _, hread, rfl⟩ := run_timed_ok.mp hv
  obtain ⟨ev, hev, hvisible⟩ := accepted_mem_callTrace config request.context .getFullSession hs n hread
  have hbegan : ∃ e ∈ tA ++ tI ++ (t₁ ++ callTrace config request.context .getFullSession hs n (.ok response) ++ t₃),
      Accepted .initSession readInitSession session e := ⟨ei, by simp [hei], hinit⟩
  have hsees : ∃ e ∈ tA ++ tI ++ (t₁ ++ callTrace config request.context .getFullSession hs n (.ok response) ++ t₃),
      Accepted .getFullSession readVisibility () e := ⟨ev, by simp [hev], hvisible⟩
  -- everything else happens in the last part
  have hlift {α : Type} {p : Io α} {a : α} (ho : Occurs p a t₃) :
      Occurs p a (tA ++ tI ++ (t₁ ++ callTrace config request.context .getFullSession hs n (.ok response) ++ t₃)) := by
    have := ho.prepend (tA ++ tI ++ (t₁ ++ callTrace config request.context .getFullSession hs n (.ok response)))
    simpa using this
  rcases run_resolveReferences_ok.mp hr with ⟨rfl, hres, hu⟩ |
    ⟨_, entityOptions, profileOptions, t₄, t₅, t₆, t₇, rfl, he, hpr, hu, hl⟩
  · obtain ⟨t₄, t₅, rfl, huser, hpu⟩ := run_userSearchOptions_ok.mp hu
    exact ⟨hversion, hpayload, hbegan, hsees, hlift ((huser.occurs []).append t₅), hlift (hpu.occurs t₄), by simp,
      by simp⟩
  · obtain ⟨t₈, t₉, rfl, huser, hpu⟩ := run_userSearchOptions_ok.mp hu
    have hnone : ResolvedIn config session entityOptions profileOptions request.context ⟨∅, ∅⟩ [] :=
      ⟨fun s id hs => by simp at hs, fun s id hs => by simp at hs⟩
    obtain ⟨hknown, hall, _⟩ := run_resolveAssignments_ok hl hnone
    rw [List.nil_append] at hknown
    refine ⟨hversion, hpayload, hbegan, hsees, ?_, ?_, fun a ha => ?_, fun a ha => ?_⟩
    · exact hlift (by simpa using (huser.occurs (t₄ ++ t₅)).append (t₉ ++ t₇))
    · exact hlift (by simpa using (hpu.occurs (t₄ ++ t₅ ++ t₈)).append t₇)
    · obtain ⟨id, hid⟩ := getElem?_of_mem (hall a ha).1
      refine ⟨entityOptions, id, hlift ?_, hlift ((hknown.entities _ _ hid).prepend _), hid⟩
      simpa [Itemtype.requiredUids] using (he.occurs []).append (t₅ ++ (t₈ ++ t₉) ++ t₇)
    · obtain ⟨id, hid⟩ := getElem?_of_mem (hall a ha).2
      refine ⟨profileOptions, id, hlift ?_, hlift ((hknown.profiles _ _ hid).prepend _), hid⟩
      simpa [Itemtype.requiredUids] using (hpr.occurs t₄).append ((t₈ ++ t₉) ++ t₇)

end PermissionSync.Glpi
