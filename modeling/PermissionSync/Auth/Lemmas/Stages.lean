import PermissionSync.Auth.Lemmas.Private
import PermissionSync.Base.Ghost

/-!
# The stages of a refresh

A call takes the refresh mutex at most once, and fetches, installs and drops its guards in this order, also when its
future is dropped on the way.
-/

namespace PermissionSync.Authenticator

open PermissionSync.Auth PermissionSync.Base PermissionSync.Core
open PermissionSync.Runtime (Duration JwtAlgorithm)

variable {K V α β Λ : Type} {lib : Libraries K V} {config : Config} {token : String} {algorithm : JwtAlgorithm}
  {context : SynchronizationContext} {t : Trace V} {loc : Local V} {e : Event (auth V)} {g : UInt64}

/-- The operations that the stage of a call allows. -/
def Permitted (loc : Local V) : Event (auth V) → Prop
  | ⟨.lockRefresh _, _⟩ => loc.stage = .before
  | ⟨.fetchStarted, _⟩ => loc.stage = .locked
  | ⟨.fetchEnded, _⟩ => loc.stage = .fetching
  | ⟨.writeCache _, _⟩ => loc.stage = .fetched
  | ⟨.store snapshot, _⟩ => ∃ cache, loc.stage = .writing cache ∧
      snapshot.generation = nextGeneration (generationOf cache) ∧ loc.ticked = some snapshot.acquired
  | ⟨.dropWrite, _⟩ => (∃ cache, loc.stage = .writing cache) ∨ loc.stage = .stored
  | ⟨.dropRefresh, _⟩ => loc.stage = .locked ∨ loc.stage = .fetched ∨ loc.stage = .written
  | _ => True

abbrev Staged (loc : Local V) (p : Io V α) (R : Except AuthenticationError α → Local V → Prop) : Prop :=
  Tracks Local.after Permitted loc p R

/-- A scope that holds a guard: the guard is dropped where the scope has come to. -/
theorem tracks_guarded {after : Λ → Event (auth V) → Λ} {G : Λ → Event (auth V) → Prop} {l : Λ} {o : Op V} {p : Io V α}
    {R : Except AuthenticationError α → Λ → Prop}
    (hp : Tracks after G l p fun r l' => ∀ x, G l' ⟨o, x⟩ ∧ R r (after l' ⟨o, x⟩)) : Tracks after G l (guarded o p) R :=
  .attempt_bind (hp.mono fun _ _ h => .ask_bind (fun x => (h x).1) fun x => .lift (h x).2)

/-! ## Operations that leave the stage -/

theorem permitted_of_reads (h : Reads e.op) : Permitted loc e ∧ (loc.after e).stage = loc.stage := by
  obtain ⟨o, x⟩ := e
  cases o with
  | readCache deadline => cases x <;> exact ⟨trivial, rfl⟩
  | isCancelled | now | tick | unixSeconds | dropRead | request | frame => exact ⟨trivial, rfl⟩
  | _ => exact h.elim

theorem permitted_of_polls (h : Polls e.op) : Permitted loc e ∧ loc.after e = loc := by
  obtain ⟨o, x⟩ := e
  cases o with
  | isCancelled | now => exact ⟨trivial, rfl⟩
  | _ => exact h.elim

/-- A program that only reads the cache stays at its stage. -/
theorem staged_of_reads {p : Io V α} (hp : Only Reads p) : Staged loc p fun _ loc' => loc'.stage = loc.stage :=
  .of_only hp (P := fun loc' : Local V => loc'.stage = loc.stage) rfl fun _ _ hstage he =>
    ⟨(permitted_of_reads he).1, (permitted_of_reads he).2.trans hstage⟩

theorem staged_reads_bind {p : Io V α} {f : α → Io V β} {S : Except AuthenticationError β → Local V → Prop}
    (hp : Only Reads p) (hf : ∀ a loc', loc'.stage = loc.stage → Staged loc' (f a) S)
    (hfail : ∀ e loc', loc'.stage = loc.stage → S (.error e) loc') : Staged loc (p >>= f) S := by
  refine .bind ((staged_of_reads hp).mono fun r loc' hstage => ?_)
  cases r with
  | ok a => exact hf a loc' hstage
  | error e => exact hfail e loc' hstage

theorem staged_checkContext_bind {f : Unit → Io V β} {S : Except AuthenticationError β → Local V → Prop}
    (hf : Staged loc (f ()) S) (hfail : ∀ e, S (.error e) loc) : Staged loc (checkContext context >>= f) S := by
  refine .of_only_bind (P := fun loc' => loc' = loc) checkContext_polls rfl (fun _ _ hloc he => ?_) ?_ ?_
  · exact ⟨(permitted_of_polls he).1, (permitted_of_polls he).2.trans hloc⟩
  · rintro _ _ rfl
    exact hf
  · rintro e _ rfl
    exact hfail e

/-! ## The refresh -/

theorem fetchSnapshot_staged (h : loc.stage = .locked) : Staged loc (fetchSnapshot lib config context) fun r loc' =>
    loc'.stage = .fetched ∧ ∀ snapshot, r = .ok snapshot → loc'.ticked = some snapshot.acquired := by
  refine .ask_bind (fun _ => h) fun _ => tracks_guarded ?_
  refine staged_reads_bind (getJwks_private.mono fun _ => Private.reads) (fun _ loc₁ h₁ => ?_) ?_
  · refine staged_reads_bind checkContext_reads (fun _ loc₂ h₂ => ?_) ?_
    · refine staged_reads_bind (parseJwks_private.mono fun _ => Private.reads) (fun _ loc₃ h₃ => ?_) ?_
      · refine staged_reads_bind checkContext_reads (fun _ loc₄ h₄ => ?_) ?_
        · have hstage : loc₄.stage = .fetching := h₄.trans (h₃.trans (h₂.trans h₁))
          refine .ask_bind (fun _ => trivial) fun n => .pure fun _ => ⟨hstage, rfl, fun snapshot hs => ?_⟩
          cases hs
          rfl
        · exact fun e loc₄ h₄ _ => ⟨h₄.trans (h₃.trans (h₂.trans h₁)), rfl, nofun⟩
      · exact fun e loc₃ h₃ _ => ⟨h₃.trans (h₂.trans h₁), rfl, nofun⟩
    · exact fun e loc₂ h₂ _ => ⟨h₂.trans h₁, rfl, nofun⟩
  · exact fun e loc₁ h₁ _ => ⟨h₁, rfl, nofun⟩

theorem installSnapshot_staged {snapshot : Snapshot V} (h : loc.stage = .fetched)
    (hticked : loc.ticked = some snapshot.acquired) : Staged loc (installSnapshot context snapshot) fun _ loc' =>
      loc'.stage = .fetched ∨ loc'.stage = .written := by
  refine staged_checkContext_bind ?_ fun _ => Or.inl h
  refine .ask_bind (fun _ => h) fun answer => ?_
  cases answer with
  | none => exact .fail (Or.inl h)
  | some cache =>
      refine tracks_guarded (staged_checkContext_bind ?_ fun _ _ => ⟨Or.inl ⟨cache, rfl⟩, Or.inr rfl⟩)
      exact .ask (fun _ => ⟨cache, rfl, rfl, hticked⟩) fun _ _ => ⟨Or.inr rfl, Or.inr rfl⟩

theorem refreshLocked_staged (h : loc.stage = .locked) : Staged loc (refreshLocked lib config context g) fun _ loc' =>
    loc'.stage = .locked ∨ loc'.stage = .fetched ∨ loc'.stage = .written := by
  refine staged_checkContext_bind ?_ fun _ => Or.inl h
  refine staged_reads_bind newerGeneration_reads (fun newer loc₁ h₁ => ?_) fun _ loc₁ h₁ => Or.inl (h₁.trans h)
  refine .ite (.pure (Or.inl (h₁.trans h))) (.attempt_bind ((fetchSnapshot_staged (h₁.trans h)).mono ?_))
  intro r loc₂ hfetched
  obtain ⟨h₂, hticked⟩ := hfetched
  split
  · exact (installSnapshot_staged h₂ (hticked _ rfl)).mono fun _ _ => Or.inr
  · exact .fail (Or.inr (Or.inl h₂))
  · exact .fail (Or.inr (Or.inl h₂))

theorem refresh_staged (h : loc.stage = .before) :
    Staged loc (refresh lib config context g) fun _ loc' => loc'.stage = .before ∨ loc'.stage = .after := by
  refine staged_checkContext_bind ?_ fun _ => Or.inl h
  refine .ask_bind (fun _ => h) fun answer => ?_
  cases answer with
  | false => exact .fail (Or.inl h)
  | true => exact tracks_guarded ((refreshLocked_staged rfl).mono fun _ _ hstage _ => ⟨hstage, Or.inr rfl⟩)

/-! ## The calls

A call reads the cache, and refreshes at most once. What is kept along its operations is therefore kept along those of
the refresh. -/

section

variable {after : Λ → Event (auth V) → Λ} {G : Λ → Event (auth V) → Prop} {P : Λ → Prop} {l : Λ}

/-- Reads are allowed anywhere and keep a property, under which a refresh is allowed. -/
structure Refreshing (lib : Libraries K V) (config : Config) (context : SynchronizationContext)
    (after : Λ → Event (auth V) → Λ) (G : Λ → Event (auth V) → Prop) (P : Λ → Prop) : Prop where
  reads : ∀ l e, Reads e.op → G l e
  keeps : ∀ l e, P l → Reads e.op → P (after l e)
  refresh : ∀ g l, P l → Tracks after G l (refresh lib config context g) fun _ _ => True

namespace Refreshing

/-- A program that ends with a read. -/
theorem of_reads (h : Refreshing lib config context after G P) {p : Io V α} (hp : Only Reads p) :
    Tracks after G l p fun _ _ => True :=
  .of_only (P := fun _ => True) hp trivial fun l e _ he => ⟨h.reads l e he, trivial⟩

theorem reads_bind (h : Refreshing lib config context after G P) {p : Io V α} {f : α → Io V β} (hp : Only Reads p)
    (hl : P l) (hf : ∀ a l', P l' → Tracks after G l' (f a) fun _ _ => True) :
    Tracks after G l (p >>= f) fun _ _ => True :=
  .of_only_bind hp hl (fun l e hl he => ⟨h.reads l e he, h.keeps l e hl he⟩) hf fun _ _ _ => trivial

theorem verifyThen (h : Refreshing lib config context after G P)
    {f : CacheVerification → Except AuthenticationError AuthenticatedTechnicalCaller} :
    Tracks after G l (do
      let verification ← verifyCurrent lib config token algorithm context
      .lift (f verification)) fun _ _ => True :=
  h.of_reads (.bind verifyCurrent_reads fun _ => .lift)

theorem refreshThenVerifyFresh (h : Refreshing lib config context after G P) (hl : P l) :
    Tracks after G l (refreshThenVerifyFresh lib config token algorithm context g) fun _ _ => True := by
  refine .bind ((h.refresh g l hl).mono fun r l' _ => ?_)
  cases r with
  | ok _ => exact h.verifyThen
  | error _ => trivial

theorem refreshOrStaleFallback (h : Refreshing lib config context after G P) (hl : P l) :
    Tracks after G l (refreshOrStaleFallback lib config token algorithm context g) fun _ _ => True := by
  refine .attempt_bind ((h.refresh g l hl).mono fun r l' _ => ?_)
  split
  · exact h.verifyThen
  · exact .fail trivial
  · exact h.verifyThen

theorem refreshAfterProvenSignatureInvalid (h : Refreshing lib config context after G P) (hl : P l) :
    Tracks after G l (refreshAfterProvenSignatureInvalid lib config token algorithm context g) fun _ _ => True := by
  refine .attempt_bind ((h.refresh g l hl).mono fun r l' _ => ?_)
  split
  · exact h.verifyThen
  · exact .fail trivial
  · exact .fail trivial

theorem afterFresh (h : Refreshing lib config context after G P) (hl : P l) (verification : CacheVerification) :
    Tracks after G l (afterFresh lib config token algorithm context g verification) fun _ _ => True := by
  unfold Authenticator.afterFresh
  split
  case h_4 | h_12 => exact h.refreshAfterProvenSignatureInvalid hl
  case h_5 => exact h.refreshOrStaleFallback hl
  case h_6 | h_11 => exact h.refreshThenVerifyFresh hl
  case h_7 => exact .pure trivial
  all_goals exact .fail trivial

theorem afterClassification (h : Refreshing lib config context after G P) (hl : P l)
    (classification : CacheClassification) :
    Tracks after G l (afterClassification lib config token algorithm context g classification) fun _ _ => True := by
  cases classification with
  | fresh => exact h.reads_bind verifyCurrent_reads hl fun verification l' hl' => h.afterFresh hl' verification
  | stale => exact h.refreshOrStaleFallback hl
  | coldOrExpired => exact h.refreshThenVerifyFresh hl

end Refreshing

theorem preflight_reads {request : AuthenticationRequest} : Only Reads (preflight lib config request : Io V _) := by
  refine .bind checkContext_reads fun _ => .bind .lift fun _ => .bind .lift fun _ =>
    .bind checkContext_reads fun _ => ?_
  exact .bind .lift fun _ => .bind checkContext_reads fun _ => .pure

theorem trustedVerifierState_reads : Only Reads (trustedVerifierState config context : Io V TrustedVerifierState) := by
  refine .bind (.attempt classifyCache_reads) fun r => ?_
  cases r <;> exact .pure

theorem Refreshing.ensureTrustedVerifierState (h : Refreshing lib config context after G P) (hl : P l) :
    Tracks after G l (ensureTrustedVerifierState lib config context) fun _ _ => True := by
  refine h.reads_bind (.attempt classifyCache_reads) hl fun r l₁ h₁ => ?_
  split
  · exact .pure trivial
  · refine .ite (.pure trivial) (.attempt_bind ((h.refresh _ l₁ h₁).mono fun r l₂ _ => ?_))
    split
    · exact .pure trivial
    · exact h.of_reads trustedVerifierState_reads

theorem Refreshing.program {call : Call} (h : Refreshing lib config call.context after G P) (hl : P l) :
    Tracks after G l (call.program lib config) fun _ _ => True := by
  cases call with
  | authenticate request =>
      have hcall : Tracks after G l (authenticate lib config request) fun _ _ => True :=
        h.reads_bind preflight_reads hl fun _ l₁ h₁ => h.reads_bind classifyCache_reads h₁ fun _ l₂ h₂ =>
          h.afterClassification h₂ _
      refine .bind (hcall.mono fun r _ _ => ?_)
      cases r with
      | ok _ => exact .pure trivial
      | error _ => trivial
  | trustedVerifierState context => exact h.of_reads (.bind trustedVerifierState_reads fun _ => .pure)
  | ensureTrustedVerifierState context =>
      refine .bind ((h.ensureTrustedVerifierState hl).mono fun r _ _ => ?_)
      cases r with
      | ok _ => exact .pure trivial
      | error _ => trivial

end

theorem program_staged (call : Call) : Staged .start (call.program lib config) fun _ _ => True := by
  have hrefreshing :
      Refreshing lib config call.context Local.after Permitted fun loc : Local V => loc.stage = .before :=
    ⟨fun _ _ he => (permitted_of_reads he).1, fun _ _ hstage he => (permitted_of_reads he).2.trans hstage,
      fun _ _ hstage => (refresh_staged hstage).mono fun _ _ _ => trivial⟩
  exact hrefreshing.program rfl

/-! ## Calls that are pending or dropped -/

theorem nonempty_ans (o : Op V) : Nonempty ((auth V).Ans o) := by
  cases o with
  | isCancelled | lockRefresh | frame => exact ⟨false⟩
  | now | tick => exact ⟨(0 : Nat)⟩
  | unixSeconds | readCache | writeCache | request => exact ⟨none⟩
  | dropRead | store | dropWrite | dropRefresh | fetchStarted | fetchEnded => exact ⟨()⟩

/-- The guards of a dropped future are dropped at the stage it has come to. -/
theorem along_drops (loc : Local V) : Along Local.after Permitted loc loc.drops := by
  obtain ⟨stage, reading, ticked⟩ := loc
  cases reading <;> cases stage <;> simp [Local.drops, Stage.drops, Permitted, Local.after]

/-- What is kept along a program is kept along a call that follows it, if it is along the guards that are dropped. -/
theorem Follows.tracks {after : Λ → Event (auth V) → Λ} {G : Λ → Event (auth V) → Prop} {l : Λ} {p : Io V α}
    {R : Except AuthenticationError α → Λ → Prop} (hp : Tracks after G l p R)
    (hdrops : ∀ t, Along after G (t.foldl after l) (localOf t).drops) (h : Follows p t) : Along after G l t := by
  cases h with
  | ended hr => exact (hp _ _ hr).1
  | pending hasks => exact (hp.of_asks nonempty_ans hasks (nonempty_ans _).some).1
  | dropped hasks _ hdropped =>
      obtain ⟨rest, hrest⟩ := hdropped
      refine along_append.mpr ⟨(hp.of_asks nonempty_ans hasks (nonempty_ans _).some).1, ?_⟩
      exact (along_append.mp (hrest ▸ hdrops _)).1

end PermissionSync.Authenticator
