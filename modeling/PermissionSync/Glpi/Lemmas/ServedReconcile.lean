import PermissionSync.Glpi.Lemmas.ServedAssignments
import PermissionSync.Glpi.Server.Reference

/-!
# Reconciliation on a documented server
-/

namespace PermissionSync.Glpi

open PermissionSync.Base PermissionSync.Wire

variable {config : ValidatedConfig} {context : SynchronizationContext} {session : GlpiSession}
variable {server : Server} {s : Store} {hs : Headers}
variable {permissions : List RawPermission} {username : String} {userId : Nat}

/-! ## What a reconciliation leaves -/

theorem mutations_eq_nil_iff {rows : List CurrentRow} {desired : List DesiredAssignment} :
    (compute rows desired).mutations = [] ↔ isCanonical rows desired = true := by
  simp [Plan.mutations, isCanonical, Plan.isEmpty]

/-- The user of the username has the rows that the payload asks for, and every other user the rows it had. The
reconciliation reports no change exactly when the account existed with these rows. -/
structure Reconciled (s : Store) (permissions : List RawPermission) (username : String)
    (outcome : ReconciliationOutcome) (s' : Store) : Prop where
  suits : s'.Suits permissions username
  canonical : ∃ userId, s'.HasAccount username userId ∧ s'.Canonical permissions userId ∧
    ∀ a, a.usersId ≠ userId → (a ∈ s'.assignments ↔ a ∈ s.assignments)
  unchanged : outcome = .unchanged ↔ ∃ userId, s.HasAccount username userId ∧ s.Canonical permissions userId

theorem Store.Suits.account_unique (h : s.Suits permissions username) {u v : Nat} (hu : s.HasAccount username u)
    (hv : s.HasAccount username v) : u = v := by
  obtain ⟨a, ha, hn, rfl⟩ := hu
  obtain ⟨b, hb, hn', rfl⟩ := hv
  rw [h.account a ha b hb hn hn']

theorem unchanged_iff {s₁ : Store} {created : Nat} {current : List CurrentRow} {desired : List DesiredAssignment}
    (hsuits : s.Suits permissions username) (huser : UserOf s permissions username userId created s₁)
    (hrows : RowsOf s₁ userId current) (hpairs : (desired.map DesiredAssignment.pair).Nodup)
    (hresolved : List.Forall₂ (ResolvesTo s₁) (normalize permissions) desired) :
    created + (compute current desired).mutations.length = 0 ↔
      ∃ u, s.HasAccount username u ∧ s.Canonical permissions u := by
  rw [Nat.add_eq_zero_iff, List.length_eq_zero_iff, mutations_eq_nil_iff, isCanonical_iff hrows.nodup hpairs,
    canonicalRows_iff_canonical huser.suits hrows hresolved]
  rcases huser.existed with ⟨rfl, rfl⟩ | ⟨rfl, hnone⟩
  · constructor
    · intro h
      exact ⟨userId, huser.account, h.2⟩
    · intro h
      obtain ⟨u, hu, hcanonical⟩ := h
      rw [hsuits.account_unique huser.account hu]
      exact ⟨rfl, hcanonical⟩
  · constructor
    · intro h
      cases h.1
    · intro h
      obtain ⟨u, ⟨a, ha, hn, _⟩, _⟩ := h
      exact absurd hn (hnone a ha)

theorem Remaining.canonical {s₁ s₂ : Store} {desired : List DesiredAssignment} (h : Remaining s₁ desired userId [] s₂)
    (hsuits : s₁.Suits permissions username) (hpairs : (desired.map DesiredAssignment.pair).Nodup)
    (hresolved : List.Forall₂ (ResolvesTo s₁) (normalize permissions) desired) :
    List.Forall₂ (ResolvesTo s₂) (normalize permissions) desired ∧ s₂.Canonical permissions userId := by
  obtain ⟨hk, rows, hrows, hplan⟩ := h
  have hresolved' := hresolved.imp fun _ _ hd => hk.resolvesTo hd
  exact ⟨hresolved', (canonicalRows_iff_canonical (hk.suits hsuits) hrows hresolved').mp
    (canonicalRows_of_no_mutation hrows.nodup hpairs hplan)⟩

/-! ## The stages -/

theorem served_verifyAssignments {options : SearchOptions} {desired : List DesiredAssignment}
    (hh : sessionHeaders session config = .ok hs) (ho : OptionsOf server .profileUser options)
    (hsuits : s.Suits permissions username) (haccount : s.HasAccount username userId)
    (hpairs : (desired.map DesiredAssignment.pair).Nodup)
    (hresolved : List.Forall₂ (ResolvesTo s) (normalize permissions) desired)
    (hcanonical : s.Canonical permissions userId) :
    Served (server.step context.deadline) s
      (verifyAssignments config session options username userId desired context) fun _ s' => s' = s := by
  refine .bind (served_checkContext.mono fun _ s₁ h₁ => ?_)
  subst h₁
  refine .bind ((served_readCurrentAssignments hh ho hsuits haccount).mono fun verified s₂ h₂ => ?_)
  obtain ⟨rfl, hrows⟩ := h₂
  refine .lift (ensure_of ?_ _) rfl
  exact (isCanonical_iff hrows.nodup hpairs).mpr ((canonicalRows_iff_canonical hsuits hrows hresolved).mpr hcanonical)

theorem served_reconcileAssignments {s₁ : Store} {references : References} {created : Nat}
    (hh : sessionHeaders session config = .ok hs) (hsuits : s.Suits permissions username)
    (hreferences : ReferencesOf server s (normalize permissions) references)
    (huser : UserOf s permissions username userId created s₁) :
    Served (server.step context.deadline) s₁
      (reconcileAssignments config session references username (normalize permissions) userId created context)
      (Reconciled s permissions username) := by
  obtain ⟨desired, hdesired, hresolved⟩ := resolveDesired_of hreferences
  have hpairs := resolved_nodup hresolved (normalize_nodup permissions)
  have hresolved₁ : List.Forall₂ (ResolvesTo s₁) (normalize permissions) desired := hresolved.imp fun _ _ hd =>
    ⟨huser.entities ▸ hd.entity, huser.profiles ▸ hd.profile, hd.recursive⟩
  refine .bind ((served_readCurrentAssignments hh hreferences.profileUserOptions huser.suits huser.account).mono
    fun current s' h => ?_)
  obtain ⟨rfl, hrows⟩ := h
  refine .bind (.lift hdesired (.bind ((served_applyPlan hh hpairs (fun d hd => ?_) huser.account hrows).mono
    fun total s₂ h₂ => ?_)))
  · obtain ⟨c, _, hc⟩ := exists_left_of_mem hresolved₁ hd
    exact ⟨c, hc⟩
  obtain ⟨htotal, hremaining⟩ := h₂
  obtain ⟨hresolved₂, hcanonical⟩ := hremaining.canonical huser.suits hpairs hresolved₁
  have hsuits₂ := hremaining.keeps.suits huser.suits
  have haccount₂ := hremaining.keeps.hasAccount huser.account
  refine .bind ((served_verifyAssignments hh hreferences.profileUserOptions hsuits₂ haccount₂ hpairs hresolved₂
    hcanonical).mono fun _ s₃ h₃ => .pure ?_)
  subst h₃
  refine ⟨hsuits₂, ⟨userId, haccount₂, hcanonical, fun a ha => ?_⟩, ?_⟩
  · exact (hremaining.keeps.others a ha).trans (huser.others a ha)
  · rw [← unchanged_iff hsuits huser hrows hpairs hresolved₁, ← htotal]
    rcases Nat.eq_zero_or_pos total with h | h
    · simp [h]
    · simp [h, h.ne']

theorem served_reconcileWithSession (hh : sessionHeaders session config = .ok hs)
    (hsuits : s.Suits permissions username) :
    Served (server.step context.deadline) s
      (reconcileWithSession config session username (normalize permissions) context)
      (Reconciled s permissions username) := by
  refine .bind ((served_prepare hh hsuits).mono fun references s₁ h₁ => ?_)
  obtain ⟨rfl, hreferences⟩ := h₁
  refine .bind ((served_synchronizedUser hh hreferences.userOptions hsuits).mono fun user s₂ huser => ?_)
  exact served_reconcileAssignments hh hsuits hreferences huser

theorem served_cleanupAllowed :
    Served (server.step context.deadline) s (cleanupAllowed context) fun b s' => b = true ∧ s' = s := by
  refine Served.ask_bind (I := glpi) fun b s₁ h₁ => ?_
  obtain ⟨rfl, rfl⟩ := h₁
  refine Served.ask_bind (I := glpi) fun n s₂ h₂ => ?_
  exact .pure ⟨@decide_eq_true _ (Nat.decLt n context.deadline) h₂.2, h₂.1⟩

theorem served_cleanup {outcome : ReconciliationOutcome} (hh : sessionHeaders session config = .ok hs) :
    Served (server.step context.deadline) s (cleanup config session context (.ok outcome))
      fun o s' => o = outcome ∧ s' = s := by
  refine .bind (served_cleanupAllowed.mono fun b s₁ h₁ => ?_)
  obtain ⟨rfl, rfl⟩ := h₁
  refine .bind (served_effectiveDeadline.attempt.mono fun x s₂ h₂ => ?_)
  obtain ⟨d, rfl, rfl⟩ := h₂
  have hkill : Served (server.step context.deadline) s₂ (killSession config session d) fun _ s' => s' = s₂ :=
    .bind (.lift hh (.bind (served_send fun response s' h => .lift (readTrue_of h.2) h.1)))
  refine .bind (hkill.attempt.mono fun x s₃ h₃ => ?_)
  obtain ⟨_, rfl, rfl⟩ := h₃
  exact .pure ⟨rfl, rfl⟩

theorem sessionHeaders_of {token : String} (hinit : initHeaders config = .ok hs) (htoken : headerValueOk token = true) :
    ∃ hs', sessionHeaders ⟨token⟩ config = .ok hs' := by
  simp only [initHeaders, bind_eq_ok] at hinit
  obtain ⟨_, _, app, happ, _⟩ := hinit
  exact ⟨_, by rw [sessionHeaders, sessionTokenHeader, header, if_pos htoken, ok_bind, happ, ok_bind]; rfl⟩

theorem served_reconcile (request : AdapterRequest) (hinit : initHeaders config = .ok hs)
    (hversion : request.version = 1) (hpayload : request.payload.json.bind decodePayload = some permissions)
    (hnonempty : ∀ p ∈ permissions, p.entity ≠ "" ∧ p.profile ≠ "")
    (hsuits : s.Suits permissions request.username) :
    Served (server.step request.context.deadline) s (reconcile config request)
      (Reconciled s permissions request.username) := by
  have hdesired : parseAndNormalize request.payload = .ok (normalize permissions) :=
    parseAndNormalize_eq_ok.mpr ⟨permissions, hpayload, hnonempty, rfl⟩
  refine .bind (Served.mono (Q := fun desired s' => desired = normalize permissions ∧ s' = s) (.bind
    (served_checkContext.mono fun _ s₁ h₁ => .bind (.lift (ensure_of hversion _) (.lift hdesired ⟨rfl, h₁⟩)))) ?_)
  intro desired s₁ h₁
  obtain ⟨rfl, rfl⟩ := h₁
  refine .bind (Served.mono (Q := fun session s' => headerValueOk session.token = true ∧ s' = s₁)
    (served_timed hinit fun response s' h => ?_) fun session s₂ h₂ => ?_)
  · obtain ⟨rfl, token, hdoc⟩ := h
    exact ⟨⟨token⟩, readInitSession_of hdoc, hdoc.2.2.1, rfl⟩
  obtain ⟨htoken, rfl⟩ := h₂
  obtain ⟨hs', hh⟩ := sessionHeaders_of hinit htoken
  refine .bind ((served_reconcileWithSession hh hsuits).attempt.mono fun x s₃ h₃ => ?_)
  obtain ⟨outcome, rfl, hreconciled⟩ := h₃
  refine (served_cleanup hh).mono fun o s₄ h₄ => ?_
  obtain ⟨rfl, rfl⟩ := h₄
  exact hreconciled

end PermissionSync.Glpi
