import PermissionSync.Glpi.Lemmas.Phases

/-!
# Applying a plan

The requests a trace sends, and those of the two loops over a plan.
-/

namespace PermissionSync.Glpi

open PermissionSync.Base PermissionSync.Wire

variable {config : ValidatedConfig} {context : SynchronizationContext} {session : GlpiSession}

/-! ## The requests of a trace -/

/-- The requests that the trace sends, in order. -/
def requests (t : Trace) : List Request := t.filterMap sent

@[simp] theorem requests_append (t₁ t₂ : Trace) : requests (t₁ ++ t₂) = requests t₁ ++ requests t₂ :=
  List.filterMap_append

@[simp] theorem requests_callTrace {r : Request} {hs : Headers} {n : Instant}
    {answer : Except GlpiFailure RawResponse} : requests (callTrace config context r hs n answer) = [r] := rfl

theorem mem_requests {t : Trace} {r : Request} : r ∈ requests t ↔ ∃ e ∈ t, sent e = some r :=
  List.mem_filterMap

theorem sends_iff {S : Request → Prop} {t : Trace} : Sends S t ↔ ∀ r ∈ requests t, S r := by
  constructor
  · intro h r hr
    obtain ⟨e, he, hs⟩ := mem_requests.mp hr
    exact h e he r hs
  · exact fun h e he r hr => h r (mem_requests.mpr ⟨e, he, hr⟩)

/-- The id of the row that a request deletes. -/
def Request.deleted : Request → Option Nat
  | .deleteProfileUser id => some id
  | _ => none

/-- The owner and the content of the row that a request creates. -/
def Request.created : Request → Option (Nat × Addition)
  | .postProfileUser usersId profilesId entitiesId isRecursive =>
      some (usersId, { entitiesId := entitiesId, profilesId := profilesId, recursive := isRecursive })
  | _ => none

/-- The ids of the rows that requests of the trace delete, in order. -/
def deletions (t : Trace) : List Nat := (requests t).filterMap Request.deleted

/-- The owners and contents of the rows that requests of the trace create, in order. -/
def creations (t : Trace) : List (Nat × Addition) := (requests t).filterMap Request.created

@[simp] theorem deletions_append (t₁ t₂ : Trace) : deletions (t₁ ++ t₂) = deletions t₁ ++ deletions t₂ := by
  simp [deletions]

@[simp] theorem creations_append (t₁ t₂ : Trace) : creations (t₁ ++ t₂) = creations t₁ ++ creations t₂ := by
  simp [creations]

/-- The request neither creates nor deletes an assignment. -/
def Request.Untouching (r : Request) : Prop := r.deleted = none ∧ r.created = none

theorem untouched {t : Trace} (h : Sends Request.Untouching t) : deletions t = [] ∧ creations t = [] :=
  ⟨List.filterMap_eq_nil_iff.mpr fun r hr => (sends_iff.mp h r hr).1,
    List.filterMap_eq_nil_iff.mpr fun r hr => (sends_iff.mp h r hr).2⟩

theorem untouching_of_isRead {r : Request} (h : r.isRead = true) : r.Untouching := by
  cases r with
  | postProfileUser | deleteProfileUser => cases h
  | _ => exact ⟨rfl, rfl⟩

/-! ## The loops -/

/-- A turn of a loop that sends one request and counts it when it is confirmed. -/
theorem run_counted {α : Type} {request : Request} {headers : Except GlpiFailure Headers}
    {read : RawResponse → Except GlpiFailure α} {n : Nat} {t : Trace} {r : Except GlpiFailure Nat}
    (h : Run (timed config context (exchange request headers read) >>= fun _ => pure (n + 1)) t r) :
    requests t <+: [request] ∧ ∀ m, r = .ok m → requests t = [request] ∧ m = n + 1 := by
  rcases run_bind.mp h with ⟨e, hd, rfl⟩ | ⟨a, t₁, t₂, rfl, hd, hp⟩
  · refine ⟨?_, fun m hm => by cases hm⟩
    rcases run_timed.mp hd with ⟨rfl, _⟩ | ⟨_, _, rfl, _⟩ | ⟨_, _, _, _, rfl, _⟩ | ⟨_, _, _, _, _, rfl, _⟩
    · exact List.nil_prefix
    · exact List.nil_prefix
    · exact List.nil_prefix
    · exact List.prefix_refl _
  · obtain ⟨rfl, rfl⟩ := run_pure.mp hp
    obtain ⟨k, hs, response, _, _, _, rfl⟩ := run_timed_ok.mp hd
    rw [List.append_nil]
    exact ⟨List.prefix_refl _, fun m hm => ⟨rfl, (Except.ok.inj hm).symm⟩⟩

/-- A loop of such turns sends the requests of its elements in order, up to its first failure. -/
theorem run_counted_loop {α : Type} {f : Nat → α → Io Nat} {requestOf : α → Request}
    (hf : ∀ n a t r, Run (f n a) t r → requests t <+: [requestOf a] ∧
      ∀ m, r = .ok m → requests t = [requestOf a] ∧ m = n + 1)
    {l : List α} {n : Nat} {t : Trace} {r : Except GlpiFailure Nat} (h : Run (l.foldlM f n) t r) :
    requests t <+: l.map requestOf ∧ ∀ m, r = .ok m → requests t = l.map requestOf ∧ m = n + l.length := by
  induction l generalizing n t with
  | nil =>
      obtain ⟨rfl, rfl⟩ := run_pure.mp h
      exact ⟨List.nil_prefix, fun m hm => ⟨rfl, (Except.ok.inj hm).symm⟩⟩
  | cons a l ih =>
      rw [List.foldlM_cons] at h
      rcases run_bind.mp h with ⟨e, ha, rfl⟩ | ⟨n', t₁, t₂, rfl, ha, hl⟩
      · refine ⟨?_, fun m hm => by cases hm⟩
        exact (hf n a t _ ha).1.trans ⟨l.map requestOf, rfl⟩
      · obtain ⟨hreq, rfl⟩ := (hf n a t₁ _ ha).2 n' rfl
        obtain ⟨hpart, hok⟩ := ih hl
        rw [requests_append, hreq]
        refine ⟨(List.prefix_cons_inj _).mpr hpart, fun m hm => ?_⟩
        obtain ⟨hreq', rfl⟩ := hok m hm
        refine ⟨by rw [hreq']; rfl, ?_⟩
        rw [List.length_cons]
        omega

theorem run_removals {ids : List Nat} {n : Nat} {t : Trace} {r : Except GlpiFailure Nat}
    (h : Run (ids.foldlM (removeAssignment config session context) n) t r) :
    requests t <+: ids.map .deleteProfileUser ∧
      ∀ m, r = .ok m → requests t = ids.map .deleteProfileUser ∧ m = n + ids.length :=
  run_counted_loop (fun _ _ _ _ hturn => run_counted hturn) h

/-- The request that makes an addition for the user. -/
def Addition.request (userId : Nat) (a : Addition) : Request :=
  .postProfileUser userId a.profilesId a.entitiesId a.recursive

theorem run_additions {userId : Nat} {adds : List Addition} {n : Nat} {t : Trace} {r : Except GlpiFailure Nat}
    (h : Run (adds.foldlM (addAssignment config session userId context) n) t r) :
    requests t <+: adds.map (Addition.request userId) ∧
      ∀ m, r = .ok m → requests t = adds.map (Addition.request userId) ∧ m = n + adds.length :=
  run_counted_loop (fun _ _ _ _ hturn => run_counted hturn) h

/-- The requests that apply a plan for the user. -/
def Plan.requests (plan : Plan) (userId : Nat) : List Request :=
  plan.removals.map .deleteProfileUser ++ plan.additions.map (Addition.request userId)

theorem run_applyPlan {userId n : Nat} {plan : Plan} {t : Trace} {r : Except GlpiFailure Nat}
    (h : Run (applyPlan config session userId context plan n) t r) :
    Glpi.requests t <+: plan.requests userId ∧
      ∀ m, r = .ok m → Glpi.requests t = plan.requests userId ∧ m = n + (plan.requests userId).length := by
  rcases run_bind.mp h with ⟨e, hd, rfl⟩ | ⟨n', t₁, t₂, rfl, hd, ha⟩
  · exact ⟨(run_removals hd).1.trans ⟨_, rfl⟩, fun m hm => by cases hm⟩
  · obtain ⟨hreq, rfl⟩ := (run_removals hd).2 n' rfl
    obtain ⟨hpart, hok⟩ := run_additions ha
    rw [requests_append, hreq]
    refine ⟨(List.prefix_append_right_inj _).mpr hpart, fun m hm => ?_⟩
    obtain ⟨hreq', rfl⟩ := hok m hm
    refine ⟨by rw [hreq']; rfl, ?_⟩
    simp only [Plan.requests, List.length_append, List.length_map]
    omega

theorem Plan.filterMap_deleted (plan : Plan) (userId : Nat) :
    (plan.requests userId).filterMap Request.deleted = plan.removals := by
  simp [Plan.requests, List.filterMap_append, List.filterMap_map, Function.comp_def, Request.deleted, Addition.request]

theorem Plan.filterMap_created (plan : Plan) (userId : Nat) :
    (plan.requests userId).filterMap Request.created = plan.additions.map fun a => (userId, a) := by
  simp [Plan.requests, List.filterMap_append, List.filterMap_map, Function.comp_def, Request.created, Addition.request]

/-- What applying a plan deletes and creates is part of the plan. -/
theorem applied_part {userId : Nat} {plan : Plan} {t : Trace} (h : Glpi.requests t <+: plan.requests userId) :
    deletions t <+: plan.removals ∧ creations t <+: plan.additions.map fun a => (userId, a) := by
  constructor
  · exact plan.filterMap_deleted userId ▸ h.filterMap Request.deleted
  · exact plan.filterMap_created userId ▸ h.filterMap Request.created

end PermissionSync.Glpi
