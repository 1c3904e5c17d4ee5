import PermissionSync.Runtime.Lemmas.Conservation

/-!
# Bounded synchronization capacity

A run owns a permit from the start of the Provider's resolution to the end of the Adapter's reconciliation, so no more
runs are in this span than there are permits. However a run ends, its permit comes back.
-/

namespace PermissionSync.Runtime

open PermissionSync.Base PermissionSync.Core PermissionSync.Orchestration

variable {ι ε α : Type} [DecidableEq ι] {s : Process ι} {labels : List (Label ι)} {clock : Instant}
  {limit capacity : Nat} {h t : Trace} {context : SynchronizationContext}

/-! ## Between the Provider and the Adapter -/

/-- The operation calls neither the Provider nor the Adapter. -/
def Prepares (e : Event service) : Prop := (∀ q, e.op ≠ .resolve q) ∧ ∀ adapter q, e.op ≠ .reconcile adapter q

theorem prepares_of_polls {e : Event service} (he : Polls e) : Prepares e := by
  rcases he with ⟨signal, hop⟩ | hop <;> exact ⟨hop ▸ nofun, hop ▸ nofun⟩

theorem unavailable_prepares :
    (unavailable context : Io ε Bool).Sat (fun t => ∀ e ∈ t, Prepares e) fun t => ∀ e ∈ t, Prepares e := by
  intro t r hr
  have hpolls := (polls_of_unavailable hr).1
  exact ⟨fun _ _ e he => prepares_of_polls (hpolls e he), fun _ _ e he => prepares_of_polls (hpolls e he)⟩

theorem ask_prepares {o : Op} (ho : ∀ x, Prepares ⟨o, x⟩) :
    (Prog.ask (I := service) o : Io ε (service.Ans o)).Sat
    (fun t => ∀ e ∈ t, Prepares e) fun t => ∀ e ∈ t, Prepares e :=
  .ask fun x => by simpa using ho x

theorem acquire_prepares : (semaphoreCapacity.acquire context).Sat (fun t => ∀ e ∈ t, Prepares e)
    fun t => ∀ e ∈ t, Prepares e := by
  have hc := composable_forall Prepares
  refine .bind hc unavailable_prepares fun stopped => .ite (.fail hc) (.bind hc ?_ fun _ => ?_)
  · refine .bind hc (ask_prepares fun _ => ⟨nofun, nofun⟩) fun _ => .ite (.pure hc) ?_
    refine .bind hc (ask_prepares fun _ => ⟨nofun, nofun⟩) fun _ => .ite (.pure hc) ?_
    refine .bind hc (ask_prepares fun _ => ⟨nofun, nofun⟩) fun _ => .ite (.pure hc) ?_
    exact .bind hc (ask_prepares fun _ => ⟨nofun, nofun⟩) fun _ => .fail hc
  · refine .bind hc unavailable_prepares fun stopped => .ite ?_ (ask_prepares fun _ => ⟨nofun, nofun⟩)
    exact .bind hc (ask_prepares fun _ => ⟨nofun, nofun⟩) fun _ => .fail hc

/-- Since the Provider was called, the Adapter is reached through checks of the context only. -/
def Reached (h : Trace) (e : Event service) : Prop :=
  ∀ adapter q, e.op = .reconcile adapter q → ∀ pre request x mid, h = pre ++ ⟨.resolve request, x⟩ :: mid →
    ∀ e ∈ mid, Polls e

theorem reached_of_prepares {e : Event service} (he : Prepares e) : Reached h e :=
  fun adapter q hop => absurd hop (he.2 adapter q)

theorem failIfCancelled_reached {R : Except SelectedTargetSynchronizationError Unit → Trace → Prop}
    (hR : ∀ t r, (∀ e ∈ t, Polls e) → R r (h ++ t)) : Holds Reached h (failIfCancelled context) R := by
  refine Holds.bind (Holds.unavailable (fun _ _ he => reached_of_prepares (prepares_of_polls he))
    fun t stopped hpolls _ => ?_)
  cases stopped with
  | true => exact .fail (hR t _ hpolls)
  | false => exact .pure (hR t _ hpolls)

theorem withPermit_reached {adapter : AdapterIdentifier} {request : SelectedTargetSynchronizationRequest}
    (hh : ∀ e ∈ h, Prepares e) : Holds Reached h (withPermit adapter request) fun _ _ => True := by
  refine Holds.bind (failIfCancelled_reached fun t₁ r hpolls₁ => ?_)
  cases r with
  | error _ => trivial
  | ok _ =>
      refine Holds.ask_bind (fun _ _ _ hop => by cases hop) fun resolution => ?_
      refine Holds.bind (.lift ?_)
      cases resolution with
      | error _ => trivial
      | ok envelope =>
          refine Holds.bind (failIfCancelled_reached fun t₂ r hpolls₂ => ?_)
          cases r with
          | error _ => trivial
          | ok _ =>
              refine Holds.ask_bind (fun _ _ _ _ pre q x mid hsplit => ?_) fun reconciliation => ?_
              · -- The only call of the Provider in the history is the one after which the checks come.
                rw [List.append_assoc] at hsplit
                rcases append_cons_eq_append hsplit.symm with ⟨post, hfirst, _⟩ | ⟨pre', _, hrest⟩
                · have hmem : ⟨.resolve q, x⟩ ∈ h ++ t₁ := hfirst ▸ by simp
                  rcases List.mem_append.mp hmem with hmem | hmem
                  · exact absurd rfl ((hh _ hmem).1 q)
                  · exact absurd rfl ((prepares_of_polls (hpolls₁ _ hmem)).1 q)
                · cases pre' with
                  | nil =>
                      cases hrest
                      exact hpolls₂
                  | cons e pre' =>
                      have htail : t₂ = pre' ++ ⟨.resolve q, x⟩ :: mid := (List.cons.inj hrest).2
                      have hmem : ⟨.resolve q, x⟩ ∈ t₂ := htail ▸ List.mem_append_right _ List.mem_cons_self
                      exact absurd rfl ((prepares_of_polls (hpolls₂ _ hmem)).1 q)
              · refine Holds.bind (.lift ?_)
                cases reconciliation with
                | error _ => trivial
                | ok outcome =>
                    refine Holds.bind (failIfCancelled_reached fun t₃ r _ => ?_)
                    cases r with
                    | error _ => trivial
                    | ok _ => exact .pure trivial

theorem synchronize_reached (provider : Bool) (request : SelectedTargetSynchronizationRequest) :
    Holds Reached [] (synchronize ⟨provider, semaphoreCapacity⟩ request) fun _ _ => True := by
  have hpolled {t : Trace} (ht : ∀ e ∈ t, Polls e) : ∀ e ∈ t, Prepares e := fun e he => prepares_of_polls (ht e he)
  refine Holds.bind (failIfCancelled_reached fun t₁ r hpolls₁ => ?_)
  cases r with
  | error _ => trivial
  | ok _ =>
      have htarget (x) : Prepares ⟨.resolveTarget request.target, x⟩ := ⟨nofun, nofun⟩
      refine Holds.bind (Holds.ask_bind (fun x => reached_of_prepares (htarget x)) fun resolution => ?_)
      match resolution with
      | .error .unknownLogicalTarget => exact .fail trivial
      | .error (.unavailableAdapter _) => exact .fail trivial
      | .ok adapter =>
          refine .pure (Holds.bind (failIfCancelled_reached fun t₂ r hpolls₂ => ?_))
          cases r with
          | error _ => trivial
          | ok _ =>
              cases provider with
              | false => exact .fail trivial
              | true =>
                  refine Holds.attempt_bind ((Holds.of_sat acquire_prepares fun _ _ => reached_of_prepares).mono ?_)
                  rintro acquired _ ⟨t₃, rfl, hacquire⟩
                  refine Holds.bind (.lift ?_)
                  cases acquired with
                  | error _ => trivial
                  | ok _ =>
                      have hprepares : ∀ e ∈ [] ++ t₁ ++ [⟨.resolveTarget request.target, .ok adapter⟩] ++ t₂ ++ t₃,
                          Prepares e := by
                        refine List.forall_mem_append.mpr ⟨List.forall_mem_append.mpr ⟨?_, hpolled hpolls₂⟩, ?_⟩
                        · exact List.forall_mem_append.mpr ⟨hpolled hpolls₁, by simpa using htarget _⟩
                        · exact acquire_prepares.of_run hacquire
                      refine Holds.attempt_bind ((withPermit_reached hprepares).mono fun outcome h' _ => ?_)
                      refine Holds.bind (Holds.ask_bind (fun _ => reached_of_prepares ⟨nofun, nofun⟩) fun _ => ?_)
                      exact Holds.ask (fun _ => reached_of_prepares ⟨nofun, nofun⟩) fun _ => .lift trivial

/-! ## The span -/

/-- The run is between the start of the Provider's resolution and the end of the Adapter's reconciliation: the
resolution is awaited, or it has ended and the reconciliation is awaited or still to come. -/
def InSpan (p : Io ε α) (t : Trace) : Prop :=
  (∃ q, Asks p t (.resolve q)) ∨
    ((∃ q x, ⟨.resolve q, x⟩ ∈ t) ∧ ∃ ahead adapter q, Asks p (t ++ ahead) (.reconcile adapter q))

section

variable {provider : ι → Bool} {request : ι → SelectedTargetSynchronizationRequest}

theorem tidy_synchronize (provider : Bool) (request : SelectedTargetSynchronizationRequest) :
    Tidy (synchronize ⟨provider, semaphoreCapacity⟩ request) := synchronize_situated rfl bare_nil

theorem live_of_inSpan {provider : Bool} {request : SelectedTargetSynchronizationRequest}
    (hspan : InSpan (synchronize ⟨provider, semaphoreCapacity⟩ request) t) : .live .heldPermit ∈ hold t := by
  have htidy := tidy_synchronize provider request
  rcases hspan with ⟨q, hasks⟩ | ⟨⟨q, x, hmem⟩, ahead, adapter, q', hasks⟩
  · obtain ⟨_, hx⟩ := htidy.situated_of_asks hasks
    exact hx.placed
  · obtain ⟨y⟩ := nonempty_answer (.reconcile adapter q')
    obtain ⟨rest, r, hrun⟩ := hasks.exists_run nonempty_answer y
    obtain ⟨pre, mid, rfl⟩ := List.append_of_mem hmem
    -- Since the resolution, only checks have been made, and they change nothing that is held.
    have hreached := (synchronize_reached provider request _ r hrun).1 _ _ _ rfl adapter q' rfl pre q x (mid ++ ahead)
      (by rw [List.nil_append, List.append_assoc, List.cons_append])
    have hplaced : .live .heldPermit ∈ hold pre :=
      (htidy.situated (Or.inr ⟨_, hasks⟩) (List.append_assoc ..)).placed
    rw [List.append_cons, hold_append_polls (List.forall_mem_append.mp hreached).1, hold_snoc]
    exact hplaced

/-- At most `capacity` runs are between resolution and reconciliation at once, each with one permit of its own. A run
that is gone keeps none. -/
theorem capacity_bounded
    (hex : Execution (fun k => synchronize ⟨provider k, semaphoreCapacity⟩ (request k)) (.start clock limit capacity)
      labels s) :
    (∀ runs : List ι, runs.Nodup →
        (∀ k ∈ runs, InSpan (synchronize ⟨provider k, semaphoreCapacity⟩ (request k)) (events k labels)) →
        runs.length ≤ capacity) ∧
      (∀ k, InSpan (synchronize ⟨provider k, semaphoreCapacity⟩ (request k)) (events k labels) →
        (s.sem .capacity).owned.count k = 1) ∧
      (s.sem .capacity).free + ((s.sem .capacity).assigned.length + (s.sem .capacity).owned.length) = capacity ∧
      (∀ k, Gone (synchronize ⟨provider k, semaphoreCapacity⟩ (request k)) (events k labels) →
        k ∉ (s.sem .capacity).owned ∧ k ∉ (s.sem .capacity).assigned ∧ k ∉ (s.sem .capacity).queue) ∧
      s.gauge .heldPermit = (s.live .heldPermit).length := by
  have hi := hex.invariant fun k => tidy_synchronize (provider k) (request k)
  have hlive {k} (hspan : InSpan (synchronize ⟨provider k, semaphoreCapacity⟩ (request k)) (events k labels)) :
      k ∈ s.live .heldPermit := hi.mem_live.mpr (live_of_inSpan hspan)
  refine ⟨fun runs hnodup hspan => ?_, fun k hspan => ?_, ?_, fun k hgone => ?_, hi.conserved.gauge _⟩
  · have hsub : runs ⊆ s.live .heldPermit := fun k hk => hlive (hspan k hk)
    exact (hnodup.subperm hsub).length_le.trans (hi.live_length_le .heldPermit)
  · exact List.count_eq_one_of_mem (hi.nodup_owned _) (hi.live_subset_owned .heldPermit (hlive hspan))
  · have hpermits : (s.sem .capacity).permits = capacity := hi.conserved.permits .capacity
    rw [Semaphore.permits] at hpermits
    omega
  · have hnone := (tidy_synchronize (provider k) (request k)).hold_of_gone hgone
    obtain ⟨howned, hwaits, _⟩ := hi.not_mem_of_hold_nil hnone .capacity .heldPermit
    rw [List.mem_append, not_or] at hwaits
    exact ⟨howned, hwaits.2, hwaits.1⟩

end

/-! A capacity of one: the Provider works for one run, and another run waits for the permit. -/

theorem glpi_isLogicalTarget : isLogicalTarget "glpi" = true := by decide

def sampleSynchronization (_ : Bool) : SelectedTargetSynchronizationRequest :=
  ⟨⟨"ada", []⟩, ⟨"glpi", glpi_isLogicalTarget⟩, "token", ⟨10, 0⟩⟩

/-- A check of the context that finds it available. -/
def passed : Trace := [⟨.isCancelled 0, false⟩, ⟨.now, (0 : Nat)⟩]

/-- The operations up to the acquisition of a permit. -/
def routedTrace : Trace := passed ++ ⟨.resolveTarget ⟨"glpi", glpi_isLogicalTarget⟩, .ok "glpi"⟩ :: passed ++ passed

def workingTrace : Trace :=
  routedTrace ++ [⟨.tryAcquireOwned .capacity, true⟩] ++ passed ++ [⟨.enter .heldPermit, ()⟩] ++ passed

def queuedTrace : Trace := routedTrace ++ [⟨.tryAcquireOwned .capacity, false⟩, ⟨.pollAcquire .capacity, false⟩]

def capacityLabels : List (Label Bool) := workingTrace.map (.own true) ++ queuedTrace.map (.own false)

def capacityProcess : Option (Process Bool) := capacityLabels.foldlM Process.next (.start 0 1 1)

theorem working_inSpan :
    InSpan (synchronize ⟨true, semaphoreCapacity⟩ (sampleSynchronization true)) (events true capacityLabels) :=
  Or.inl ⟨_, asks_of_pending rfl⟩

theorem capacity_follows (k : Bool) :
    Follows (synchronize ⟨true, semaphoreCapacity⟩ (sampleSynchronization k)) (events k capacityLabels) := by
  cases k with
  | true => exact ⟨workingTrace, [], Or.inr ⟨_, asks_of_pending rfl⟩, List.nil_prefix, rfl⟩
  | false => exact ⟨queuedTrace, [], Or.inr ⟨_, asks_of_pending rfl⟩, List.nil_prefix, rfl⟩

theorem capacity_reached : ∃ s, capacityProcess = some s ∧ (s.sem .capacity).queue = [false] := ⟨_, rfl, rfl⟩

theorem working_owns_one : ∃ s, capacityProcess = some s ∧ (s.sem .capacity).queue = [false] ∧
    (s.sem .capacity).owned.count true = 1 := by
  obtain ⟨s, hs, hqueue⟩ := capacity_reached
  have hex : Execution (fun k => synchronize ⟨true, semaphoreCapacity⟩ (sampleSynchronization k)) (.start 0 1 1)
      capacityLabels s := ⟨path_of_next hs, capacity_follows⟩
  exact ⟨s, hs, hqueue, (capacity_bounded hex).2.1 true working_inSpan⟩

end PermissionSync.Runtime
