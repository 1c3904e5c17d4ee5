import PermissionSync.Runtime.Lifecycle

/-!
# No start of shutdown is missed

A future that is enabled before it reads the flag is completed by the notification, or reads the flag after its store.
-/

namespace PermissionSync.Runtime.Lifecycle

open PermissionSync.Base PermissionSync.Authenticator

variable {β κ π : Type} [DecidableEq β] [DecidableEq κ] [DecidableEq π] {s s' : State β κ π} {action : Action β κ π}
  {actions : List (Action β κ π)} {w : κ ⊕ π} {call : β} {p : π} {waiter : Waiter}

/-! ## What a step does to a future -/

/-- A step leaves a future alone, polls it, goes on with its poll, or notifies it. -/
inductive Moves (s : State β κ π) (action : Action β κ π) (s' : State β κ π) (w : κ ⊕ π) : Prop
  | stays : s'.waiters w = s.waiters w → action ≠ .advance w → Moves s action s' w
  | polls : (s.waiters w).poll = some (s'.waiters w) → action ≠ .advance w → Moves s action s' w
  | advances : (s.waiters w).advance s.shuttingDown = some (s'.waiters w) → action = .advance w → Moves s action s' w
  | notified {also : Bool} : s'.waiters w = (s.waiters w).notify also → action ≠ .advance w →
      (∃ call, s.beginShutdown call = .stored) ∨ s.serve = .cancelStored → Moves s action s' w

theorem moves_of_step (h : Step s action s') (w : κ ⊕ π) : Moves s action s' w := by
  cases action with
  | storeShuttingDown | stopped | terminated | storeRequestsCancelled =>
      obtain ⟨_, ⟨⟩⟩ := Option.ite_none_right_eq_some.mp h
      exact .stays rfl nofun
  | notifyShutdown call also =>
      obtain ⟨hstored, ⟨⟩⟩ := Option.ite_none_right_eq_some.mp h
      exact .notified rfl nofun (Or.inl ⟨call, hstored⟩)
  | notifyCancelled also =>
      obtain ⟨hstored, ⟨⟩⟩ := Option.ite_none_right_eq_some.mp h
      exact .notified rfl nofun (Or.inr hstored)
  | poll w' =>
      cases w' with
      | inl k =>
          obtain ⟨waiter, hpoll, rfl⟩ := Option.map_eq_some_iff.mp h
          by_cases hw : w = .inl k
          · subst hw
            exact .polls (by simpa [State.put] using hpoll) nofun
          · exact .stays (Function.update_of_ne hw _ _) nofun
      | inr p =>
          obtain ⟨_, hmap⟩ := Option.ite_none_right_eq_some.mp h
          obtain ⟨waiter, hpoll, rfl⟩ := Option.map_eq_some_iff.mp hmap
          by_cases hw : w = .inr p
          · subst hw
            exact .polls (by simpa [State.put] using hpoll) nofun
          · exact .stays (Function.update_of_ne hw _ _) nofun
  | advance w' =>
      obtain ⟨waiter, hadvance, rfl⟩ := Option.map_eq_some_iff.mp h
      by_cases hw : w = w'
      · subst hw
        exact .advances (by simpa [State.put] using hadvance) rfl
      · refine .stays (Function.update_of_ne hw _ _) ?_
        rintro ⟨⟩
        exact hw rfl
  | race | evaluated =>
      obtain ⟨_, _, rfl⟩ := Option.map_eq_some_iff.mp h
      exact .stays rfl nofun

/-! ## Before the store -/

/-- The future is neither ready nor notified. -/
def Waiter.Quiet : Waiter → Prop
  | .unpolled => True
  | .created completed | .enabled completed | .waiting completed | .pending completed => completed = false
  | .ready => False

theorem Waiter.Quiet.poll {waiter' : Waiter} (h : waiter.Quiet) (hpoll : waiter.poll = some waiter') :
    waiter'.Quiet := by
  cases waiter with
  | unpolled =>
      cases hpoll
      rfl
  | pending completed =>
      cases hpoll
      exact h
  | _ => cases hpoll

theorem Waiter.Quiet.advance {waiter' : Waiter} (h : waiter.Quiet) (hadvance : waiter.advance false = some waiter') :
    waiter'.Quiet := by
  cases waiter with
  | created completed | enabled completed =>
      cases hadvance
      exact h
  | waiting completed =>
      obtain rfl : completed = false := h
      cases hadvance
      rfl
  | _ => cases hadvance

/-- Until the store of a `begin_shutdown` nothing of the shutdown has happened. -/
structure Untouched (s : State β κ π) : Prop where
  calls : ∀ call, s.beginShutdown call = .before
  serve : s.serve = .serving
  requestsCancelled : s.requestsCancelled = false
  waiters : ∀ w, (s.waiters w).Quiet

def Inert (s : State β κ π) : Prop := s.shuttingDown = false → Untouched s

theorem shuttingDown_of_step (h : Step s action s') (hs : s.shuttingDown = true) : s'.shuttingDown = true := by
  cases action with
  | storeShuttingDown | notifyShutdown | stopped | terminated | storeRequestsCancelled | notifyCancelled =>
      obtain ⟨_, ⟨⟩⟩ := Option.ite_none_right_eq_some.mp h
      first | rfl | exact hs
  | poll w =>
      cases w with
      | inl k =>
          obtain ⟨_, _, rfl⟩ := Option.map_eq_some_iff.mp h
          exact hs
      | inr p =>
          obtain ⟨_, hmap⟩ := Option.ite_none_right_eq_some.mp h
          obtain ⟨_, _, rfl⟩ := Option.map_eq_some_iff.mp hmap
          exact hs
  | advance | race | evaluated =>
      obtain ⟨_, _, rfl⟩ := Option.map_eq_some_iff.mp h
      exact hs

theorem Inert.step (hi : Inert s) (h : Step s action s') : Inert s' := by
  intro hs'
  have hs : s.shuttingDown = false := by
    by_contra hset
    rw [shuttingDown_of_step h (Bool.not_eq_false _ ▸ hset)] at hs'
    cases hs'
  have hu := hi hs
  have hwaiters (w : κ ⊕ π) : (s'.waiters w).Quiet := by
    cases moves_of_step h w with
    | stays hsame => exact hsame ▸ hu.waiters w
    | polls hpoll => exact (hu.waiters w).poll hpoll
    | advances hadvance => exact (hu.waiters w).advance (hs ▸ hadvance)
    | notified _ _ hby =>
        rcases hby with ⟨call, hstored⟩ | hcancel
        · cases (hu.calls call).symm.trans hstored
        · cases hu.serve.symm.trans hcancel
  cases action with
  | storeShuttingDown call =>
      obtain ⟨_, ⟨⟩⟩ := Option.ite_none_right_eq_some.mp h
      cases hs'
  | notifyShutdown call =>
      obtain ⟨hstored, _⟩ := Option.ite_none_right_eq_some.mp h
      cases (hu.calls call).symm.trans hstored
  | stopped k =>
      obtain ⟨⟨_, hready⟩, _⟩ := Option.ite_none_right_eq_some.mp h
      have hquiet := hu.waiters (.inl k)
      rw [hready] at hquiet
      exact hquiet.elim
  | terminated call =>
      obtain ⟨⟨_, hreturned⟩, _⟩ := Option.ite_none_right_eq_some.mp h
      cases (hu.calls call).symm.trans hreturned
  | storeRequestsCancelled | notifyCancelled =>
      obtain ⟨hserve, _⟩ := Option.ite_none_right_eq_some.mp h
      cases hu.serve.symm.trans hserve
  | poll w =>
      cases w with
      | inl k =>
          obtain ⟨_, _, rfl⟩ := Option.map_eq_some_iff.mp h
          exact ⟨hu.calls, hu.serve, hu.requestsCancelled, hwaiters⟩
      | inr p =>
          obtain ⟨_, hmap⟩ := Option.ite_none_right_eq_some.mp h
          obtain ⟨_, _, rfl⟩ := Option.map_eq_some_iff.mp hmap
          exact ⟨hu.calls, hu.serve, hu.requestsCancelled, hwaiters⟩
  | advance | race | evaluated =>
      obtain ⟨_, _, rfl⟩ := Option.map_eq_some_iff.mp h
      exact ⟨hu.calls, hu.serve, hu.requestsCancelled, hwaiters⟩

theorem inert_of_path (h : Path Step .new actions s) : Inert s :=
  h.invariant (P := Inert) (fun _ => ⟨fun _ => rfl, rfl, rfl, fun _ => trivial⟩) fun _ _ _ hi hstep => hi.step hstep

/-! ## After the notification -/

/-- A future that has read the flag clear is notified. -/
def Waiter.Notified : Waiter → Prop
  | .waiting completed | .pending completed => completed = true
  | _ => True

/-- Shutdown has begun, and whoever has not seen the flag is notified. -/
structure Announced (s : State β κ π) : Prop where
  shuttingDown : s.shuttingDown = true
  waiters : ∀ w, (s.waiters w).Notified

theorem Waiter.notified_notify (also : Bool) : (waiter.notify also).Notified := by
  cases waiter <;> trivial

theorem Waiter.Notified.poll {waiter' : Waiter} (h : waiter.Notified) (hpoll : waiter.poll = some waiter') :
    waiter'.Notified := by
  cases waiter with
  | unpolled =>
      cases hpoll
      trivial
  | pending =>
      cases hpoll
      exact h
  | _ => cases hpoll

theorem Waiter.Notified.advance {waiter' : Waiter} (h : waiter.Notified)
    (hadvance : waiter.advance true = some waiter') :
    waiter'.Notified := by
  cases waiter with
  | created | enabled =>
      cases hadvance
      trivial
  | waiting completed =>
      obtain rfl : completed = true := h
      cases hadvance
      trivial
  | _ => cases hadvance

theorem Announced.step (ha : Announced s) (h : Step s action s') : Announced s' := by
  refine ⟨shuttingDown_of_step h ha.shuttingDown, fun w => ?_⟩
  cases moves_of_step h w with
  | stays hsame => exact hsame ▸ ha.waiters w
  | polls hpoll => exact (ha.waiters w).poll hpoll
  | advances hadvance => exact (ha.waiters w).advance (ha.shuttingDown ▸ hadvance)
  | notified hnotified => exact hnotified ▸ Waiter.notified_notify _

/-- What a step does to a call of `begin_shutdown`. -/
theorem call_of_step (h : Step s action s') (call : β) :
    s'.beginShutdown call = s.beginShutdown call ∨ (s'.beginShutdown call = .stored ∧ s'.shuttingDown = true) ∨
      (s.beginShutdown call = .stored ∧ ∃ also, s'.waiters = s.notify also) := by
  cases action with
  | storeShuttingDown call' =>
      obtain ⟨_, ⟨⟩⟩ := Option.ite_none_right_eq_some.mp h
      by_cases hcall : call = call'
      · exact Or.inr (Or.inl ⟨by simp [hcall], rfl⟩)
      · exact Or.inl (Function.update_of_ne hcall _ _)
  | notifyShutdown call' also =>
      obtain ⟨hstored, ⟨⟩⟩ := Option.ite_none_right_eq_some.mp h
      by_cases hcall : call = call'
      · exact Or.inr (Or.inr ⟨hcall ▸ hstored, also, rfl⟩)
      · exact Or.inl (Function.update_of_ne hcall _ _)
  | stopped | terminated | storeRequestsCancelled | notifyCancelled =>
      obtain ⟨_, ⟨⟩⟩ := Option.ite_none_right_eq_some.mp h
      exact Or.inl rfl
  | poll w =>
      cases w with
      | inl k =>
          obtain ⟨_, _, rfl⟩ := Option.map_eq_some_iff.mp h
          exact Or.inl rfl
      | inr p =>
          obtain ⟨_, hmap⟩ := Option.ite_none_right_eq_some.mp h
          obtain ⟨_, _, rfl⟩ := Option.map_eq_some_iff.mp hmap
          exact Or.inl rfl
  | advance | race | evaluated =>
      obtain ⟨_, _, rfl⟩ := Option.map_eq_some_iff.mp h
      exact Or.inl rfl

/-- A call of `begin_shutdown` has set the flag after its store, and has announced the shutdown when it returns. -/
structure Announces (s : State β κ π) : Prop where
  stored : ∀ call, s.beginShutdown call ≠ .before → s.shuttingDown = true
  returned : ∀ call, s.beginShutdown call = .returned → Announced s

theorem Announces.step (ha : Announces s) (h : Step s action s') : Announces s' := by
  refine ⟨fun call hcall => ?_, fun call hcall => ?_⟩
  · rcases call_of_step h call with hsame | ⟨_, hset⟩ | ⟨hstored, _⟩
    · exact shuttingDown_of_step h (ha.stored call (hsame ▸ hcall))
    · exact hset
    · exact shuttingDown_of_step h (ha.stored call (by rw [hstored]; nofun))
  · rcases call_of_step h call with hsame | ⟨hstored, _⟩ | ⟨hstored, also, hwaiters⟩
    · exact (ha.returned call (hsame ▸ hcall)).step h
    · cases hstored.symm.trans hcall
    · refine ⟨shuttingDown_of_step h (ha.stored call (by rw [hstored]; nofun)), fun w => ?_⟩
      rw [hwaiters]
      exact Waiter.notified_notify _

theorem announces_of_path (h : Path Step .new actions s) : Announces s :=
  h.invariant (P := Announces) ⟨fun _ hne => absurd rfl hne, nofun⟩ fun _ _ _ ha hstep => ha.step hstep

/-! ## A poll that begins after the notification -/

def isAdvance (w : κ ⊕ π) : Action β κ π → Bool
  | .advance w' => w' = w
  | _ => false

/-- A poll after so many steps of its own: it is ready, or it is about to read the flag, or it is notified. -/
def Waiter.Ending (steps : Nat) : Waiter → Prop
  | .created _ | .waiting true => steps = 0
  | .enabled _ => steps ≤ 1
  | .ready => True
  | _ => False

theorem ending_of_poll (h : waiter.Notified) {waiter' : Waiter} (hpoll : waiter.poll = some waiter') :
    waiter'.Ending 0 := by
  cases waiter with
  | unpolled =>
      cases hpoll
      rfl
  | pending completed =>
      obtain rfl : completed = true := h
      cases hpoll
      rfl
  | _ => cases hpoll

theorem Waiter.Ending.advance {steps : Nat} {waiter' : Waiter} (h : waiter.Ending steps)
    (hadvance : waiter.advance true = some waiter') : waiter'.Ending (steps + 1) := by
  cases waiter with
  | created =>
      obtain rfl : steps = 0 := h
      cases hadvance
      exact le_rfl
  | enabled =>
      cases hadvance
      trivial
  | waiting completed =>
      cases completed with
      | false => exact h.elim
      | true =>
          cases hadvance
          trivial
  | _ => cases hadvance

theorem Waiter.Ending.notify {steps : Nat} (h : waiter.Ending steps) (also : Bool) :
    (waiter.notify also).Ending steps := by
  cases waiter with
  | waiting completed =>
      cases completed with
      | false => exact h.elim
      | true => exact h
  | created | enabled | ready => exact h
  | unpolled | pending => exact h.elim

theorem Waiter.Ending.poll_eq_none {steps : Nat} (h : waiter.Ending steps) : waiter.poll = none := by
  cases waiter with
  | unpolled | pending => exact h.elim
  | _ => rfl

theorem Waiter.Ending.step {steps : Nat} (he : (s.waiters w).Ending steps) (ha : Announced s) (h : Step s action s') :
    (s'.waiters w).Ending (steps + if isAdvance w action then 1 else 0) := by
  have hother (hne : action ≠ .advance w) : steps + (if isAdvance w action then 1 else 0) = steps := by
    have hfalse : isAdvance w action = false := by
      cases action with
      | advance w' => exact decide_eq_false fun hw => hne (by rw [hw])
      | _ => rfl
    simp [hfalse]
  cases moves_of_step h w with
  | stays hsame hne => rwa [hother hne, hsame]
  | polls hpoll _ => cases he.poll_eq_none.symm.trans hpoll
  | advances hadvance haction =>
      rw [haction, isAdvance, decide_eq_true rfl, if_pos rfl]
      exact he.advance (ha.shuttingDown ▸ hadvance)
  | notified hnotified hne =>
      rw [hother hne, hnotified]
      exact he.notify _

theorem Waiter.Ending.path {steps : Nat} (he : (s.waiters w).Ending steps) (ha : Announced s)
    (h : Path Step s actions s') :
    (s'.waiters w).Ending (steps + actions.countP (isAdvance w)) := by
  induction h generalizing steps with
  | nil => exact he
  | cons hact _ ih =>
      rw [List.countP_cons, Nat.add_comm (List.countP _ _), ← Nat.add_assoc]
      exact ih (he.step ha hact) (ha.step hact)

theorem Waiter.Ending.ready_or_advance {steps : Nat} (h : waiter.Ending steps) (shuttingDown : Bool) :
    waiter = .ready ∨ steps < 2 ∧ ∃ waiter', waiter.advance shuttingDown = some waiter' := by
  cases waiter with
  | created =>
      obtain rfl : steps = 0 := h
      exact Or.inr ⟨Nat.two_pos, _, rfl⟩
  | enabled => exact Or.inr ⟨Nat.lt_succ_of_le h, _, rfl⟩
  | waiting completed =>
      cases completed with
      | false => exact h.elim
      | true =>
          obtain rfl : steps = 0 := h
          exact Or.inr ⟨Nat.two_pos, _, rfl⟩
  | ready => exact Or.inl rfl
  | unpolled | pending => exact h.elim

/-! ## Probes -/

theorem probe_of_step (h : Step s action s') (p : π) :
    s'.probes p = s.probes p ∨ s.probes p = .idle ∨ (s.probes p).race (s.waiters (.inr p)) = some (s'.probes p) ∨
      ∃ state, (s.probes p).evaluated state = some (s'.probes p) := by
  cases action with
  | storeShuttingDown | notifyShutdown | stopped | terminated | storeRequestsCancelled | notifyCancelled =>
      obtain ⟨_, ⟨⟩⟩ := Option.ite_none_right_eq_some.mp h
      exact Or.inl rfl
  | advance =>
      obtain ⟨_, _, rfl⟩ := Option.map_eq_some_iff.mp h
      exact Or.inl rfl
  | poll w =>
      cases w with
      | inl k =>
          obtain ⟨_, _, rfl⟩ := Option.map_eq_some_iff.mp h
          exact Or.inl rfl
      | inr p' =>
          obtain ⟨hidle, hmap⟩ := Option.ite_none_right_eq_some.mp h
          obtain ⟨_, _, rfl⟩ := Option.map_eq_some_iff.mp hmap
          by_cases hp : p = p'
          · exact Or.inr (Or.inl (hp ▸ hidle))
          · exact Or.inl (Function.update_of_ne hp _ _)
  | race p' =>
      obtain ⟨probe, hrace, rfl⟩ := Option.map_eq_some_iff.mp h
      by_cases hp : p = p'
      · subst hp
        exact Or.inr (Or.inr (Or.inl (by simpa using hrace)))
      · exact Or.inl (Function.update_of_ne hp _ _)
  | evaluated p' state =>
      obtain ⟨probe, hevaluated, rfl⟩ := Option.map_eq_some_iff.mp h
      by_cases hp : p = p'
      · subst hp
        exact Or.inr (Or.inr (Or.inr ⟨state, by simpa using hevaluated⟩))
      · exact Or.inl (Function.update_of_ne hp _ _)

/-- A probe that is polled after the announcement polls its first branch, or has answered that it is not ready. -/
def Probe.Unready (probe : Probe) : Prop := probe = .racing ∨ probe = .answered 503

theorem Probe.Unready.step {steps : Nat} (hu : (s.probes p).Unready) (he : (s.waiters (.inr p)).Ending steps)
    (h : Step s action s') : (s'.probes p).Unready := by
  rcases probe_of_step h p with hsame | hidle | hrace | ⟨state, hevaluated⟩
  · exact hsame ▸ hu
  · rcases hu with hu | hu <;> cases hidle.symm.trans hu
  · rcases hu with hu | hu
    · cases hwaiter : s.waiters (.inr p) with
      | ready =>
          rw [hu, hwaiter] at hrace
          exact Or.inr (Option.some.inj hrace).symm
      | pending =>
          rw [hwaiter] at he
          exact he.elim
      | _ =>
          rw [hu, hwaiter] at hrace
          cases hrace
    · rw [hu] at hrace
      cases hrace
  · rcases hu with hu | hu <;> rw [hu] at hevaluated <;> cases hevaluated

theorem Probe.Unready.path {steps : Nat} (hu : (s.probes p).Unready) (he : (s.waiters (.inr p)).Ending steps)
    (ha : Announced s) (h : Path Step s actions s') : (s'.probes p).Unready := by
  induction h generalizing steps with
  | nil => exact hu
  | cons hact _ ih => exact ih (hu.step he hact) (he.step ha hact) (ha.step hact)

/-! ## The whole -/

theorem polled_of_announced (ha : Announced s) (h : Step s (.poll w) s') :
    (s'.waiters w).Ending 0 ∧ ∀ p, w = .inr p → (s'.probes p).Unready := by
  cases w with
  | inl k =>
      obtain ⟨waiter, hpoll, rfl⟩ := Option.map_eq_some_iff.mp h
      exact ⟨by simpa [State.put] using ending_of_poll (ha.waiters _) hpoll, nofun⟩
  | inr p =>
      obtain ⟨_, hmap⟩ := Option.ite_none_right_eq_some.mp h
      obtain ⟨waiter, hpoll, rfl⟩ := Option.map_eq_some_iff.mp hmap
      refine ⟨by simpa [State.put] using ending_of_poll (ha.waiters _) hpoll, ?_⟩
      rintro p' ⟨⟩
      exact Or.inl (by simp)

/-- However the steps interleave, no future of `shutdown_started` misses the shutdown or is ready before it, requests
are cancelled only during it, and no probe that is polled after its start answers that it is ready. -/
theorem shutdown_observed (h : Path Step .new actions s) :
    (∀ call, s.beginShutdown call = .returned → ∀ w rest s', Path Step s (.poll w :: rest) s' →
      s'.waiters w = .ready ∨ rest.countP (isAdvance w) < 2 ∧ ∃ s'', Step s' (.advance w) s'') ∧
    (∀ w, s.waiters w = .ready → s.shuttingDown = true) ∧
    (s.requestsCancelled = true → s.shuttingDown = true) ∧
    ∀ call, s.beginShutdown call = .returned → ∀ p rest s', Path Step s (.poll (.inr p) :: rest) s' →
      s'.probes p ≠ .answered 200 := by
  have hinert := inert_of_path h
  have hannounces := announces_of_path h
  refine ⟨fun call hcall w rest s' hpath => ?_, fun w hready => ?_, fun hcancelled => ?_,
    fun call hcall p rest s' hpath => ?_⟩
  · obtain ⟨s₁, hpoll, hrest⟩ := path_cons.mp hpath
    have ha := hannounces.returned call hcall
    have hending := (polled_of_announced ha hpoll).1.path (ha.step hpoll) hrest
    rw [Nat.zero_add] at hending
    refine (hending.ready_or_advance s'.shuttingDown).imp_right fun ⟨hlt, waiter, hadvance⟩ =>
      ⟨hlt, s'.put w waiter, ?_⟩
    exact Option.map_eq_some_iff.mpr ⟨waiter, hadvance, rfl⟩
  · by_contra hclear
    have hquiet := (hinert (Bool.eq_false_iff.mpr hclear)).waiters w
    rw [hready] at hquiet
    exact hquiet
  · by_contra hclear
    cases (hinert (Bool.eq_false_iff.mpr hclear)).requestsCancelled.symm.trans hcancelled
  · obtain ⟨s₁, hpoll, hrest⟩ := path_cons.mp hpath
    have ha := hannounces.returned call hcall
    obtain ⟨hending, hunready⟩ := polled_of_announced ha hpoll
    rcases (hunready p rfl).path hending (ha.step hpoll) hrest with hracing | hanswered
    · rw [hracing]
      nofun
    · rw [hanswered]
      nofun

/-- A probe waits for the refresh while shutdown begins. -/
def probeActions : List (Action Unit Unit Unit) :=
  [.poll (.inr ()), .advance (.inr ()), .advance (.inr ()), .advance (.inr ()), .race (), .evaluated () none,
    .storeShuttingDown (), .notifyShutdown () fun _ => false]

theorem shutdown_observed_by_probe :
    ∃ s s' : State Unit Unit Unit, s.probes () = .idle ∧ s.beginShutdown () = .returned ∧
    Path Step s [.poll (.inr ()), .advance (.inr ()), .race ()] s' ∧ s'.probes () ≠ .answered 200 := by
  obtain ⟨s, hs, hidle, hreturned, s', hs'⟩ : ∃ s : State Unit Unit Unit, probeActions.foldlM State.next .new = some s ∧
      s.probes () = .idle ∧ s.beginShutdown () = .returned ∧
      ∃ s', [.poll (.inr ()), .advance (.inr ()), .race ()].foldlM State.next s = some s' :=
    ⟨_, rfl, rfl, rfl, _, rfl⟩
  have hpath : Path Step s [.poll (.inr ()), .advance (.inr ()), .race ()] s' := path_of_foldlM (fun _ _ _ => id) hs'
  exact ⟨s, s', hidle, hreturned, hpath,
    (shutdown_observed (path_of_foldlM (fun _ _ _ => id) hs)).2.2.2 () hreturned () _ _ hpath⟩

end PermissionSync.Runtime.Lifecycle
