import PermissionSync.Core.Lemmas.Checks
import PermissionSync.Runtime.Process

/-!
# What a request holds on its way

At every operation a request gives back only what it holds, holds nothing twice, and holds the permit below each counted
value. When its program ends it holds nothing.
-/

namespace PermissionSync.Runtime

open PermissionSync.Base PermissionSync.Core PermissionSync.Inbound PermissionSync.Orchestration

variable {ε α : Type} {h t : Trace} {held : List Item} {e : Event service} {deadline : Instant}
  {context : SynchronizationContext}

/-! ## Stacks of held values -/

theorem hold_append (t₁ t₂ : Trace) :
    hold (t₁ ++ t₂) = t₂.foldl (fun held e => (effect e).items held) (hold t₁) := List.foldl_append

theorem hold_snoc (t : Trace) (e : Event service) : hold (t ++ [e]) = (effect e).items (hold t) := hold_append t [e]

/-- Operations that concern nobody else change nothing that is held. -/
theorem hold_append_of_none (ht : ∀ e ∈ t, effect e = .none) : hold (h ++ t) = hold h := by
  induction t generalizing h with
  | nil => rw [List.append_nil]
  | cons e t ih =>
      obtain ⟨he, ht⟩ := List.forall_mem_cons.mp ht
      rw [List.append_cons, ih ht, hold_snoc, he]
      rfl

theorem effect_of_polls (he : Polls e) : effect e = .none := by
  obtain ⟨o, x⟩ := e
  rcases he with ⟨signal, rfl⟩ | rfl <;> rfl

theorem hold_append_polls (ht : ∀ e ∈ t, Polls e) : hold (h ++ t) = hold h :=
  hold_append_of_none fun e he => effect_of_polls (ht e he)

/-- The semaphore whose permit a counted value keeps. -/
def guardSem : Guard → Sem
  | .waitingGuard => .waiters
  | .admittedRequest => .permits
  | .heldPermit => .capacity

/-- What a value is held over: a counted value over its permit, and the future of a waiting request over the value that
counts it. -/
def support : Item → Option Item
  | .live guard => some (.own (guardSem guard))
  | .pending .permits => some (.live .waitingGuard)
  | _ => none

/-- Nothing is held twice, and everything over what it needs. -/
def Fits : List Item → Prop
  | [] => True
  | item :: held => item ∉ held ∧ (∀ below ∈ support item, below ∈ held) ∧ Fits held

/-- What an operation gives back is held. -/
def Effect.Proper (held : List Item) : Effect → Prop
  | .sem x .release => .own x ∈ held
  | .sem x .complete | .sem x .abandon => .pending x ∈ held
  | .leave guard => .live guard ∈ held
  | _ => True

theorem Fits.nodup (hf : Fits held) : held.Nodup := by
  induction held with
  | nil => exact .nil
  | cons item held ih => exact List.nodup_cons.mpr ⟨hf.1, ih hf.2.2⟩

theorem Fits.support_mem (hf : Fits held) {item below : Item} (hitem : item ∈ held) (hbelow : below ∈ support item) :
    below ∈ held := by
  induction held with
  | nil => cases hitem
  | cons top held ih =>
      rcases List.mem_cons.mp hitem with rfl | hitem
      · exact List.mem_cons_of_mem _ (hf.2.1 below hbelow)
      · exact List.mem_cons_of_mem _ (ih hf.2.2 hitem)

theorem Fits.of_append {dropped : List Item} (hf : Fits (dropped ++ held)) : Fits held := by
  induction dropped with
  | nil => exact hf
  | cons item dropped ih => exact ih hf.2.2

theorem items_drop (item : Item) (held : List Item) : (effect item.drop).items (item :: held) = held := by
  cases item <;> exact List.erase_cons_head ..

theorem proper_drop (item : Item) (held : List Item) : (effect item.drop).Proper (item :: held) := by
  cases item <;> exact List.mem_cons_self

/-- Dropping the latest values leaves the others. -/
theorem hold_append_drop {dropped : List Item} (hheld : hold t = dropped ++ held) :
    hold (t ++ dropped.map Item.drop) = held := by
  induction dropped generalizing t with
  | nil => simpa using hheld
  | cons item dropped ih =>
      rw [List.map_cons, List.append_cons]
      refine ih ?_
      rw [hold_snoc, hheld]
      exact items_drop item _

/-- Only `enter` adds a counted value. -/
theorem live_mem_of_items {guard : Guard} {effect : Effect} (hne : effect ≠ .enter guard)
    (hlive : .live guard ∈ effect.items held) : .live guard ∈ held := by
  match effect with
  | .none | .sem _ (.tryAcquire false) => exact hlive
  | .sem _ (.tryAcquire true) | .sem _ (.poll true) | .sem _ (.poll false) =>
      exact (List.mem_cons.mp hlive).resolve_left nofun
  | .sem _ .complete => exact List.mem_of_mem_erase ((List.mem_cons.mp hlive).resolve_left nofun)
  | .sem _ .abandon | .sem _ .release | .leave _ => exact List.mem_of_mem_erase hlive
  | .enter guard' =>
      exact (List.mem_cons.mp hlive).resolve_left fun heq => hne (congrArg Effect.enter (Item.live.inj heq).symm)

theorem effect_eq_enter {guard : Guard} (he : effect e = .enter guard) : e = ⟨.enter guard, ()⟩ := by
  match e with
  | ⟨.enter _, ()⟩ =>
      cases he
      rfl
  | ⟨.selectWoken _, woken⟩ => cases woken <;> cases he
  | ⟨.acquiredUntil _, acquired⟩ => cases acquired <;> cases he

/-- A counted value that is held was created. -/
theorem exists_enter_of_live {guard : Guard} (hlive : .live guard ∈ hold (h ++ t)) (hno : .live guard ∉ hold h) :
    ∃ pre post, t = pre ++ ⟨.enter guard, ()⟩ :: post := by
  induction t generalizing h with
  | nil => exact absurd (by simpa using hlive) hno
  | cons e t ih =>
      by_cases he : e = ⟨.enter guard, ()⟩
      · exact ⟨[], t, by rw [he, List.nil_append]⟩
      · rw [List.append_cons] at hlive
        have hno' : .live guard ∉ hold (h ++ [e]) := by
          rw [hold_snoc]
          exact fun hmem => hno (live_mem_of_items (fun heq => he (effect_eq_enter heq)) hmem)
        obtain ⟨pre, post, rfl⟩ := ih hlive hno'
        exact ⟨e :: pre, post, rfl⟩

/-! ## The guard -/

/-- What is held when an operation of a stage is performed. A request becomes an admitted one right after it has read,
with its permit, that the process is serving. -/
def Placed (h : Trace) : Op → Prop
  | .bodyFrame _ | .authenticate _ _ => .live .admittedRequest ∈ hold h
  | .resolve _ | .reconcile _ _ => .live .heldPermit ∈ hold h
  | .enter .admittedRequest => ∃ (h' : Trace) (n : Instant),
      h = h' ++ [⟨.isShuttingDown, false⟩, ⟨.now, n⟩] ∧ .own .permits ∈ hold h'
  | _ => True

structure Situated (h : Trace) (e : Event service) : Prop where
  proper : (effect e).Proper (hold h)
  fits : Fits (hold h)
  placed : Placed h e.op

theorem Situated.of_polls (hfits : Fits (hold h)) (he : Polls e) : Situated h e where
  proper := by rw [effect_of_polls he]; trivial
  fits := hfits
  placed := by rcases he with ⟨signal, hop⟩ | hop <;> rw [hop] <;> trivial

/-- An operation that leads from one stack to another. -/
theorem situated_ask_bind {o : Op} {f : service.Ans o → Io ε α} {R : Except ε α → Trace → Prop}
    (hheld : hold h = held) (hfits : Fits held) (hproper : ∀ x, (effect ⟨o, x⟩).Proper held) (hplaced : Placed h o)
    (hf : ∀ x, hold (h ++ [⟨o, x⟩]) = (effect ⟨o, x⟩).items held → Holds Situated (h ++ [⟨o, x⟩]) (f x) R) :
    Holds Situated h (Prog.ask (I := service) o >>= f) R := by
  subst hheld
  exact Holds.ask_bind (fun x => ⟨hproper x, hfits, hplaced⟩) fun x => hf x (hold_snoc h _)

theorem situated_unavailable {R : Except ε Bool → Trace → Prop} (hheld : hold h = held) (hfits : Fits held)
    (hR : ∀ t stopped, hold (h ++ t) = held → R (.ok stopped) (h ++ t)) :
    Holds Situated h (unavailable context) R := by
  subst hheld
  intro t r hr
  obtain ⟨hpolls, stopped, rfl, _⟩ := polls_of_unavailable hr
  refine ⟨?_, hR t stopped (hold_append_polls hpolls)⟩
  rintro pre e post rfl
  have hpre : hold (h ++ pre) = hold h := hold_append_polls fun e he => hpolls e (List.mem_append_left _ he)
  exact .of_polls (hpre ▸ hfits) (hpolls e (by simp))

/-! ## Admission -/

/-- What an admitted request holds. -/
def admittedItems : List Item := [.live .admittedRequest, .own .permits]

theorem run_closedFor {r : Except ε Bool} :
    Run (closedFor deadline) t r ↔
      (t = [⟨.isShuttingDown, true⟩] ∧ r = .ok true) ∨
        ∃ n : Instant, t = [⟨.isShuttingDown, false⟩, ⟨.now, n⟩] ∧ r = .ok (decide (deadline ≤ n)) := by
  refine run_ask_bind.trans ?_
  constructor
  · intro h
    obtain ⟨closed, t', rfl, h⟩ := h
    cases closed with
    | true =>
        obtain ⟨rfl, rfl⟩ := run_pure.mp h
        exact Or.inl ⟨rfl, rfl⟩
    | false =>
        obtain ⟨n, t'', rfl, hclock⟩ := run_ask_bind.mp h
        obtain ⟨rfl, rfl⟩ := run_pure.mp hclock
        exact Or.inr ⟨n, rfl, rfl⟩
  · intro h
    rcases h with ⟨rfl, rfl⟩ | ⟨n, rfl, rfl⟩
    · exact ⟨true, [], rfl, run_pure.mpr ⟨rfl, rfl⟩⟩
    · exact ⟨false, _, rfl, run_ask_bind.mpr ⟨n, [], rfl, run_pure.mpr ⟨rfl, rfl⟩⟩⟩

theorem closedFor_holds {R : Except ε Bool → Trace → Prop} (hheld : hold h = held) (hfits : Fits held)
    (hstop : ∀ t, hold (h ++ t) = held → R (.ok true) (h ++ t))
    (hgo : ∀ n : Instant, R (.ok false) (h ++ [⟨.isShuttingDown, false⟩, ⟨.now, n⟩])) :
    Holds Situated h (closedFor deadline) R := by
  refine situated_ask_bind hheld hfits (fun _ => trivial) trivial fun closed hheld₁ => ?_
  cases closed with
  | true => exact .pure (hstop _ hheld₁)
  | false =>
      refine situated_ask_bind hheld₁ hfits (fun _ => trivial) trivial fun (n : Instant) hheld₂ => ?_
      rw [List.append_assoc] at hheld₂ ⊢
      refine .pure ?_
      by_cases hn : deadline ≤ n
      · rw [decide_eq_true hn]
        exact hstop _ hheld₂
      · rw [decide_eq_false hn]
        exact hgo n

theorem fits_own (x : Sem) : Fits [.own x] := ⟨List.not_mem_nil, nofun, trivial⟩

theorem finalize_holds {R : Except ε Admission → Trace → Prop} (hheld : hold h = [.own .permits])
    (hno : ∀ h', hold h' = [] → R (.ok .notAdmitted) h')
    (hyes : ∀ h', hold h' = admittedItems → R (.ok .admitted) h') :
    Holds Situated h (finalize deadline) R := by
  refine Holds.bind (closedFor_holds hheld (fits_own _) (fun t hheld₁ => ?_) fun n => ?_)
  · refine situated_ask_bind hheld₁ (fits_own _) (fun _ => List.mem_cons_self) trivial fun _ hheld₂ => ?_
    exact .pure (hno _ hheld₂)
  · have hheld₁ : hold (h ++ [⟨.isShuttingDown, false⟩, ⟨.now, n⟩]) = [.own .permits] := by
      rw [hold_append, hheld]
      rfl
    refine situated_ask_bind hheld₁ (fits_own _) (fun _ => trivial) ⟨h, n, rfl, hheld ▸ List.mem_cons_self⟩
      fun _ hheld₂ => ?_
    exact .pure (hyes _ hheld₂)

/-- What a request holds that is parked in the wait. -/
def waitingItems : List Item := [.live .waitingGuard, .own .waiters]

theorem fits_waiting : Fits waitingItems := by simp [Fits, waitingItems, support, guardSem]

theorem fits_admitted : Fits admittedItems := by simp [Fits, admittedItems, support, guardSem]

theorem selectPermit_holds {R : Except ε Bool → Trace → Prop} (hheld : hold h = waitingItems)
    (hno : ∀ h', hold h' = waitingItems → R (.ok false) h')
    (hyes : ∀ h', hold h' = .own .permits :: waitingItems → R (.ok true) h') :
    Holds Situated h (selectPermit deadline) R := by
  refine situated_ask_bind hheld fits_waiting (fun _ => trivial) trivial fun closed hheld₁ => ?_
  cases closed with
  | true => exact .pure (hno _ hheld₁)
  | false =>
      refine situated_ask_bind hheld₁ fits_waiting (fun _ => trivial) trivial fun polled hheld₂ => ?_
      cases polled with
      | true => exact .pure (hyes _ hheld₂)
      | false =>
          have hfits : Fits (.pending .permits :: waitingItems) := by simp [Fits, waitingItems, support, guardSem]
          refine situated_ask_bind hheld₂ hfits (fun woken => ?_) trivial fun woken hheld₃ => ?_
          · cases woken <;> first | trivial | exact List.mem_cons_self
          · cases woken with
            | granted => exact .pure (hyes _ hheld₃)
            | shutdownStarted | expired =>
                refine situated_ask_bind hheld₃ hfits (fun _ => List.mem_cons_self) trivial fun _ hheld₄ => ?_
                exact .pure (hno _ hheld₄)

theorem admitRequest_holds {R : Except ε Admission → Trace → Prop} (hheld : hold h = [])
    (hno : ∀ h', hold h' = [] → R (.ok .notAdmitted) h' ∧ R (.ok .refusedWithoutWaiting) h')
    (hyes : ∀ h', hold h' = admittedItems → R (.ok .admitted) h') :
    Holds Situated h (admitRequest deadline) R := by
  have hfinalize {h'} (hheld' : hold h' = [.own .permits]) : Holds Situated h' (finalize deadline) R :=
    finalize_holds hheld' (fun h'' hh => (hno h'' hh).1) hyes
  refine Holds.bind (closedFor_holds hheld trivial (fun t hheld₁ => .pure (hno _ hheld₁).1) fun n => ?_)
  have hheld₁ : hold (h ++ [⟨.isShuttingDown, false⟩, ⟨.now, n⟩]) = [] := by
    rw [hold_append, hheld]
    rfl
  refine situated_ask_bind hheld₁ trivial (fun _ => trivial) trivial fun obtained hheld₂ => ?_
  cases obtained with
  | true => exact hfinalize hheld₂
  | false =>
      refine situated_ask_bind hheld₂ trivial (fun _ => trivial) trivial fun slot hheld₃ => ?_
      cases slot with
      | false => exact .pure (hno _ hheld₃).2
      | true =>
          refine situated_ask_bind hheld₃ (fits_own _) (fun _ => trivial) trivial fun _ hheld₄ => ?_
          refine Holds.bind (selectPermit_holds hheld₄ (fun h' hheld₅ => ?_) fun h' hheld₅ => ?_)
          · refine situated_ask_bind hheld₅ fits_waiting (fun _ => List.mem_cons_self) trivial fun _ hheld₆ => ?_
            refine situated_ask_bind hheld₆ (fits_own _) (fun _ => List.mem_cons_self) trivial fun _ hheld₇ => ?_
            exact .pure (hno _ hheld₇).1
          · -- The permit was obtained last, and the slot below it is dropped first.
            have hfits : Fits (.own .permits :: waitingItems) := by simp [Fits, waitingItems, support, guardSem]
            have hfits' : Fits [.own .permits, .own .waiters] := by simp [Fits, support]
            refine situated_ask_bind hheld₅ hfits (fun _ => List.mem_cons_of_mem _ List.mem_cons_self) trivial
              fun _ hheld₆ => ?_
            refine situated_ask_bind hheld₆ hfits' (fun _ => List.mem_cons_of_mem _ List.mem_cons_self) trivial
              fun _ hheld₇ => ?_
            exact hfinalize hheld₇

/-! ## Capacity and synchronization -/

/-- A stack without anything of the capacity. -/
structure Bare (held : List Item) : Prop where
  fits : Fits held
  own : .own .capacity ∉ held
  pending : .pending .capacity ∉ held
  live : .live .heldPermit ∉ held

/-- What is held over the rest while the Provider and the Adapter work. -/
def permitItems (held : List Item) : List Item := .live .heldPermit :: .own .capacity :: held

theorem Bare.fits_own (hb : Bare held) : Fits (.own .capacity :: held) := ⟨hb.own, nofun, hb.fits⟩

theorem Bare.fits_permit (hb : Bare held) : Fits (permitItems held) := by
  refine ⟨?_, ?_, hb.fits_own⟩
  · exact fun hmem => hb.live ((List.mem_cons.mp hmem).resolve_left nofun)
  · rintro below ⟨⟩
    exact List.mem_cons_self

theorem awaitPermit_holds {R : Except SynchronizationCapacityError Unit → Trace → Prop} (hheld : hold h = held)
    (hb : Bare held) (hno : ∀ h', hold h' = held → R (.error .unavailable) h')
    (hyes : ∀ h', hold h' = .own .capacity :: held → R (.ok ()) h') :
    Holds Situated h (awaitPermit deadline) R := by
  refine situated_ask_bind hheld hb.fits (fun _ => trivial) trivial fun obtained hheld₁ => ?_
  cases obtained with
  | true => exact .pure (hyes _ hheld₁)
  | false =>
      refine situated_ask_bind hheld₁ hb.fits (fun _ => trivial) trivial fun polled hheld₂ => ?_
      cases polled with
      | true => exact .pure (hyes _ hheld₂)
      | false =>
          have hfits : Fits (.pending .capacity :: held) := ⟨hb.pending, nofun, hb.fits⟩
          refine situated_ask_bind hheld₂ hfits (fun acquired => ?_) trivial fun acquired hheld₃ => ?_
          · cases acquired <;> first | trivial | exact List.mem_cons_self
          · cases acquired with
            | true =>
                refine .pure (hyes _ (hheld₃.trans ?_))
                exact congrArg _ (List.erase_cons_head ..)
            | false =>
                refine situated_ask_bind hheld₃ hfits (fun _ => List.mem_cons_self) trivial fun _ hheld₄ => ?_
                exact .fail (hno _ (hheld₄.trans (items_drop (.pending .capacity) held)))

theorem acquire_situated {R : Except SynchronizationCapacityError Unit → Trace → Prop} (hheld : hold h = held)
    (hb : Bare held) (hno : ∀ h', hold h' = held → R (.error .unavailable) h')
    (hyes : ∀ h', hold h' = permitItems held → R (.ok ()) h') :
    Holds Situated h (semaphoreCapacity.acquire context) R := by
  refine Holds.bind (situated_unavailable hheld hb.fits fun t stopped hheld₁ => ?_)
  cases stopped with
  | true => exact .fail (hno _ hheld₁)
  | false =>
      refine Holds.bind (awaitPermit_holds hheld₁ hb hno fun h' hheld₂ => ?_)
      refine Holds.bind (situated_unavailable hheld₂ hb.fits_own fun t stopped hheld₃ => ?_)
      cases stopped with
      | true =>
          refine situated_ask_bind hheld₃ hb.fits_own (fun _ => List.mem_cons_self) trivial fun _ hheld₄ => ?_
          exact .fail (hno _ (hheld₄.trans (items_drop (.own .capacity) held)))
      | false =>
          refine Holds.ask (fun _ => ⟨trivial, hheld₃ ▸ hb.fits_own, trivial⟩) fun _ => hyes _ ?_
          rw [hold_snoc, hheld₃]
          rfl

theorem dropPermit_situated {R : Except SelectedTargetSynchronizationError Unit → Trace → Prop}
    (hheld : hold h = permitItems held) (hb : Bare held) (hR : ∀ h', hold h' = held → R (.ok ()) h') :
    Holds Situated h semaphoreCapacity.dropPermit R := by
  refine situated_ask_bind hheld hb.fits_permit (fun _ => List.mem_cons_self) trivial fun _ hheld₁ => ?_
  have hheld₂ := hheld₁.trans (items_drop (.live .heldPermit) (.own .capacity :: held))
  refine Holds.ask (fun _ => ⟨hheld₂ ▸ List.mem_cons_self, hheld₂ ▸ hb.fits_own, trivial⟩) fun _ => hR _ ?_
  rw [hold_snoc, hheld₂]
  exact items_drop (.own .capacity) held

theorem failIfCancelled_situated {R : Except SelectedTargetSynchronizationError Unit → Trace → Prop}
    (hheld : hold h = held) (hfits : Fits held) (hR : ∀ h' r, hold h' = held → R r h') :
    Holds Situated h (failIfCancelled context) R := by
  refine Holds.bind (situated_unavailable hheld hfits fun t stopped hheld₁ => ?_)
  cases stopped with
  | true => exact .fail (hR _ _ hheld₁)
  | false => exact .pure (hR _ _ hheld₁)

theorem withPermit_situated {adapter : AdapterIdentifier} {request : SelectedTargetSynchronizationRequest}
    (hheld : hold h = permitItems held) (hb : Bare held) :
    Holds Situated h (withPermit adapter request) fun _ h' => hold h' = permitItems held := by
  have hplaced {h'} (hh : hold h' = permitItems held) : Item.live .heldPermit ∈ hold h' := hh ▸ List.mem_cons_self
  refine Holds.bind (failIfCancelled_situated hheld hb.fits_permit fun h₁ r hheld₁ => ?_)
  cases r with
  | error _ => exact hheld₁
  | ok _ =>
      refine situated_ask_bind hheld₁ hb.fits_permit (fun _ => trivial) (hplaced hheld₁) fun resolution hheld₂ => ?_
      refine Holds.bind (.lift ?_)
      cases resolution with
      | error _ => exact hheld₂
      | ok envelope =>
          refine Holds.bind (failIfCancelled_situated hheld₂ hb.fits_permit fun h₃ r hheld₃ => ?_)
          cases r with
          | error _ => exact hheld₃
          | ok _ =>
              refine situated_ask_bind hheld₃ hb.fits_permit (fun _ => trivial) (hplaced hheld₃)
                fun reconciliation hheld₄ => ?_
              refine Holds.bind (.lift ?_)
              cases reconciliation with
              | error _ => exact hheld₄
              | ok outcome =>
                  refine Holds.bind (failIfCancelled_situated hheld₄ hb.fits_permit fun h₅ r hheld₅ => ?_)
                  cases r with
                  | error _ => exact hheld₅
                  | ok _ => exact .pure hheld₅

/-- A synchronization leaves the request with what it held before. -/
theorem synchronize_situated {provider : Bool} {request : SelectedTargetSynchronizationRequest} (hheld : hold h = held)
    (hb : Bare held) :
    Holds Situated h (synchronize ⟨provider, semaphoreCapacity⟩ request) fun _ h' => hold h' = held := by
  refine Holds.bind (failIfCancelled_situated hheld hb.fits fun h₁ r hheld₁ => ?_)
  cases r with
  | error _ => exact hheld₁
  | ok _ =>
      refine Holds.bind (situated_ask_bind hheld₁ hb.fits (fun _ => trivial) trivial fun resolution hheld₂ => ?_)
      match resolution with
      | .error .unknownLogicalTarget => exact .fail hheld₂
      | .error (.unavailableAdapter _) => exact .fail hheld₂
      | .ok adapter =>
          refine .pure (Holds.bind (failIfCancelled_situated hheld₂ hb.fits fun h₃ r hheld₃ => ?_))
          cases r with
          | error _ => exact hheld₃
          | ok _ =>
              cases provider with
              | false => exact .fail hheld₃
              | true =>
                  refine Holds.attempt_bind (acquire_situated hheld₃ hb (fun h₄ hheld₄ => ?_) fun h₄ hheld₄ => ?_)
                  · exact Holds.bind (.lift hheld₄)
                  · refine Holds.bind (.lift (Holds.attempt_bind ?_))
                    refine (withPermit_situated hheld₄ hb).mono fun outcome h₅ hheld₅ => ?_
                    exact Holds.bind (dropPermit_situated hheld₅ hb fun h₆ hheld₆ => .lift hheld₆)

/-! ## The route -/

theorem bare_nil : Bare [] := ⟨trivial, List.not_mem_nil, List.not_mem_nil, List.not_mem_nil⟩

theorem bare_admitted : Bare admittedItems :=
  ⟨fits_admitted, by simp [admittedItems], by simp [admittedItems], by simp [admittedItems]⟩

theorem live_admitted (hheld : hold h = admittedItems) : .live .admittedRequest ∈ hold h := hheld ▸ List.mem_cons_self

/-- A part of the handling has returned, and the request is still an admitted one. -/
def Returned (r : Except ε α) (h : Trace) : Prop := (∃ a, r = .ok a) ∧ hold h = admittedItems

theorem whileAvailable_situated {next : Io ε HttpOutcome} (hheld : hold h = admittedItems)
    (hnext : ∀ h', hold h' = admittedItems → Holds Situated h' next Returned) :
    Holds Situated h (whileAvailable context next) Returned := by
  refine Holds.bind (situated_unavailable hheld fits_admitted fun t stopped hheld₁ => ?_)
  cases stopped with
  | true => exact .pure ⟨⟨_, rfl⟩, hheld₁⟩
  | false => exact hnext _ hheld₁

theorem handleAuthenticated_situated {read : JsonReader} {provider : Bool} {bearer : String}
    {selection : Auth.TargetSelection} {body : InboundBody} (hheld : hold h = admittedItems) :
    Holds Situated h
      (handleAuthenticated read ⟨provider, semaphoreCapacity⟩ bearer selection body context : Io ε HttpOutcome)
      Returned := by
  refine whileAvailable_situated hheld fun h₁ hheld₁ => ?_
  cases acceptedBody read body with
  | none => exact .pure ⟨⟨_, rfl⟩, hheld₁⟩
  | some login =>
      cases selection with
      | noTarget => exact whileAvailable_situated hheld₁ fun h₂ hheld₂ => .pure ⟨⟨_, rfl⟩, hheld₂⟩
      | selected target =>
          refine Holds.attempt_bind ((synchronize_situated hheld₁ bare_admitted).mono fun result h₂ hheld₂ => ?_)
          exact .pure ⟨⟨_, rfl⟩, hheld₂⟩

theorem handle_situated {read : JsonReader} {provider : Bool} {headers : List HeaderField} {body : InboundBody}
    (hheld : hold h = admittedItems) :
    Holds Situated h (handle read ⟨provider, semaphoreCapacity⟩ headers body context : Io ε HttpOutcome)
      Returned := by
  refine whileAvailable_situated hheld fun h₁ hheld₁ => whileAvailable_situated hheld₁ fun h₂ hheld₂ => ?_
  refine situated_ask_bind hheld₂ fits_admitted (fun _ => trivial) (live_admitted hheld₂)
    fun authentication hheld₃ => ?_
  refine whileAvailable_situated hheld₃ fun h₄ hheld₄ => ?_
  cases authentication with
  | error _ => exact .pure ⟨⟨_, rfl⟩, hheld₄⟩
  | ok caller => exact handleAuthenticated_situated hheld₄

theorem nextFrame_situated {next : Io ε CollectedBody} (hheld : hold h = admittedItems)
    (hnext : ∀ h', hold h' = admittedItems → Holds Situated h' next Returned) :
    Holds Situated h (nextFrame context .unavailable next) Returned := by
  refine Holds.bind (situated_unavailable hheld fits_admitted fun t stopped hheld₁ => ?_)
  cases stopped with
  | true => exact .pure ⟨⟨_, rfl⟩, hheld₁⟩
  | false =>
      refine situated_ask_bind hheld₁ fits_admitted (fun _ => trivial) (live_admitted hheld₁) fun answered hheld₂ => ?_
      cases answered with
      | true => exact hnext _ hheld₂
      | false => exact .pure ⟨⟨_, rfl⟩, hheld₂⟩

theorem collectBody_situated {frames : List Frame} {collected : List UInt8} (hheld : hold h = admittedItems) :
    Holds Situated h (collectBody context frames collected : Io ε CollectedBody)
      Returned := by
  induction frames generalizing h collected with
  | nil => exact nextFrame_situated hheld fun h' hheld' => .pure ⟨⟨_, rfl⟩, hheld'⟩
  | cons frame frames ih =>
      cases frame with
      | failed => exact nextFrame_situated hheld fun h' hheld' => .pure ⟨⟨_, rfl⟩, hheld'⟩
      | trailers => exact nextFrame_situated hheld fun h' hheld' => ih hheld'
      | data bytes =>
          refine nextFrame_situated hheld fun h' hheld' => ?_
          split
          · exact .pure ⟨⟨_, rfl⟩, hheld'⟩
          · exact ih hheld'

theorem handleAdmitted_situated {state : RuntimeState} {request : Request} (hheld : hold h = admittedItems) :
    Holds Situated h (handleAdmitted state request context : Io ε HttpOutcome)
      Returned := by
  refine Holds.bind ((collectBody_situated hheld).mono fun r h₁ hr => ?_)
  obtain ⟨⟨body, rfl⟩, hheld₁⟩ := hr
  cases body with
  | collected bytes => exact handle_situated hheld₁
  | boundExceeded => exact handle_situated hheld₁
  | transportFailure => exact .pure ⟨⟨_, rfl⟩, hheld₁⟩
  | unavailable => exact .pure ⟨⟨_, rfl⟩, hheld₁⟩

theorem handleSynchronization_situated {state : RuntimeState} {request : Request} (hheld : hold h = []) :
    Holds Situated h (handleSynchronization state request deadline : Io ε Response) fun _ h' => hold h' = [] := by
  refine Holds.bind (admitRequest_holds hheld (fun h₁ hheld₁ => ⟨.pure hheld₁, .pure hheld₁⟩) fun h₁ hheld₁ => ?_)
  refine Holds.bind ((handleAdmitted_situated hheld₁).mono fun r h₂ hr => ?_)
  obtain ⟨⟨outcome, rfl⟩, hheld₂⟩ := hr
  refine situated_ask_bind hheld₂ fits_admitted (fun _ => List.mem_cons_self) trivial fun _ hheld₃ => ?_
  refine situated_ask_bind hheld₃ (fits_own _) (fun _ => List.mem_cons_self) trivial fun _ hheld₄ => ?_
  exact .pure hheld₄

/-- A request that has been answered holds nothing. -/
theorem synchronizeRoute_situated (state : RuntimeState) (request : Request) :
    Holds Situated [] (synchronizeRoute state request) fun _ h' => hold h' = [] := by
  refine situated_ask_bind rfl trivial (fun _ => trivial) trivial fun acceptedAt hheld₁ => ?_
  cases Glpi.Instant.checkedAdd acceptedAt state.overallRequestDeadline with
  | none => exact .fail hheld₁
  | some deadline => exact handleSynchronization_situated hheld₁

end PermissionSync.Runtime
