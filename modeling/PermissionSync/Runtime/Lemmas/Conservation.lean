import PermissionSync.Runtime.Lemmas.Holding

/-!
# The shared state counts what the requests hold

Each semaphore lists as owners and waiters what the requests hold of it, whatever they do. Permits are conserved and the
gauges are exact because the requests give back only what they hold.
-/

namespace PermissionSync.Runtime

open PermissionSync.Base PermissionSync.Core

variable {ι ε α : Type} [DecidableEq ι] {k : ι} {e : Event service} {s s' : Process ι} {label : Label ι}
  {labels : List (Label ι)} {p : Io ε α} {t : Trace} {held : List Item}

/-! ## Counting held values -/

theorem count_own_items (x y : Sem) (call : Semaphore.Call) :
    ((Effect.sem y call).items held).count (.own x) =
      if x = y then call.owned (held.count (.own x)) else held.count (.own x) := by
  split
  case isTrue hxy =>
      subst hxy
      match call with
      | .tryAcquire true | .poll true => exact List.count_cons_self
      | .tryAcquire false | .abandon => simp [Effect.items, Semaphore.Call.owned, List.count_erase_of_ne]
      | .poll false => simp [Effect.items, Semaphore.Call.owned, List.count_cons_of_ne]
      | .complete => simp [Effect.items, Semaphore.Call.owned, List.count_erase_of_ne]
      | .release => exact List.count_erase_self
  case isFalse hxy =>
      have hne : Item.own y ≠ .own x := fun heq => hxy (Item.own.inj heq).symm
      match call with
      | .tryAcquire true | .poll true => exact List.count_cons_of_ne hne
      | .tryAcquire false | .abandon => simp [Effect.items, List.count_erase_of_ne]
      | .poll false => simp [Effect.items, List.count_cons_of_ne]
      | .complete => simp [Effect.items, List.count_erase_of_ne, List.count_cons_of_ne hne]
      | .release => exact List.count_erase_of_ne hne.symm

theorem count_pending_items (x y : Sem) (call : Semaphore.Call) :
    ((Effect.sem y call).items held).count (.pending x) =
      if x = y then call.pending (held.count (.pending x)) else held.count (.pending x) := by
  split
  case isTrue hxy =>
      subst hxy
      match call with
      | .poll false => exact List.count_cons_self
      | .tryAcquire false => rfl
      | .tryAcquire true | .poll true => simp [Effect.items, Semaphore.Call.pending, List.count_cons_of_ne]
      | .release => simp [Effect.items, Semaphore.Call.pending, List.count_erase_of_ne]
      | .complete => simp [Effect.items, Semaphore.Call.pending, List.count_cons_of_ne, List.count_erase_self]
      | .abandon => exact List.count_erase_self
  case isFalse hxy =>
      have hne : Item.pending y ≠ .pending x := fun heq => hxy (Item.pending.inj heq).symm
      match call with
      | .poll false => exact List.count_cons_of_ne hne
      | .tryAcquire false => rfl
      | .tryAcquire true | .poll true => simp [Effect.items, List.count_cons_of_ne]
      | .release => simp [Effect.items, List.count_erase_of_ne]
      | .complete => simp [Effect.items, List.count_cons_of_ne, List.count_erase_of_ne hne.symm]
      | .abandon => exact List.count_erase_of_ne hne.symm

theorem count_live_items (guard : Guard) (y : Sem) (call : Semaphore.Call) :
    ((Effect.sem y call).items held).count (.live guard) = held.count (.live guard) := by
  match call with
  | .tryAcquire false => rfl
  | .tryAcquire true | .poll true | .poll false => simp [Effect.items, List.count_cons_of_ne]
  | .complete => simp [Effect.items, List.count_erase_of_ne, List.count_cons_of_ne]
  | .abandon | .release => simp [Effect.items, List.count_erase_of_ne]

theorem count_enter_items (guard : Guard) (item : Item) :
    ((Effect.enter guard).items held).count item =
      if item = .live guard then held.count item + 1 else held.count item := by
  split
  case isTrue hitem => exact hitem ▸ List.count_cons_self
  case isFalse hitem => exact List.count_cons_of_ne (Ne.symm hitem)

theorem count_leave_items (guard : Guard) (item : Item) :
    ((Effect.leave guard).items held).count item =
      if item = .live guard then held.count item - 1 else held.count item := by
  split
  case isTrue hitem => exact hitem ▸ List.count_erase_self
  case isFalse hitem => exact List.count_erase_of_ne hitem

/-! ## The accounts -/

/-- The shared state lists exactly what each request holds. -/
structure Accounts (held : ι → List Item) (s : Process ι) : Prop where
  own : ∀ k x, (s.sem x).owned.count k = (held k).count (.own x)
  pending : ∀ k x, (s.sem x).pendingOf k = (held k).count (.pending x)
  live : ∀ k guard, (s.live guard).count k = (held k).count (.live guard)

theorem accounts_start (clock : Instant) (limit capacity : Nat) :
    Accounts (fun _ => []) (Process.start clock limit capacity : Process ι) where
  own _ _ := rfl
  pending _ _ := rfl
  live _ _ := rfl

/-- What the requests hold after an operation of one of them. -/
def heldAfter (held : ι → List Item) (k : ι) (effect : Effect) : ι → List Item :=
  Function.update held k (effect.items (held k))

theorem count_heldAfter (held : ι → List Item) (k j : ι) (effect : Effect) (item : Item) :
    (heldAfter held k effect j).count item =
      if j = k then (effect.items (held j)).count item else (held j).count item := by
  rw [heldAfter]
  split
  case isTrue hj =>
      subst hj
      rw [Function.update_self]
  case isFalse hj => rw [Function.update_of_ne hj]

theorem Accounts.sem {held : ι → List Item} {x : Sem} {call : Semaphore.Call}
    {sem' : Semaphore ι} (ha : Accounts held s) (h : Semaphore.Step k (s.sem x) call sem') :
    Accounts (heldAfter held k (.sem x call)) { s with sem := Function.update s.sem x sem' } where
  own j y := by
    rw [count_heldAfter, count_own_items, ← ha.own]
    by_cases hy : y = x
    · subst hy
      simp only [Function.update_self, h.count_owned, if_pos]
    · simp only [Function.update_of_ne hy, if_neg hy, ite_self]
  pending j y := by
    rw [count_heldAfter, count_pending_items, ← ha.pending]
    by_cases hy : y = x
    · subst hy
      simp only [Function.update_self, h.pendingOf_eq, if_pos]
    · simp only [Function.update_of_ne hy, if_neg hy, ite_self]
  live j guard := by
    rw [count_heldAfter, count_live_items, ite_self]
    exact ha.live j guard

theorem Accounts.enter {held : ι → List Item} (ha : Accounts held s) (g : Guard) :
    Accounts (heldAfter held k (.enter g)) { s with
      live := Function.update s.live g (k :: s.live g)
      gauge := Function.update s.gauge g (s.gauge g + 1) } where
  own j y := by
    simpa [count_heldAfter, count_enter_items] using ha.own j y
  pending j y := by
    simpa [count_heldAfter, count_enter_items] using ha.pending j y
  live j guard := by
    rw [count_heldAfter, count_enter_items, ← ha.live]
    by_cases hg : guard = g
    · subst hg
      simp only [Function.update_self, if_pos, List.count_cons, beq_iff_eq, eq_comm (a := k)]
      split <;> rfl
    · have hne : Item.live guard ≠ .live g := fun heq => hg (Item.live.inj heq)
      simp only [Function.update_of_ne hg, if_neg hne, ite_self]

theorem Accounts.leave {held : ι → List Item} (ha : Accounts held s) (g : Guard) :
    Accounts (heldAfter held k (.leave g)) { s with
      live := Function.update s.live g ((s.live g).erase k)
      gauge := Function.update s.gauge g (s.gauge g - 1) } where
  own j y := by
    simpa [count_heldAfter, count_leave_items] using ha.own j y
  pending j y := by
    simpa [count_heldAfter, count_leave_items] using ha.pending j y
  live j guard := by
    rw [count_heldAfter, count_leave_items, ← ha.live]
    by_cases hg : guard = g
    · subst hg
      simp only [Function.update_self, if_pos]
      split
      case isTrue hj => exact hj ▸ List.count_erase_self
      case isFalse hj => exact List.count_erase_of_ne hj
    · have hne : Item.live guard ≠ .live g := fun heq => hg (Item.live.inj heq)
      simp only [Function.update_of_ne hg, if_neg hne, ite_self]

/-- The shared state follows what a request does, whatever that is. -/
theorem Accounts.affects {held : ι → List Item} {effect : Effect} (ha : Accounts held s) (h : Affects k s effect s') :
    Accounts (heldAfter held k effect) s' := by
  cases h with
  | none =>
      have hsame : heldAfter held k .none = held := Function.update_eq_self k held
      rwa [hsame]
  | sem hstep => exact ha.sem hstep
  | enter => exact ha.enter _
  | leave => exact ha.leave _

/-- Operations of requests leave the clock and the flags alone. -/
theorem Affects.lifecycle {effect : Effect} (h : Affects k s effect s') :
    s'.clock = s.clock ∧ s'.shuttingDown = s.shuttingDown ∧ s'.notified = s.notified ∧
      s'.requestsCancelled = s.requestsCancelled := by
  cases h <;> exact ⟨rfl, rfl, rfl, rfl⟩

/-! ## Conservation -/

/-- Every semaphore has the permits it was created with, and every gauge is the number of live values. -/
structure Conserved (size : Sem → Nat) (s : Process ι) : Prop where
  permits : ∀ x, (s.sem x).permits = size x
  gauge : ∀ guard, s.gauge guard = (s.live guard).length

omit [DecidableEq ι] in
theorem conserved_start (clock : Instant) (limit capacity : Nat) :
    Conserved (semSize limit capacity) (Process.start clock limit capacity : Process ι) where
  permits _ := rfl
  gauge _ := rfl

theorem Conserved.affects {size : Sem → Nat} {held : ι → List Item} {effect : Effect} (hc : Conserved size s)
    (ha : Accounts held s) (hproper : effect.Proper (held k)) (h : Affects k s effect s') : Conserved size s' := by
  cases h with
  | none => exact hc
  | @sem x call sem' hstep =>
      refine ⟨fun y => ?_, hc.gauge⟩
      by_cases hy : y = x
      · subst hy
        dsimp only
        rw [Function.update_self, ← hc.permits]
        refine hstep.permits_eq fun hrelease => ?_
        subst hrelease
        exact List.count_pos_iff.mp (ha.own k y ▸ List.count_pos_iff.mpr hproper)
      · dsimp only
        rw [Function.update_of_ne hy]
        exact hc.permits y
  | @enter g =>
      refine ⟨hc.permits, fun guard => ?_⟩
      by_cases hg : guard = g
      · subst hg
        simp only [Function.update_self, hc.gauge, List.length_cons, Nat.cast_succ]
      · simp only [Function.update_of_ne hg, hc.gauge]
  | @leave g =>
      refine ⟨hc.permits, fun guard => ?_⟩
      by_cases hg : guard = g
      · subst hg
        have hmem : k ∈ s.live guard := List.count_pos_iff.mp (ha.live k guard ▸ List.count_pos_iff.mpr hproper)
        have := List.length_pos_of_mem hmem
        simp only [Function.update_self, hc.gauge, List.length_erase_of_mem hmem]
        omega
      · simp only [Function.update_of_ne hg, hc.gauge]

/-! ## Along an execution -/

@[simp] theorem events_nil : events k ([] : List (Label ι)) = [] := rfl

theorem events_append (labels labels' : List (Label ι)) :
    events k (labels ++ labels') = events k labels ++ events k labels' := by
  rw [events, List.map_append, eventsOf_append]
  rfl

theorem events_own (j : ι) : events j [.own k e] = if j = k then [e] else [] := by
  split
  case isTrue hj =>
      subst hj
      exact eventsOf_own
  case isFalse hj => exact eventsOf_map_own_ne (Ne.symm hj) [e]

/-- An operation of a request was answered by the state in which it was performed. -/
theorem observed_of_mem (hpath : Path step s labels s') (hmem : e ∈ events k labels) :
    ∃ before after s₁, labels = before ++ .own k e :: after ∧ Path step s before s₁ ∧ Observes s₁ e ∧
      Path step s₁ (.own k e :: after) s' := by
  obtain ⟨label, hlabel, hact⟩ := List.mem_map.mp (mem_eventsOf.mp hmem)
  obtain rfl : label = .own k e := by
    cases label <;> cases hact
    rfl
  obtain ⟨before, after, rfl⟩ := List.append_of_mem hlabel
  obtain ⟨s₁, hbefore, hafter⟩ := path_append.mp hpath
  obtain ⟨s₂, hstep, _⟩ := path_cons.mp hafter
  cases hstep with
  | own hobserves _ => exact ⟨before, after, s₁, rfl, hbefore, hobserves, hafter⟩

/-- What the requests hold after a step of the process. -/
theorem Accounts.step {t : ι → Trace} (ha : Accounts (fun k => hold (t k)) s) (h : step s label s') :
    Accounts (fun k => hold (t k ++ events k [label])) s' := by
  have hother (hno : ∀ k, events k [label] = []) (hsem : s'.sem = s.sem) (hlive : s'.live = s.live) :
      Accounts (fun k => hold (t k ++ events k [label])) s' := by
    refine ⟨fun k x => ?_, fun k x => ?_, fun k guard => ?_⟩
    · rw [hsem, hno, List.append_nil]
      exact ha.own k x
    · rw [hsem, hno, List.append_nil]
      exact ha.pending k x
    · rw [hlive, hno, List.append_nil]
      exact ha.live k guard
  cases h with
  | tick _ | storeShuttingDown | storeRequestsCancelled | notifyWaiters => exact hother (fun _ => rfl) rfl rfl
  | @own _ k e _ haffects =>
      have hheld : (fun j => hold (t j ++ events j [.own k e])) = heldAfter (fun k => hold (t k)) k (effect e) := by
        funext j
        rw [events_own, heldAfter]
        split
        case isTrue hj =>
            subst hj
            rw [Function.update_self, hold_snoc]
        case isFalse hj => rw [Function.update_of_ne hj, List.append_nil]
      rw [hheld]
      exact ha.affects haffects

theorem Conserved.step {size : Sem → Nat} {t : ι → Trace} (hc : Conserved size s)
    (ha : Accounts (fun k => hold (t k)) s) (hproper : ∀ k e, label = .own k e → (effect e).Proper (hold (t k)))
    (h : step s label s') : Conserved size s' := by
  cases h with
  | tick _ | storeShuttingDown | storeRequestsCancelled | notifyWaiters => exact ⟨hc.permits, hc.gauge⟩
  | @own _ k e _ haffects => exact hc.affects ha (hproper k e rfl) haffects

/-- What the request gives back along its trace is what it holds. -/
def ProperFrom (t₀ t : Trace) : Prop := ∀ pre e post, t = pre ++ e :: post → (effect e).Proper (hold (t₀ ++ pre))

theorem conserved_of_path {size : Sem → Nat} {t : ι → Trace} (hc : Conserved size s)
    (ha : Accounts (fun k => hold (t k)) s) (hproper : ∀ k, ProperFrom (t k) (events k labels))
    (h : Path step s labels s') : Accounts (fun k => hold (t k ++ events k labels)) s' ∧ Conserved size s' := by
  induction h generalizing t with
  | nil => simpa using ⟨ha, hc⟩
  | @cons s s₁ s' label labels hlabel _ ih =>
      have hsplit (k) : events k (label :: labels) = events k [label] ++ events k labels := events_append [label] labels
      have hown (k e) (hl : label = .own k e) : (effect e).Proper (hold (t k)) := by
        have := hproper k [] e (events k labels) (by rw [hsplit, hl, events_own, if_pos rfl]; rfl)
        rwa [List.append_nil] at this
      have hrest (k) : ProperFrom (t k ++ events k [label]) (events k labels) := by
        intro pre e post he
        rw [List.append_assoc]
        exact hproper k _ e post (by rw [hsplit, he, List.append_assoc])
      have := ih (hc.step ha hown hlabel) (ha.step hlabel) hrest
      simpa only [hsplit, List.append_assoc] using this

/-! ## Requests whose future may be dropped -/

/-- The program keeps the discipline of what it holds, and ends with nothing. -/
def Tidy (p : Io ε α) : Prop := Holds Situated [] p fun _ h => hold h = []

theorem tidy_synchronizeRoute (state : RuntimeState) (request : Request) : Tidy (synchronizeRoute state request) :=
  synchronizeRoute_situated state request

theorem nonempty_answer (o : service.Op) : Nonempty (service.Ans o) := by
  cases o with
  | isCancelled | isShuttingDown | tryAcquireOwned | pollAcquire | acquiredUntil | bodyFrame => exact ⟨true⟩
  | now => exact ⟨(0 : Nat)⟩
  | selectWoken => exact ⟨Woken.granted⟩
  | dropAcquire | release | enter | leave | dropPermit => exact ⟨()⟩
  | authenticate => exact ⟨.error .rejected⟩
  | resolveTarget => exact ⟨.error .unknownLogicalTarget⟩
  | acquire => exact ⟨.ok ()⟩
  | resolve => exact ⟨.error .failed⟩
  | reconcile => exact ⟨.error .failed⟩

/-- What a program has asked for meets the guard. -/
theorem Tidy.situated_of_asks (hp : Tidy p) {o : Op} (ha : Asks p t o) : ∃ x, Situated t ⟨o, x⟩ := by
  obtain ⟨x⟩ := nonempty_answer o
  obtain ⟨t', r, hr⟩ := ha.exists_run nonempty_answer x
  exact ⟨x, (hp _ r hr).1 t ⟨o, x⟩ t' rfl⟩

/-- What has been reached is the beginning of a run. -/
theorem Reaches.exists_run (ht : Reaches p t) : ∃ t' r, Run p (t ++ t') r := by
  rcases ht with ⟨r, hr⟩ | ⟨o, ha⟩
  · exact ⟨[], r, (List.append_nil t).symm ▸ hr⟩
  · obtain ⟨x⟩ := nonempty_answer o
    obtain ⟨t', r, hr⟩ := ha.exists_run nonempty_answer x
    exact ⟨_, r, hr⟩

theorem Tidy.situated (hp : Tidy p) (ht : Reaches p t) {pre post : Trace} (he : t = pre ++ e :: post) :
    Situated pre e := by
  obtain ⟨t', r, hr⟩ := ht.exists_run
  exact (hp _ r hr).1 pre e (post ++ t') (by rw [he, List.append_assoc, List.cons_append])

theorem Tidy.fits_of_reaches (hp : Tidy p) (ht : Reaches p t) : Fits (hold t) := by
  rcases ht with ⟨r, hr⟩ | ⟨o, ha⟩
  · have hend : hold t = [] := (hp t r hr).2
    rw [hend]
    trivial
  · obtain ⟨x, hx⟩ := hp.situated_of_asks ha
    exact hx.fits

/-- What has been dropped of the held values is the latest part of them. -/
theorem exists_dropped {dropped : Trace} (hd : dropped <+: held.map Item.drop) :
    ∃ gone rest, held = gone ++ rest ∧ dropped = gone.map Item.drop := by
  refine ⟨held.take dropped.length, held.drop dropped.length, (List.take_append_drop _ _).symm, ?_⟩
  rw [List.map_take]
  exact List.prefix_iff_eq_take.mp hd

theorem Tidy.fits (hp : Tidy p) (ht : Follows p t) : Fits (hold t) := by
  obtain ⟨t₁, dropped, hreach, hd, rfl⟩ := ht
  obtain ⟨gone, rest, hheld, rfl⟩ := exists_dropped hd
  rw [hold_append_drop hheld]
  exact Fits.of_append (hheld ▸ hp.fits_of_reaches hreach)

theorem Tidy.properFrom (hp : Tidy p) (ht : Follows p t) : ProperFrom [] t := by
  obtain ⟨t₁, dropped, hreach, hd, rfl⟩ := ht
  obtain ⟨gone, rest, hheld, rfl⟩ := exists_dropped hd
  intro pre e post he
  rcases append_cons_eq_append he.symm with ⟨post', hpre, _⟩ | ⟨pre', rfl, hgone⟩
  · exact (hp.situated hreach hpre).proper
  · obtain ⟨before, after, rfl, rfl, hafter⟩ := List.map_eq_append_iff.mp hgone
    obtain ⟨item, after', rfl, rfl, _⟩ := List.map_eq_cons_iff.mp hafter
    rw [List.nil_append, hold_append_drop (hheld.trans (List.append_assoc ..))]
    exact proper_drop item _

/-- An operation that is no drop belongs to the program. -/
theorem Follows.reaches (ht : Follows p t) {pre post : Trace} (he : t = pre ++ e :: post)
    (hdrop : ∀ item, e ≠ Item.drop item) : ∃ post', Reaches p (pre ++ e :: post') := by
  obtain ⟨t₁, dropped, hreach, hd, rfl⟩ := ht
  rcases append_cons_eq_append he.symm with ⟨post', hpre, _⟩ | ⟨pre', rfl, hgone⟩
  · exact ⟨post', hpre ▸ hreach⟩
  · have hmem : e ∈ dropped := hgone ▸ List.mem_append_right _ List.mem_cons_self
    obtain ⟨item, _, rfl⟩ := List.mem_map.mp (hd.subset hmem)
    exact absurd rfl (hdrop item)

theorem Tidy.situated_of_follows (hp : Tidy p) (ht : Follows p t) {pre post : Trace} (he : t = pre ++ e :: post)
    (hdrop : ∀ item, e ≠ Item.drop item) : Situated pre e := by
  obtain ⟨post', hreach⟩ := ht.reaches he hdrop
  exact hp.situated hreach rfl

/-- A request that has ended, or whose future has been dropped entirely. -/
inductive Gone (p : Io ε α) (t : Trace) : Prop where
  | finished {r : Except ε α} : Run p t r → Gone p t
  | dropped {t₁ : Trace} : Reaches p t₁ → t = t₁ ++ (hold t₁).map Item.drop → Gone p t

theorem Tidy.hold_of_gone (hp : Tidy p) (hg : Gone p t) : hold t = [] := by
  cases hg with
  | finished hr => exact (hp t _ hr).2
  | dropped _ ht => exact ht ▸ hold_append_drop (List.append_nil _).symm

/-! ## The invariant of an execution -/

section

variable {p : ι → Io ε α} {clock : Instant} {limit capacity : Nat}

/-- What holds in every state that tidy requests reach together. -/
structure Invariant (size : Sem → Nat) (t : ι → Trace) (s : Process ι) : Prop where
  accounts : Accounts (fun k => hold (t k)) s
  conserved : Conserved size s
  fits : ∀ k, Fits (hold (t k))

theorem Execution.invariant (hp : ∀ k, Tidy (p k)) (hex : Execution p (.start clock limit capacity) labels s) :
    Invariant (semSize limit capacity) (fun k => events k labels) s := by
  have hproper (k) : ProperFrom [] (events k labels) := (hp k).properFrom (hex.follows k)
  obtain ⟨ha, hc⟩ := conserved_of_path (t := fun _ => []) (conserved_start clock limit capacity)
    (accounts_start clock limit capacity) hproper hex.path
  exact ⟨ha, hc, fun k => (hp k).fits (hex.follows k)⟩

end

namespace Invariant

variable {size : Sem → Nat} {t : ι → Trace}

theorem nodup_live (hi : Invariant size t s) (guard : Guard) : (s.live guard).Nodup := by
  rw [List.nodup_iff_count_le_one]
  intro k
  rw [hi.accounts.live]
  exact List.nodup_iff_count_le_one.mp (hi.fits k).nodup _

theorem nodup_owned (hi : Invariant size t s) (x : Sem) : (s.sem x).owned.Nodup := by
  rw [List.nodup_iff_count_le_one]
  intro k
  rw [hi.accounts.own]
  exact List.nodup_iff_count_le_one.mp (hi.fits k).nodup _

theorem mem_live (hi : Invariant size t s) {k : ι} {guard : Guard} : k ∈ s.live guard ↔ .live guard ∈ hold (t k) := by
  rw [← List.count_pos_iff, hi.accounts.live, List.count_pos_iff]

theorem mem_owned (hi : Invariant size t s) {k : ι} {x : Sem} : k ∈ (s.sem x).owned ↔ .own x ∈ hold (t k) := by
  rw [← List.count_pos_iff, hi.accounts.own, List.count_pos_iff]

theorem mem_waiting (hi : Invariant size t s) {k : ι} {x : Sem} :
    k ∈ (s.sem x).queue ++ (s.sem x).assigned ↔ .pending x ∈ hold (t k) := by
  rw [← List.count_pos_iff, List.count_append]
  exact (hi.accounts.pending k x ▸ List.count_pos_iff :)

/-- Every live value keeps a permit of its semaphore. -/
theorem live_subset_owned (hi : Invariant size t s) (guard : Guard) : s.live guard ⊆ (s.sem (guardSem guard)).owned :=
  fun _ hk => hi.mem_owned.mpr ((hi.fits _).support_mem (hi.mem_live.mp hk) rfl)

theorem live_length_le (hi : Invariant size t s) (guard : Guard) : (s.live guard).length ≤ size (guardSem guard) := by
  have hle := ((hi.nodup_live guard).subperm (hi.live_subset_owned guard)).length_le
  have hpermits := hi.conserved.permits (guardSem guard)
  rw [Semaphore.permits] at hpermits
  omega

/-- A request that holds nothing is nowhere in the shared state. -/
theorem not_mem_of_hold_nil (hi : Invariant size t s) {k : ι} (hk : hold (t k) = []) (x : Sem) (guard : Guard) :
    k ∉ (s.sem x).owned ∧ k ∉ (s.sem x).queue ++ (s.sem x).assigned ∧ k ∉ s.live guard := by
  rw [hi.mem_owned, hi.mem_waiting, hi.mem_live, hk]
  simp

end Invariant

end PermissionSync.Runtime
