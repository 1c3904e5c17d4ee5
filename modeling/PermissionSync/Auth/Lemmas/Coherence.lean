import PermissionSync.Auth.Lemmas.Stages
import PermissionSync.Auth.Lemmas.Timeline

/-!
# The refresh mutex keeps the calls apart

Only the call that holds the mutex fetches and installs, what it sees through its write guard is what is installed, and
its last tick is not before the snapshot in the cache.
-/

namespace PermissionSync.Authenticator

open PermissionSync.Auth PermissionSync.Base PermissionSync.Core

variable {ι K V : Type} {lib : Libraries K V} {config : Config} {calls : ι → Call} {k : ι}
  {e : Event (auth V)} {loc loc' : Local V} {s s' : Shared ι V} {acts : List (Act ι (auth V))}

/-- The call holds the refresh mutex. -/
def Stage.holdsRefresh : Stage V → Bool
  | .before | .after => false
  | _ => true

/-- Only the call that holds the mutex has a stage of its own, and sees what is installed. -/
structure Exclusive (loc : ι → Local V) (s : Shared ι V) : Prop where
  refresher : ∀ k, (loc k).stage.holdsRefresh = true ↔ s.refresher = some k
  writing : ∀ k cache, (loc k).stage = .writing cache → cache = s.cache

theorem exclusive_start (h : s.refresher = none) : Exclusive (fun _ : ι => (Local.start : Local V)) s where
  refresher _ := by simp [Local.start, Stage.holdsRefresh, h]
  writing _ _ h := by cases h

theorem Exclusive.eq_of_holds {loc : ι → Local V} (h : Exclusive loc s) {j : ι}
    (hj : (loc j).stage.holdsRefresh = true) (hk : (loc k).stage.holdsRefresh = true) : j = k :=
  Option.some.inj (((h.refresher j).mp hj).symm.trans ((h.refresher k).mp hk))

/-- The snapshot in the cache is not later than the clock, nor than the last tick of the call that holds the mutex. -/
structure Coherent (loc : ι → Local V) (s : Shared ι V) : Prop extends Exclusive loc s where
  acquired : ∀ snapshot, s.cache = some snapshot → snapshot.acquired ≤ s.clock
  ticked : ∀ k n, (loc k).stage.holdsRefresh = true → (loc k).ticked = some n →
    n ≤ s.clock ∧ ∀ snapshot, s.cache = some snapshot → snapshot.acquired ≤ n

theorem coherent_start (clock : Instant) : Coherent (fun _ : ι => (Local.start : Local V)) (Shared.new clock) where
  toExclusive := exclusive_start rfl
  acquired _ h := by cases h
  ticked _ _ h := by cases h

/-- Time passes. -/
theorem Coherent.later {loc : ι → Local V} {instant : Instant} (h : Coherent loc s) (hle : s.clock ≤ instant) :
    Coherent loc { s with clock := instant } where
  refresher := h.refresher
  writing := h.writing
  acquired snapshot hs := (h.acquired snapshot hs).trans hle
  ticked k n hholds hn := ⟨(h.ticked k n hholds hn).1.trans hle, (h.ticked k n hholds hn).2⟩

/-! ## Steps -/

/-- What an operation of a call does to its stage and to the state. -/
inductive Moves (k : ι) (loc : Local V) (s : Shared ι V) (loc' : Local V) (s' : Shared ι V) : Prop
  | quiet : loc'.stage = loc.stage → loc'.ticked = loc.ticked ∨ loc'.ticked = some s.clock → s'.cache = s.cache →
      s'.refresher = s.refresher → Moves k loc s loc' s'
  | locked : s.refresher = none → loc'.stage = .locked → loc'.ticked = none → s'.cache = s.cache →
      s'.refresher = some k → Moves k loc s loc' s'
  | within : loc.stage.holdsRefresh = true → loc'.stage.holdsRefresh = true →
      (∀ cache, loc'.stage = .writing cache → cache = s.cache) → loc'.ticked = loc.ticked → s'.cache = s.cache →
      s'.refresher = s.refresher → Moves k loc s loc' s'
  | stored {cache : Option (Snapshot V)} {snapshot : Snapshot V} : loc.stage = .writing cache →
      loc.ticked = some snapshot.acquired → loc'.stage = .stored → loc'.ticked = loc.ticked →
      s'.cache = some snapshot → s'.refresher = s.refresher → Moves k loc s loc' s'
  | released : loc.stage.holdsRefresh = true → loc'.stage = .after → s'.cache = s.cache → s'.refresher = none →
      Moves k loc s loc' s'

variable [DecidableEq ι]

theorem moves_of_permitted (h : Permitted loc e) (hobserves : Observes s e) :
    Moves k loc s (loc.after e) (s.perform k e) := by
  obtain ⟨o, x⟩ := e
  cases o with
  | isCancelled | now | unixSeconds | request | frame => exact .quiet rfl (Or.inl rfl) rfl rfl
  | tick => exact .quiet rfl (Or.inr (congrArg some hobserves)) rfl rfl
  | readCache deadline => cases x <;> exact .quiet rfl (Or.inl rfl) rfl rfl
  | dropRead => exact .quiet rfl (Or.inl rfl) rfl rfl
  | lockRefresh deadline =>
      cases x with
      | false => exact .quiet rfl (Or.inl rfl) rfl rfl
      | true => exact .locked hobserves rfl rfl rfl rfl
  | fetchStarted =>
      have hstage : loc.stage = .locked := h
      exact .within (by rw [hstage]; rfl) rfl nofun rfl rfl rfl
  | fetchEnded =>
      have hstage : loc.stage = .fetching := h
      exact .within (by rw [hstage]; rfl) rfl nofun rfl rfl rfl
  | writeCache deadline =>
      cases x with
      | none => exact .quiet rfl (Or.inl rfl) rfl rfl
      | some cache =>
          have hstage : loc.stage = .fetched := h
          refine .within (by rw [hstage]; rfl) rfl (fun cache' hcache' => ?_) rfl rfl rfl
          cases hcache'
          exact hobserves.2.2
  | store snapshot =>
      obtain ⟨cache, hstage, _, hticked⟩ := h
      exact .stored hstage hticked rfl rfl rfl rfl
  | dropWrite =>
      refine .within ?_ rfl nofun rfl rfl rfl
      rcases h with ⟨cache, hstage⟩ | hstage <;> rw [hstage] <;> rfl
  | dropRefresh =>
      refine .released ?_ rfl rfl rfl
      rcases h with hstage | hstage | hstage <;> rw [hstage] <;> rfl

theorem Exclusive.moves {loc : ι → Local V} (h : Exclusive loc s) (hmoves : Moves k (loc k) s loc' s') :
    Exclusive (Function.update loc k loc') s' := by
  -- the other calls keep their stage, so that only the cache could change for one that is writing
  have hothers (hcache : s'.cache = s.cache) (hown : ∀ cache, loc'.stage = .writing cache → cache = s'.cache) (j : ι)
      (cache : Option (Snapshot V)) (hj : (Function.update loc k loc' j).stage = .writing cache) :
        cache = s'.cache := by
    by_cases hjk : j = k
    · rw [hjk, Function.update_self] at hj
      exact hown cache hj
    · rw [Function.update_of_ne hjk] at hj
      exact (h.writing j cache hj).trans hcache.symm
  cases hmoves with
  | quiet hstage hticked hcache hrefresher =>
      refine ⟨fun j => ?_, hothers hcache fun cache hw => ?_⟩
      · rw [hrefresher, ← h.refresher j]
        by_cases hj : j = k
        · rw [hj, Function.update_self, hstage]
        · rw [Function.update_of_ne hj]
      · exact (h.writing k cache (hstage ▸ hw)).trans hcache.symm
  | locked hfree hstage hticked hcache hrefresher =>
      refine ⟨fun j => ?_, hothers hcache fun cache hw => absurd (hstage.symm.trans hw) nofun⟩
      by_cases hj : j = k
      · simp [hj, hstage, hrefresher, Stage.holdsRefresh]
      · rw [Function.update_of_ne hj, h.refresher j, hfree, hrefresher]
        simp [Ne.symm hj]
  | within hbefore hafter hwriting hticked hcache hrefresher =>
      refine ⟨fun j => ?_, hothers hcache fun cache hw => (hwriting cache hw).trans hcache.symm⟩
      rw [hrefresher, ← h.refresher j]
      by_cases hj : j = k
      · rw [hj, Function.update_self, hafter, hbefore]
      · rw [Function.update_of_ne hj]
  | stored hstage hticked hstored hsame hcache hrefresher =>
      have hholds : (loc k).stage.holdsRefresh = true := by rw [hstage]; rfl
      refine ⟨fun j => ?_, fun j cache hj => ?_⟩
      · rw [hrefresher, ← h.refresher j]
        by_cases hj : j = k
        · rw [hj, Function.update_self, hstored, hholds]
          rfl
        · rw [Function.update_of_ne hj]
      · by_cases hjk : j = k
        · simp [hjk, hstored] at hj
        · rw [Function.update_of_ne hjk] at hj
          exact absurd (h.eq_of_holds (by rw [hj]; rfl) hholds) hjk
  | released hholds hstage hcache hrefresher =>
      refine ⟨fun j => ?_, hothers hcache fun cache hw => absurd (hstage.symm.trans hw) nofun⟩
      by_cases hj : j = k
      · simp [hj, hstage, hrefresher, Stage.holdsRefresh]
      · rw [Function.update_of_ne hj, hrefresher]
        exact iff_of_false (fun hother => hj (h.eq_of_holds hother hholds)) nofun

theorem Coherent.moves {loc : ι → Local V} (h : Coherent loc s) (hmoves : Moves k (loc k) s loc' s')
    (hclock : s'.clock = s.clock) : Coherent (Function.update loc k loc') s' := by
  have hexclusive := h.toExclusive.moves hmoves
  -- of a call that has not moved, and whose cache is as before, nothing is to be shown
  have hothers (hcache : s'.cache = s.cache)
      (hown : ∀ n, loc'.stage.holdsRefresh = true → loc'.ticked = some n →
        n ≤ s.clock ∧ ∀ snapshot, s.cache = some snapshot → snapshot.acquired ≤ n) :
      Coherent (Function.update loc k loc') s' := by
    refine ⟨hexclusive, fun snapshot hs => ?_, fun j n hholds hn => ?_⟩
    · rw [hclock]
      exact h.acquired snapshot (hcache ▸ hs)
    · rw [hclock, hcache]
      by_cases hj : j = k
      · rw [hj, Function.update_self] at hholds hn
        exact hown n hholds hn
      · rw [Function.update_of_ne hj] at hholds hn
        exact h.ticked j n hholds hn
  cases hmoves with
  | quiet hstage hticked hcache hrefresher =>
      refine hothers hcache fun n hholds hn => ?_
      rcases hticked with hticked | hticked
      · exact h.ticked k n (hstage ▸ hholds) (hticked ▸ hn)
      · cases hticked.symm.trans hn
        exact ⟨le_rfl, h.acquired⟩
  | locked hfree hstage hticked hcache hrefresher =>
      exact hothers hcache fun n _ hn => absurd (hticked.symm.trans hn) nofun
  | within hbefore hafter hwriting hticked hcache hrefresher =>
      exact hothers hcache fun n _ hn => h.ticked k n hbefore (hticked ▸ hn)
  | @stored cache snapshot hstage hticked hstored hsame hcache hrefresher =>
      have hholds : (loc k).stage.holdsRefresh = true := by rw [hstage]; rfl
      obtain ⟨hle, _⟩ := h.ticked k snapshot.acquired hholds hticked
      refine ⟨hexclusive, fun snapshot' hs => ?_, fun j n hj hn => ?_⟩
      · cases hcache.symm.trans hs
        rw [hclock]
        exact hle
      · by_cases hjk : j = k
        · rw [hjk, Function.update_self, hsame, hticked] at hn
          cases hn
          rw [hclock, hcache]
          exact ⟨hle, fun snapshot' hs => by cases hs; exact le_rfl⟩
        · rw [Function.update_of_ne hjk] at hj
          exact absurd (h.eq_of_holds hj hholds) hjk
  | released hholds hstage hcache hrefresher =>
      exact hothers hcache fun n hholds' _ => absurd hholds' (by rw [hstage]; nofun)

/-! ## Executions -/

/-- Every operation of every call is permitted by its stage. -/
theorem Execution.along (h : Execution lib config calls s acts s') (k : ι) :
    Along Local.after Permitted .start (eventsOf k acts) :=
  (h.follows k).tracks (program_staged _) fun _ => along_drops _

variable {before after : List (Act ι (auth V))} {m : Shared ι V}

theorem Execution.along_before (h : Execution lib config calls s (before ++ after) s') (k : ι) :
    Along Local.after Permitted .start (eventsOf k before) := by
  have hall := h.along k
  rw [eventsOf_append] at hall
  exact (along_append.mp hall).1

/-- Wherever the execution has come to, at most one call holds the mutex. -/
theorem Execution.exclusive (h : Execution lib config calls s (before ++ after) s') (hidle : s.refresher = none)
    (hm : Path step s before m) : Exclusive (fun k => localOf (eventsOf k before)) m := by
  refine hm.accompanied (G := Permitted) (fun loc s k e s' hJ hG hstep => ?_) (fun loc s s' hJ hstep => ?_)
    (exclusive_start hidle) fun k pre e post he => (he ▸ h.along_before k).allowed
  · cases hstep with
    | own hobserves => exact hJ.moves (moves_of_permitted hG hobserves)
  · cases hstep with
    | other hle => exact ⟨hJ.refresher, hJ.writing⟩

theorem Execution.coherent {clock : Instant} (h : Execution lib config calls (Shared.new clock) (before ++ after) s')
    (hm : Path step (Shared.new clock) before m) : Coherent (fun k => localOf (eventsOf k before)) m := by
  refine hm.accompanied (G := Permitted) (fun loc s k e s' hJ hG hstep => ?_) (fun loc s s' hJ hstep => ?_)
    (coherent_start clock) fun k pre e post he => (he ▸ h.along_before k).allowed
  · cases hstep with
    | own hobserves => exact hJ.moves (moves_of_permitted hG hobserves) clock_perform
  · cases hstep with
    | other hle => exact hJ.later hle

end PermissionSync.Authenticator
