import PermissionSync.Base.Path
import PermissionSync.Core.Lemmas.Checks
import PermissionSync.Runtime.Transport

/-!
# What is collected of a body that arrives in time
-/

namespace PermissionSync.Runtime

open PermissionSync.Base PermissionSync.Core

variable {ε : Type} {context : SynchronizationContext} {C : Event service → Prop} {frames : List Frame}
  {collected : List UInt8}

/-- The event shows no cancellation and no expiry, and a frame that was awaited arrived. -/
def InTime (context : SynchronizationContext) : Event service → Prop
  | ⟨.bodyFrame _, arrived⟩ => arrived = true
  | e => ¬ Stops context e

theorem not_stops_of_inTime {e : Event service} (h : InTime context e) : ¬ Stops context e := by
  obtain ⟨o, x⟩ := e
  cases o with
  | bodyFrame deadline => exact id
  | _ => exact h

theorem unavailable_yields (hC : ∀ e, C e → ¬ Stops context e) :
    Yields C (unavailable context : Io ε Bool) (.ok false) := by
  intro t r ht hr
  obtain ⟨_, stopped, rfl, hclear⟩ := polls_of_unavailable hr
  rw [hclear.mpr fun e he => hC e (ht e he)]

theorem nextFrame_yields {next : Io ε CollectedBody} {y : Except ε CollectedBody} (hC : ∀ e, C e → InTime context e)
    (hnext : Yields C next y) : Yields C (nextFrame context .unavailable next) y := by
  refine (unavailable_yields fun e he => not_stops_of_inTime (hC e he)).bind (g := fun _ => y)
    fun stopped hstopped => ?_
  cases hstopped
  refine .ask_bind fun arrived harrived => ?_
  obtain rfl : arrived = true := hC _ harrived
  exact hnext

/-- The loop ends before the turn, or the turn is taken. -/
theorem run_nextFrame {β : Type} {stopped : β} {next : Io ε β} {t : Trace} {r : Except ε β}
    (h : Run (nextFrame context stopped next) t r) : r = .ok stopped ∨ ∃ t', Run next t' r := by
  rcases run_bind.mp h with ⟨e, hu, _⟩ | ⟨unavailable, _, _, rfl, _, h⟩
  · obtain ⟨_, _, he, _⟩ := polls_of_unavailable hu
    cases he
  · cases unavailable with
    | true => exact Or.inl (run_pure.mp h).2
    | false =>
        obtain ⟨arrived, t', _, h⟩ := run_ask_bind.mp h
        cases arrived with
        | true => exact Or.inr ⟨t', h⟩
        | false => exact Or.inl (run_pure.mp h).2

theorem nextFrame_map {β γ : Type} {stopped : β} {next : Io ε β} (g : β → γ) :
    (nextFrame context stopped next >>= fun x => pure (g x)) =
      nextFrame context (g stopped) (next >>= fun x => pure (g x)) := by
  simp only [nextFrame, bind_assoc]
  congr 1
  funext unavailable
  cases unavailable with
  | true => rfl
  | false =>
      refine (bind_assoc _ _ _).trans (congrArg _ (funext fun arrived => ?_))
      cases arrived with
      | true => rfl
      | false => rfl

/-- The bytes of the data frames. -/
def dataOf (frames : List Frame) : List UInt8 :=
  frames.flatMap fun
    | .data bytes => bytes
    | _ => []

/-- What a body with these bytes is collected as. -/
def collectedAs (bytes : List UInt8) : CollectedBody :=
  if bytes.length ≤ inboundBodyLimitBytes then .collected bytes else .boundExceeded

theorem collectBody_yields (hC : ∀ e, C e → InTime context e) (hframes : .failed ∉ frames)
    (hcollected : collected.length ≤ inboundBodyLimitBytes) :
    Yields C (collectBody context frames collected : Io ε CollectedBody)
      (.ok (collectedAs (collected ++ dataOf frames))) := by
  induction frames generalizing collected with
  | nil =>
      refine nextFrame_yields hC ?_
      simp only [dataOf, List.flatMap_nil, List.append_nil, collectedAs, if_pos hcollected]
      exact .pure
  | cons frame frames ih =>
      have hrest : .failed ∉ frames := fun h => hframes (List.mem_cons_of_mem _ h)
      cases frame with
      | failed => exact absurd List.mem_cons_self hframes
      | trailers => exact nextFrame_yields hC (ih hrest hcollected)
      | data bytes =>
          refine nextFrame_yields hC ?_
          have hdata : collected ++ dataOf (.data bytes :: frames) = collected ++ bytes ++ dataOf frames :=
            (List.append_assoc _ _ _).symm
          rw [hdata]
          split
          · rename_i hlong
            have hover : ¬ (collected ++ bytes ++ dataOf frames).length ≤ inboundBodyLimitBytes := by
              simp only [List.length_append]
              omega
            rw [collectedAs, if_neg hover]
            exact .pure
          · rename_i hfits
            exact ih hrest (by simpa using hfits)

/-- Some answers bring a body in time. -/
theorem exists_inTime (h : 0 < context.deadline) (o : Op) : ∃ x, InTime context ⟨o, x⟩ := by
  cases o with
  | bodyFrame deadline => exact ⟨true, rfl⟩
  | isCancelled signal => exact ⟨false, fun hs => Bool.false_ne_true hs⟩
  | now => exact ⟨(0 : Nat), Nat.not_le.mpr h⟩
  | isShuttingDown | tryAcquireOwned | pollAcquire | acquiredUntil => exact ⟨false, id⟩
  | selectWoken => exact ⟨.expired, id⟩
  | dropAcquire | release | enter | leave | dropPermit => exact ⟨(), id⟩
  | authenticate => exact ⟨.error .rejected, id⟩
  | resolveTarget => exact ⟨.error .unknownLogicalTarget, id⟩
  | acquire => exact ⟨.ok (), id⟩
  | resolve | reconcile => exact ⟨.error .failed, id⟩

/-! ## The buffer -/

namespace Buffered

variable {grow : Nat → Nat → Nat} {v v' : Vec UInt8} {data : List UInt8}

theorem limit_lt_saturatingAdd {a b : Nat} :
    inboundBodyLimitBytes < saturatingAdd a b ↔ inboundBodyLimitBytes < a + b := by
  rw [saturatingAdd, lt_min_iff]
  exact and_iff_left (by decide)

theorem receive_eq_none : receive grow v data = none ↔ inboundBodyLimitBytes < v.len + data.length := by
  simp only [receive, limit_lt_saturatingAdd]
  split <;> simp_all

theorem items_receive (h : receive grow v data = some v') : v'.items = v.items ++ data := by
  simp only [receive] at h
  split at h
  · cases h
  · cases h
    split <;> simp

/-- The bytes that are collected do not depend on the allocations. -/
theorem collectBody_fst {turns : List Turn} : (collectBody grow context frames v turns >>= fun x => pure x.1) =
    (Runtime.collectBody context frames v.items : Io ε CollectedBody) := by
  induction frames generalizing v turns with
  | nil => exact nextFrame_map Prod.fst
  | cons frame frames ih =>
      cases frame with
      | failed => exact nextFrame_map Prod.fst
      | trailers => exact (nextFrame_map Prod.fst).trans (congrArg _ ih)
      | data bytes =>
          refine (nextFrame_map Prod.fst).trans (congrArg _ ?_)
          cases hreceive : receive grow v bytes with
          | none => exact (if_pos (receive_eq_none.mp hreceive)).symm
          | some after =>
              have hfits : ¬ inboundBodyLimitBytes < v.items.length + bytes.length := fun hlong => by
                rw [receive_eq_none.mpr hlong] at hreceive
                cases hreceive
              rw [if_neg hfits, ← items_receive hreceive]
              exact ih

/-- The turn adds its frame to the buffer. -/
def Turn.Adds (grow : Nat → Nat → Nat) (v : Vec UInt8) (turn : Turn) (v' : Vec UInt8) : Prop :=
  turn.before = v ∧ turn.after = v' ∧ receive grow v turn.data = some v'

/-- Whatever the answers are, the turns of the loop follow one another from its buffer to that of the body. -/
theorem turns_of_run {turns : List Turn} {t : Trace} {r : Except ε (CollectedBody × List Turn)}
    (h : Run (collectBody grow context frames v turns) t r) :
    ∃ body new last, r = .ok (body, turns ++ new) ∧ Path (Turn.Adds grow) v new last ∧
      ∀ bytes, body = .collected bytes → last.items = bytes := by
  have hstopped (v : Vec UInt8) (turns : List Turn) (body : CollectedBody)
      (hbody : ∀ bytes, body = .collected bytes → v.items = bytes) :
      ∃ body' new last, (Except.ok (body, turns) : Except ε _) = .ok (body', turns ++ new) ∧
        Path (Turn.Adds grow) v new last ∧ ∀ bytes, body' = .collected bytes → last.items = bytes :=
    ⟨body, [], v, by simp, .nil, hbody⟩
  induction frames generalizing v turns t with
  | nil =>
      rcases run_nextFrame h with rfl | ⟨t', h⟩
      · exact hstopped _ _ _ (by simp)
      · obtain ⟨_, rfl⟩ := run_pure.mp h
        exact hstopped _ _ _ (by simp)
  | cons frame frames ih =>
      cases frame with
      | failed =>
          rcases run_nextFrame h with rfl | ⟨t', h⟩
          · exact hstopped _ _ _ (by simp)
          · obtain ⟨_, rfl⟩ := run_pure.mp h
            exact hstopped _ _ _ (by simp)
      | trailers =>
          rcases run_nextFrame h with rfl | ⟨t', h⟩
          · exact hstopped _ _ _ (by simp)
          · exact ih h
      | data bytes =>
          rcases run_nextFrame h with rfl | ⟨t', h⟩
          · exact hstopped _ _ _ (by simp)
          · cases hreceive : receive grow v bytes with
            | none =>
                rw [hreceive] at h
                obtain ⟨_, rfl⟩ := run_pure.mp h
                exact hstopped _ _ _ (by simp)
            | some after =>
                rw [hreceive] at h
                obtain ⟨body, new, last, rfl, hpath, hbytes⟩ := ih h
                exact ⟨body, ⟨v, bytes, after⟩ :: new, last, by simp, .cons ⟨rfl, rfl, hreceive⟩ hpath, hbytes⟩

end Buffered

end PermissionSync.Runtime
