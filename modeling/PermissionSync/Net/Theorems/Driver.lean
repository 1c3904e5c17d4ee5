import PermissionSync.Net.Outbound

/-!
# The response has priority over the end of the connection
-/

namespace PermissionSync.Net

open PermissionSync.Base

variable {N ε α : Type} {I : Interface} {transport : ε} {p : Prog I ε α} {turns : List (Turn I)} {r : Except ε α}

/-- What the response future does in the given polls. -/
def eventsIn (turns : List (Turn I)) : List (Event I) := turns.flatMap Turn.events

/-- The result comes in a poll before which the connection had not ended: it is the one of the response if the response
has come to its end there, and otherwise the connection has. -/
structure Decided (transport : ε) (p : Prog I ε α) (pre : List (Turn I)) (turn : Turn I) (r : Except ε α) : Prop where
  alive : ∀ earlier ∈ pre, earlier.connectionEnded = false
  result : Run p (eventsIn (pre ++ [turn])) r ∨
    turn.connectionEnded = true ∧ r = .error transport ∧ ∃ o, Asks p (eventsIn (pre ++ [turn])) o

@[simp] theorem eventsIn_cons {turn : Turn I} : eventsIn (turn :: turns) = turn.events ++ eventsIn turns := by
  simp [eventsIn]

@[simp] theorem eventsIn_nil : eventsIn ([] : List (Turn I)) = [] := rfl

variable [DecidableEq I.Op]

/-- After a poll in which neither has come to its end, the rest of the response decides. -/
theorem decided_cons {q : Prog I ε α} {pre : List (Turn I)} {first turn : Turn I} (h : p.resume first.events = some q) :
    Decided transport p (first :: pre) turn r ↔ first.connectionEnded = false ∧ Decided transport q pre turn r := by
  constructor
  · rintro ⟨halive, hresult⟩
    obtain ⟨hfirst, hpre⟩ := List.forall_mem_cons.mp halive
    refine ⟨hfirst, hpre, ?_⟩
    simpa only [List.cons_append, eventsIn_cons, run_append_iff h, asks_append_iff h] using hresult
  · rintro ⟨hfirst, hpre, hresult⟩
    refine ⟨List.forall_mem_cons.mpr ⟨hfirst, hpre⟩, ?_⟩
    simpa only [List.cons_append, eventsIn_cons, run_append_iff h, asks_append_iff h] using hresult

theorem decided_nil {q : Prog I ε α} {turn : Turn I} (h : p.resume turn.events = some q) :
    Decided transport p [] turn r ↔
    Run q [] r ∨ turn.connectionEnded = true ∧ r = .error transport ∧ ∃ o, Asks q [] o := by
  have hevents : eventsIn ([] ++ [turn]) = turn.events ++ [] := by simp
  constructor
  · rintro ⟨_, hresult⟩
    simpa only [hevents, run_append_iff h, asks_append_iff h] using hresult
  · intro hresult
    refine ⟨by simp, ?_⟩
    simpa only [hevents, run_append_iff h, asks_append_iff h] using hresult

/-- Nothing is decided by polls that the response cannot have done. -/
theorem not_decided {t u : List (Event I)} {pre : List (Turn I)} {turn : Turn I} (h : p.resume t = none)
    (hevents : eventsIn (pre ++ [turn]) = t ++ u) : ¬ Decided transport p pre turn r := by
  rintro ⟨_, hresult⟩
  rw [hevents] at hresult
  rcases hresult with hrun | ⟨_, _, o, hasks⟩
  · exact not_run_of_resume h hrun
  · exact not_asks_of_resume h hasks

/-- The two futures are driven to the result of the response, unless the connection ends first. -/
theorem driveConnectionAndResponse_eq_some (transport : ε) (p : Prog I ε α) (turns : List (Turn I)) (r : Except ε α) :
    driveConnectionAndResponse transport false p turns = some r ↔
      ∃ pre turn post, turns = pre ++ turn :: post ∧ Decided transport p pre turn r := by
  induction turns generalizing p with
  | nil => simp [driveConnectionAndResponse]
  | cons first turns ih =>
      -- the result comes in the first poll or in a later one
      have hsplit : (∃ pre turn post, first :: turns = pre ++ turn :: post ∧ Decided transport p pre turn r) ↔
          Decided transport p [] first r ∨
            ∃ pre turn post, turns = pre ++ turn :: post ∧ Decided transport p (first :: pre) turn r := by
        constructor
        · rintro ⟨pre, turn, post, hturns, hd⟩
          cases pre with
          | nil =>
              cases hturns
              exact Or.inl hd
          | cons _ pre =>
              cases hturns
              exact Or.inr ⟨pre, turn, post, rfl, hd⟩
        · rintro (hd | ⟨pre, turn, post, rfl, hd⟩)
          · exact ⟨[], first, turns, rfl, hd⟩
          · exact ⟨first :: pre, turn, post, rfl, hd⟩
      rw [hsplit, driveConnectionAndResponse]
      cases hresume : p.resume first.events with
      | none =>
          constructor
          · rintro ⟨⟩
          · rintro (hd | ⟨pre, turn, _, _, hd⟩)
            · exact absurd hd (not_decided hresume (by simp : eventsIn ([] ++ [first]) = first.events ++ []))
            · exact absurd hd (not_decided hresume (eventsIn_cons : _ = first.events ++ eventsIn (pre ++ [turn])))
      | some q =>
          simp only [decided_nil hresume, decided_cons hresume]
          cases q with
          | ret a =>
              have hrest : ∀ pre turn, Decided transport (.ret a : Prog I ε α) pre turn r → r = .ok a := by
                rintro pre turn ⟨_, hrun | ⟨_, _, _, hasks⟩⟩
                · exact (run_ret.mp hrun).2
                · exact absurd hasks asks_ret
              simp only [run_ret, asks_ret, Option.some.injEq]
              grind
          | fail e =>
              have hrest : ∀ pre turn, Decided transport (.fail e : Prog I ε α) pre turn r → r = .error e := by
                rintro pre turn ⟨_, hrun | ⟨_, _, _, hasks⟩⟩
                · exact (run_fail.mp hrun).2
                · exact absurd hasks asks_fail
              simp only [run_fail, asks_fail, Option.some.injEq]
              grind
          | call o k =>
              have hpending : ∃ o', Asks (.call o k : Prog I ε α) [] o' := ⟨o, .here⟩
              simp only [run_call, hpending, Bool.false_or]
              cases hended : first.connectionEnded with
              | true => simp [@eq_comm _ r]
              | false => simp [ih]

/-- What the polls come to is a run in which the response may be given up for the end of the connection. -/
theorem Decided.exists_run {F : Failures ε} {p : Io N ε α} {pre : List (Turn (outbound N))} {turn : Turn (outbound N)}
    (h : Decided F.transport p pre turn r)
    (hawait : ∀ o : Op N, Asks p (eventsIn (pre ++ [turn])) o → (∃ request, o = .sendRequest request) ∨ o = .frame) :
    ∃ t, Run (timeoutAt F p) t r := by
  rcases h.result with hrun | ⟨_, rfl, o, hasks⟩
  · exact ⟨_, run_interruptible.mpr (Or.inl ⟨_, rfl, hrun⟩)⟩
  · rcases hawait o hasks with ⟨request, rfl⟩ | rfl
    · exact ⟨_, run_interruptible.mpr (Or.inr ⟨_, .sendRequest request, Interruption.connectionEnded, rfl, hasks, rfl⟩)⟩
    · exact ⟨_, run_interruptible.mpr (Or.inr ⟨_, Op.frame, Interruption.connectionEnded, rfl, hasks, rfl⟩)⟩

end PermissionSync.Net
