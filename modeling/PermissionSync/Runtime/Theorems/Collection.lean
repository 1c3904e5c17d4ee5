import PermissionSync.Runtime.Lemmas.Body

/-!
# The bounded collection of a body

Whatever frames carry the bytes, the body is collected if it is within the limit. The buffer never grows past the
limit, and only a logarithmic number of times.
-/

namespace PermissionSync.Runtime.Buffered

open PermissionSync.Base PermissionSync.Core

variable {ε : Type} {context : SynchronizationContext} {grow : Nat → Nat → Nat} {v v' : Vec UInt8} {data : List UInt8}
  {frames : List Frame}

/-! ## One frame -/

/-- What is reserved is enough for the frame, within the limit, and at least twice the capacity unless it is the
limit. -/
theorem target_bounds {received : Nat} (hcapacity : v.capacity ≤ inboundBodyLimitBytes)
    (hreceived : received ≤ inboundBodyLimitBytes) :
    received ≤ target v received ∧ target v received ≤ inboundBodyLimitBytes ∧
      (2 * v.capacity ≤ target v received ∨ target v received = inboundBodyLimitBytes) := by
  have hmul : saturatingMul v.capacity 2 = v.capacity * 2 :=
    saturatingMul_eq ((Nat.mul_le_mul_right 2 hcapacity).trans_lt (by decide))
  rw [target, hmul]
  omega

/-- The length of the buffer after the turn. -/
def Turn.received (turn : Turn) : Nat := turn.before.len + turn.data.length

/-- The frame does not fit into the capacity. -/
def Turn.Grows (turn : Turn) : Prop := turn.before.capacity < turn.received

instance (turn : Turn) : Decidable turn.Grows := inferInstanceAs (Decidable (_ < _))

/-- What a turn does to the buffer. -/
structure Turn.Bounded (turn : Turn) : Prop where
  before_len : turn.before.len ≤ inboundBodyLimitBytes
  before_capacity : turn.before.capacity ≤ inboundBodyLimitBytes
  after_len : turn.after.len ≤ inboundBodyLimitBytes
  after_capacity : turn.after.capacity ≤ inboundBodyLimitBytes
  no_underflow : turn.Grows → turn.before.len ≤ target turn.before turn.received
  enough : turn.Grows →
    turn.data.length ≤ target turn.before turn.received - turn.before.len ∧ turn.received ≤ turn.after.capacity
  doubles : turn.Grows → 2 * turn.before.capacity ≤ turn.after.capacity ∨ turn.after.capacity = inboundBodyLimitBytes
  keeps : ¬ turn.Grows → turn.after.capacity = turn.before.capacity

theorem length_le_of_receive (h : receive grow v data = some v') : v.len + data.length ≤ inboundBodyLimitBytes := by
  by_contra hlong
  rw [receive_eq_none.mpr (Nat.not_le.mp hlong)] at h
  cases h

theorem capacity_receive (hcapacity : v.capacity ≤ inboundBodyLimitBytes) (h : receive grow v data = some v') :
    v'.capacity = if v.capacity < v.len + data.length then target v (v.len + data.length) else v.capacity := by
  have hfits := length_le_of_receive h
  have hadd : saturatingAdd v.len data.length = v.len + data.length := saturatingAdd_eq (hfits.trans_lt (by decide))
  obtain ⟨henough, -, -⟩ := target_bounds hcapacity hfits
  simp only [receive, hadd, if_neg (Nat.not_lt.mpr hfits), Option.some.injEq] at h
  subst h
  split
  · rename_i hgrows
    have hsub : v.len + (target v (v.len + data.length) - v.len) = target v (v.len + data.length) := by omega
    have hreserved :
        (v.reserveExact (target v (v.len + data.length) - v.len)).capacity = target v (v.len + data.length) := by
      rw [Vec.capacity_reserveExact (by omega), hsub]
    rw [Vec.capacity_extendFromSlice (by rw [Vec.len_reserveExact, hreserved]; exact henough), hreserved]
  · rename_i hroom
    exact Vec.capacity_extendFromSlice (Nat.not_lt.mp hroom)

theorem bounded_of_receive (hcapacity : v.capacity ≤ inboundBodyLimitBytes) (h : receive grow v data = some v') :
    Turn.Bounded ⟨v, data, v'⟩ := by
  have hfits := length_le_of_receive h
  have hafter := capacity_receive hcapacity h
  have hgrown : v.capacity < v.len + data.length → v'.capacity = target v (v.len + data.length) :=
    fun hgrows => hafter.trans (if_pos hgrows)
  obtain ⟨henough, hlimit, hdoubles⟩ := target_bounds hcapacity hfits
  have hbound : v'.capacity ≤ inboundBodyLimitBytes := by
    rw [hafter]
    split
    · exact hlimit
    · exact hcapacity
  exact {
    before_len := v.len_le.trans hcapacity
    before_capacity := hcapacity
    after_len := v'.len_le.trans hbound
    after_capacity := hbound
    no_underflow := fun _ => (Nat.le_add_right _ _).trans henough
    enough := fun hgrows => ⟨Nat.le_sub_of_add_le' henough, henough.trans_eq (hgrown hgrows).symm⟩
    doubles := fun hgrows => (hgrown hgrows).symm ▸ hdoubles
    keeps := fun hroom => hafter.trans (if_neg hroom) }

/-! ## All frames -/

/-- The turns that follow one another from a buffer within the limit are bounded, and their capacities double up to the
limit. -/
theorem turns_bounded {turns : List Turn} (h : Path (Turn.Adds grow) v turns v')
    (hcapacity : v.capacity ≤ inboundBodyLimitBytes) :
    (∀ turn ∈ turns, turn.Bounded) ∧
      (v.capacity :: (turns.filter (·.Grows)).map (·.after.capacity)).IsChain (Doubles inboundBodyLimitBytes) := by
  induction h with
  | nil => exact ⟨fun _ h => (by cases h), .singleton _⟩
  | @cons v _ _ turn turns hadds _ ih =>
      obtain ⟨before, data, after⟩ := turn
      obtain ⟨rfl, rfl, hreceive⟩ := hadds
      have hturn := bounded_of_receive hcapacity hreceive
      obtain ⟨hall, hchain⟩ := ih hturn.after_capacity
      refine ⟨List.forall_mem_cons.mpr ⟨hturn, hall⟩, ?_⟩
      by_cases hgrows : Turn.Grows ⟨before, data, after⟩
      · rw [List.filter_cons, if_pos (decide_eq_true hgrows), List.map_cons, List.isChain_cons_cons]
        have hreceived : Turn.received ⟨before, data, after⟩ ≤ inboundBodyLimitBytes :=
          (hturn.enough hgrows).2.trans hturn.after_capacity
        exact ⟨⟨hgrows.trans_le hreceived, hturn.doubles hgrows⟩, hchain⟩
      · rw [List.filter_cons, if_neg (by simpa using hgrows), ← hturn.keeps hgrows]
        exact hchain

theorem growths_le {turns : List Turn} (h : Path (Turn.Adds grow) .new turns v') :
    (turns.filter (·.Grows)).length ≤ Nat.clog 2 inboundBodyLimitBytes + 1 := by
  obtain ⟨hall, hchain⟩ := turns_bounded h (Nat.zero_le _)
  rw [← List.length_map (·.after.capacity)]
  refine length_le_clog hchain fun c hc => ?_
  obtain ⟨turn, hturn, rfl⟩ := List.mem_map.mp hc
  obtain ⟨hmem, hgrows⟩ := List.mem_filter.mp hturn
  have hgrows : turn.Grows := of_decide_eq_true hgrows
  exact (Nat.zero_le _).trans_lt (hgrows.trans_le ((hall turn hmem).enough hgrows).2)

/-- The body that a run of the loop has collected is that of the loop without its buffer. -/
theorem run_fst {turns : List Turn} {t : Trace} {body : CollectedBody} :
    (∃ turns', Run (collectBody grow context frames v turns : Io ε _) t (.ok (body, turns'))) ↔
      Run (Runtime.collectBody context frames v.items : Io ε CollectedBody) t (.ok body) := by
  have hfst : (collectBody grow context frames v turns >>= fun x => pure x.1) =
      (Runtime.collectBody context frames v.items : Io ε CollectedBody) := collectBody_fst
  rw [← hfst, run_bind_ok]
  constructor
  · rintro ⟨turns', h⟩
    exact ⟨_, t, [], by simp, h, run_pure.mpr ⟨rfl, rfl⟩⟩
  · rintro ⟨⟨body', turns'⟩, t₁, t₂, rfl, h, hpure⟩
    obtain ⟨rfl, he⟩ := run_pure.mp hpure
    cases he
    exact ⟨turns', by simpa using h⟩

/-- A body of data and trailer frames that arrives in time is collected if it is within the limit, however it is split.
Whatever the answers are, the turns of the loop add their frames to one buffer, which becomes the body; it stays within
the limit and grows a logarithmic number of times. -/
theorem collectBody_bounded (grow : Nat → Nat → Nat) (context : SynchronizationContext) (frames : List Frame)
    (hframes : .failed ∉ frames) :
    (∀ t r, (∀ e ∈ t, InTime context e) → Run (collectBody grow context frames .new [] : Io ε _) t r →
      ∃ turns, r = .ok (if (dataOf frames).length ≤ inboundBodyLimitBytes then .collected (dataOf frames)
        else .boundExceeded, turns)) ∧
    (0 < context.deadline → ∃ t r, (∀ e ∈ t, InTime context e) ∧
      Run (collectBody grow context frames .new [] : Io ε _) t r) ∧
    (∀ frames' t t' r r', .failed ∉ frames' → dataOf frames' = dataOf frames →
      (∀ e ∈ t, InTime context e) → Run (collectBody grow context frames .new [] : Io ε _) t r →
      (∀ e ∈ t', InTime context e) → Run (collectBody grow context frames' .new [] : Io ε _) t' r' →
      r'.map Prod.fst = r.map Prod.fst) ∧
    ∀ t r, Run (collectBody grow context frames .new [] : Io ε _) t r →
      ∃ body turns last, r = .ok (body, turns) ∧ Path (Turn.Adds grow) .new turns last ∧
        (∀ bytes, body = .collected bytes → last.items = bytes) ∧ (∀ turn ∈ turns, turn.Bounded) ∧
        (turns.filter (·.Grows)).length ≤ Nat.clog 2 inboundBodyLimitBytes + 1 := by
  have hyields : ∀ frames, .failed ∉ frames → Yields (InTime context)
      (Runtime.collectBody context frames [] : Io ε CollectedBody) (.ok (collectedAs (dataOf frames))) :=
    fun frames hframes => collectBody_yields (fun _ h => h) hframes (Nat.zero_le _)
  have hresult : ∀ frames, .failed ∉ frames → ∀ t r, (∀ e ∈ t, InTime context e) →
      Run (collectBody grow context frames .new [] : Io ε _) t r →
      ∃ turns, r = .ok (collectedAs (dataOf frames), turns) := by
    intro frames hframes t r ht hr
    obtain ⟨body, turns, _, rfl, _⟩ := turns_of_run hr
    cases hyields frames hframes t _ ht (run_fst.mp ⟨_, hr⟩)
    exact ⟨_, rfl⟩
  refine ⟨hresult frames hframes, fun hdeadline => ?_, ?_, fun t r hr => ?_⟩
  · obtain ⟨t, ht, hr⟩ := (hyields frames hframes).exists_run (exists_inTime hdeadline)
    obtain ⟨turns, hr⟩ := (run_fst (v := .new)).mpr hr
    exact ⟨t, _, ht, hr⟩
  · intro frames' t t' r r' hframes' hdata ht hr ht' hr'
    obtain ⟨turns, rfl⟩ := hresult frames hframes t r ht hr
    obtain ⟨turns', rfl⟩ := hresult frames' hframes' t' r' ht' hr'
    rw [hdata]
    rfl
  · obtain ⟨body, turns, last, rfl, hpath, hbytes⟩ := turns_of_run hr
    exact ⟨body, turns, last, rfl, hpath, hbytes, (turns_bounded hpath (Nat.zero_le _)).1, growths_le hpath⟩

/-- Three bytes in two data frames with trailers between them. -/
def threeBytes : List Frame := [.data [1, 2], .trailers, .data [3]]

theorem threeBytes_collected :
    ∃ t turns, Run (collectBody (fun _ needed => needed) ⟨5, 0⟩ threeBytes .new [] : Io Empty _) t
      (.ok (.collected [1, 2, 3], turns)) ∧ ∀ turn ∈ turns, turn.Bounded := by
  obtain ⟨hresult, hexists, _, hturns⟩ :=
    collectBody_bounded (ε := Empty) (fun _ needed => needed) ⟨5, 0⟩ threeBytes (by decide)
  obtain ⟨t, r, ht, hr⟩ := hexists (by decide)
  obtain ⟨turns, rfl⟩ := hresult t r ht hr
  obtain ⟨_, _, _, he, _, _, hbounded, _⟩ := hturns t _ hr
  cases he
  exact ⟨t, turns, hr, hbounded⟩

end PermissionSync.Runtime.Buffered
