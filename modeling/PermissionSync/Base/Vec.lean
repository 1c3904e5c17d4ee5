import PermissionSync.Base.Numeral

/-!
# Growable buffers

A buffer holds its items and has a capacity. How much it allocates when an extension finds no room is a parameter;
an exact reservation makes the capacity what it asks for. Capacities that at least double until they reach a limit
are few.
-/

namespace PermissionSync.Base

/-- `usize::saturating_mul`. -/
def saturatingMul (a b : Nat) : Nat := min (a * b) (u64Bound - 1)

theorem saturatingMul_eq {a b : Nat} (h : a * b < u64Bound) : saturatingMul a b = a * b :=
  min_eq_left (Nat.le_sub_one_of_lt h)

/-- `Vec`. -/
structure Vec (α : Type) where
  items : List α
  capacity : Nat
  length_le : items.length ≤ capacity

namespace Vec

variable {α : Type} {v : Vec α} {n : Nat}

def new : Vec α := ⟨[], 0, Nat.le_refl 0⟩

def len (v : Vec α) : Nat := v.items.length

def reserveExact (v : Vec α) (additional : Nat) : Vec α :=
  if v.capacity < v.len + additional then ⟨v.items, v.len + additional, Nat.le_add_right _ _⟩ else v

/-- Extending allocates only if there is no room, and then at least what is needed. -/
def extendFromSlice (grow : Nat → Nat → Nat) (v : Vec α) (data : List α) : Vec α where
  items := v.items ++ data
  capacity :=
    if v.capacity < v.len + data.length then max (grow v.capacity (v.len + data.length)) (v.len + data.length)
    else v.capacity
  length_le := by
    rw [List.length_append]
    split_ifs with h
    · exact le_max_right _ _
    · exact Nat.not_lt.mp h

theorem len_le (v : Vec α) : v.len ≤ v.capacity := v.length_le

@[simp] theorem items_reserveExact : (v.reserveExact n).items = v.items := by
  unfold reserveExact
  split <;> rfl

@[simp] theorem len_reserveExact : (v.reserveExact n).len = v.len := by simp [len]

theorem capacity_reserveExact (h : v.capacity < v.len + n) : (v.reserveExact n).capacity = v.len + n := by
  rw [reserveExact, if_pos h]

@[simp] theorem items_extendFromSlice {grow : Nat → Nat → Nat} {data : List α} :
    (v.extendFromSlice grow data).items = v.items ++ data := rfl

theorem capacity_extendFromSlice {grow : Nat → Nat → Nat} {data : List α} (h : v.len + data.length ≤ v.capacity) :
    (v.extendFromSlice grow data).capacity = v.capacity := if_neg (Nat.not_lt.mpr h)

end Vec

/-! ## Doubling up to a limit -/

/-- A capacity below the limit is at least doubled, or the limit is reached. -/
def Doubles (limit a b : Nat) : Prop := a < limit ∧ (2 * a ≤ b ∨ b = limit)

variable {limit c : Nat} {cs : List Nat}

/-- Every capacity but the last is below the limit, and a power of two times the first. -/
theorem pow_mul_lt_of_isChain {c' : Nat} (h : (c :: c' :: cs).IsChain (Doubles limit)) : 2 ^ cs.length * c < limit := by
  induction cs generalizing c c' with
  | nil =>
      simp only [List.isChain_cons_cons] at h
      simpa using h.1.1
  | cons d cs ih =>
      rw [List.isChain_cons_cons] at h
      obtain ⟨⟨_, hstep⟩, hrest⟩ := h
      have hlt := ih hrest
      rcases hstep with hdouble | rfl
      · calc 2 ^ (cs.length + 1) * c = 2 ^ cs.length * (2 * c) := by rw [pow_succ]; ring
          _ ≤ 2 ^ cs.length * c' := Nat.mul_le_mul_left _ hdouble
          _ < limit := hlt
      · exact absurd hlt (Nat.not_lt.mpr (Nat.le_mul_of_pos_left _ (by positivity)))

theorem length_le_clog (h : (c :: cs).IsChain (Doubles limit)) (hpos : ∀ d ∈ cs, 0 < d) :
    cs.length ≤ Nat.clog 2 limit + 1 := by
  match cs with
  | [] | [_] => simp
  | d :: d' :: cs =>
      have hlt := pow_mul_lt_of_isChain (List.isChain_cons_cons.mp h).2
      have hpow : 2 ^ cs.length < limit :=
        (Nat.le_mul_of_pos_right _ (hpos d List.mem_cons_self)).trans_lt hlt
      have := (Nat.lt_clog_iff_pow_lt Nat.one_lt_two).mpr hpow
      simp only [List.length_cons]
      omega

end PermissionSync.Base
