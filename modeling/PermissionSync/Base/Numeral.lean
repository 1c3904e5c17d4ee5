import Mathlib

/-!
# Machine integers and their decimal texts

Checked addition of unsigned 64-bit integers, their decimal numerals, and splitting a text at a character.
-/

namespace PermissionSync.Base

/-- One more than the largest unsigned 64-bit integer. -/
def u64Bound : Nat := 2 ^ 64

/-- `u64::checked_add`. -/
def checkedAdd (a b : Nat) : Option Nat := if a + b < u64Bound then some (a + b) else none

/-- `u64::saturating_add`. -/
def saturatingAdd (a b : Nat) : Nat := min (a + b) (u64Bound - 1)

theorem checkedAdd_eq_some {a b c : Nat} : checkedAdd a b = some c ↔ a + b = c ∧ c < u64Bound := by
  unfold checkedAdd
  split
  · rename_i h
    rw [Option.some.injEq]
    exact ⟨fun he => ⟨he, he ▸ h⟩, fun he => he.1⟩
  · rename_i h
    constructor
    · intro he; cases he
    · rintro ⟨rfl, hc⟩; exact absurd hc h

theorem saturatingAdd_eq {a b : Nat} (h : a + b < u64Bound) : saturatingAdd a b = a + b :=
  min_eq_left (Nat.le_sub_one_of_lt h)

/-! ## Decimal numerals -/

/-- The value of a sequence of decimal digits. -/
def digitsValue (cs : List Char) : Option Nat :=
  if cs ≠ [] ∧ cs.all Char.isDigit then some (Nat.ofDigitChars 10 cs 0) else none

/-- `str::parse::<u64>`: an optional plus sign, at least one digit, and a value that fits. -/
def parseU64 (cs : List Char) : Option Nat :=
  let digits := match cs with
    | '+' :: rest => rest
    | _ => cs
  (digitsValue digits).filter (· < u64Bound)

/-- `u64::to_string`. -/
def decimal (n : Nat) : List Char := Nat.toDigits 10 n

theorem isDigit_of_mem_decimal {n : Nat} {c : Char} (h : c ∈ decimal n) : c.isDigit = true :=
  Nat.isDigit_of_mem_toDigits (by decide) (by decide) h

theorem decimal_ne_nil (n : Nat) : decimal n ≠ [] := Nat.toDigits_ne_nil

theorem notMem_decimal {n : Nat} {c : Char} (h : c.isDigit = false) : c ∉ decimal n := by
  intro hc
  rw [isDigit_of_mem_decimal hc] at h
  cases h

theorem digitsValue_decimal (n : Nat) : digitsValue (decimal n) = some n := by
  have hall : (decimal n).all Char.isDigit = true := List.all_eq_true.mpr fun c hc => isDigit_of_mem_decimal hc
  rw [digitsValue, if_pos ⟨decimal_ne_nil n, hall⟩]
  exact congrArg some (Nat.ofDigitChars_toDigits (by decide) (by decide))

/-- Reading back the numeral of an unsigned 64-bit integer. -/
theorem parseU64_decimal {n : Nat} (h : n < u64Bound) : parseU64 (decimal n) = some n := by
  have hplus : '+' ∉ decimal n := notMem_decimal (by decide)
  unfold parseU64
  split
  · rename_i rest hd
    rw [hd] at hplus
    exact absurd List.mem_cons_self hplus
  · simp [digitsValue_decimal, h]

theorem decimal_injective {m n : Nat} (h : decimal m = decimal n) : m = n := by
  have := digitsValue_decimal m
  rw [h, digitsValue_decimal] at this
  exact (Option.some.inj this).symm

/-! ## Splitting -/

/-- `str::split_once`: the parts before and after the first occurrence. -/
def splitOnce (c : Char) : List Char → Option (List Char × List Char)
  | [] => none
  | x :: xs => if x = c then some ([], xs) else (splitOnce c xs).map fun p => (x :: p.1, p.2)

/-- `str::rsplit_once`: the parts before and after the last occurrence. -/
def rsplitOnce (c : Char) : List Char → Option (List Char × List Char)
  | [] => none
  | x :: xs =>
      match rsplitOnce c xs with
      | some p => some (x :: p.1, p.2)
      | none => if x = c then some ([], xs) else none

theorem splitOnce_append {c : Char} {as bs : List Char} (h : c ∉ as) :
    splitOnce c (as ++ c :: bs) = some (as, bs) := by
  induction as with
  | nil => simp [splitOnce]
  | cons a as ih =>
      have hne : a ≠ c := fun he => h (he ▸ List.mem_cons_self)
      simp [splitOnce, hne, ih fun hc => h (List.mem_cons_of_mem _ hc)]

theorem rsplitOnce_eq_none {c : Char} {cs : List Char} (h : c ∉ cs) : rsplitOnce c cs = none := by
  induction cs with
  | nil => rfl
  | cons a as ih =>
      have hne : a ≠ c := fun he => h (he ▸ List.mem_cons_self)
      simp [rsplitOnce, hne, ih fun hc => h (List.mem_cons_of_mem _ hc)]

theorem rsplitOnce_append {c : Char} {as bs : List Char} (h : c ∉ bs) :
    rsplitOnce c (as ++ c :: bs) = some (as, bs) := by
  induction as with
  | nil => simp [rsplitOnce, rsplitOnce_eq_none h]
  | cons a as ih => simp [rsplitOnce, ih]

end PermissionSync.Base
