import PermissionSync.Wire.Document
import PermissionSync.Wire.Lemmas.Grammar

/-!
# What is written is read back
-/

namespace PermissionSync.Wire

open PermissionSync.Base

variable {b : UInt8} {n : Nat} {r : List UInt8}

/-! ## Strings -/

/-- The escape of a control character without a letter of its own. -/
theorem hexValue_control (h : n < 32) : hexValue [48, 48, hexByte (n / 16), hexByte (n % 16)] = some n := by
  revert n
  decide

theorem encode_ascii (h : n < 128) : encode n = [UInt8.ofNat n] := by
  have htoNat : (Char.ofNat n).toNat = n := by rw [Char.toNat_ofNat, if_pos (Or.inl (by omega))]
  rw [encode, utf8EncodeChar_ascii (by omega), asciiByte, htoNat]

theorem stringUnit_escapeByte (b : UInt8) : StringUnit (escapeByte b) [b] := by
  unfold escapeByte
  split_ifs with hquote h8 h9 h10 h12 h13 hcontrol
  · exact .short (by simp [shortEscape, hquote.imp_right Or.inl])
  · exact h8 ▸ .short rfl
  · exact h9 ▸ .short rfl
  · exact h10 ▸ .short rfl
  · exact h12 ▸ .short rfl
  · exact h13 ▸ .short rfl
  · have hlt : b.toNat < 32 := hcontrol
    have henc : encode b.toNat = [b] := by rw [encode_ascii (by omega), UInt8.ofNat_toNat]
    exact henc ▸ .unicode (hexValue_control hlt) (Or.inl (by omega))
  · exact .plain (fun h => hquote (Or.inl h)) (fun h => hquote (Or.inr h)) (by simpa using hcontrol)

theorem units_escape (bytes : List UInt8) : Units StringUnit (bytes.flatMap escapeByte) bytes := by
  induction bytes with
  | nil => exact .nil
  | cons b bytes ih => exact .cons (stringUnit_escapeByte b) ih

theorem spells_writeStr (s : String) : Spells (writeStr s) s := ⟨_, rfl, units_escape _⟩

theorem readStr_writeStr (s : String) : readStr (writeStr s ++ r) = some (s, r) := by
  have hparse : parseStr ((asBytes s).flatMap escapeByte ++ 34 :: r) = some (asBytes s, r) :=
    parseStr_eq_some.mpr ⟨_, rfl, units_escape _⟩
  have hutf8 : fromUtf8 (asBytes s) = some s := fromUtf8_eq_some.mpr rfl
  simp [writeStr, readStr, hparse, hutf8]

/-! ## Numbers -/

theorem toNat_of_isDigit {c : Char} (h : c.isDigit = true) : 48 ≤ c.toNat ∧ c.toNat ≤ 57 := by
  simpa [Char.isDigit, UInt32.le_iff_toNat_le] using h

theorem toNat_asciiByte {c : Char} (h : c.toNat < 256) : (asciiByte c).toNat = c.toNat := by
  rw [asciiByte, UInt8.toNat_ofNat', Nat.mod_eq_of_lt h]

theorem char_asciiByte {c : Char} (h : c.toNat < 256) : Char.ofNat (asciiByte c).toNat = c := by
  rw [toNat_asciiByte h, Char.ofNat_toNat]

theorem isDigit_asciiByte {c : Char} (h : c.isDigit = true) : isDigit (asciiByte c) = true := by
  obtain ⟨hlow, hhigh⟩ := toNat_of_isDigit h
  have htoNat := toNat_asciiByte (c := c) (by omega)
  simp [isDigit, UInt8.le_iff_toNat_le, htoNat, hlow, hhigh]

theorem digits_writeNat (n : Nat) : Digits (writeNat n) := by
  intro b hb
  obtain ⟨c, hc, rfl⟩ := List.mem_map.mp hb
  exact isDigit_asciiByte (isDigit_of_mem_decimal hc)

theorem chars_writeNat (n : Nat) : (writeNat n).map (fun b => Char.ofNat b.toNat) = decimal n := by
  rw [writeNat, List.map_map]
  refine (List.map_congr_left fun c hc => ?_).trans (List.map_id _)
  have hdigit := toNat_of_isDigit (isDigit_of_mem_decimal hc)
  exact char_asciiByte (by omega)

theorem digitChar_ne_zero : ∀ n < 10, 0 < n → n.digitChar ≠ '0' := by decide

/-- Only the numeral of zero begins with a zero. -/
theorem head_decimal (h : 0 < n) : (decimal n).head? ≠ some '0' := by
  induction n using Nat.strongRecOn with
  | ind n ih =>
      by_cases hlt : n < 10
      · rw [decimal, Nat.toDigits_of_lt_base hlt]
        simpa using digitChar_ne_zero n hlt h
      · have hrest := ih (n / 10) (by omega) (by omega)
        rw [decimal, Nat.toDigits_of_base_le (by decide) (by omega), List.head?_append_of_ne_nil _ Nat.toDigits_ne_nil]
        exact hrest

theorem noLeadingZero (n : Nat) (h : (writeNat n).head? = some 48) : (writeNat n).length = 1 := by
  rcases Nat.eq_zero_or_pos n with rfl | hpos
  · rfl
  · rw [writeNat, List.head?_map, Option.map_eq_some_iff] at h
    obtain ⟨c, hc, hzero⟩ := h
    have hdigit := toNat_of_isDigit (isDigit_of_mem_decimal (List.mem_of_head? hc))
    have hchar : c = '0' := by
      rw [← char_asciiByte (c := c) (by omega), hzero]
      rfl
    exact absurd (hchar ▸ hc) (head_decimal hpos)

theorem writeNat_ne_nil (n : Nat) : writeNat n ≠ [] := by simp [writeNat, decimal_ne_nil]

theorem readNat_writeNat (n : Nat) (hr : EndsNumber r) : readNat (writeNat n ++ r) = some (n, r) := by
  have hds := digits_writeNat n
  have hskip : skipDigits (writeNat n ++ r) = r := dropWhile_append_eq hds hr.startsNot
  have htake : (writeNat n ++ r).takeWhile isDigit = writeNat n := takeWhile_append_eq hds hr.startsNot
  have hhead : (writeNat n ++ r).head? = (writeNat n).head? := List.head?_append_of_ne_nil _ (writeNat_ne_nil n)
  simp only [readNat, hskip, htake, hhead, chars_writeNat, digitsValue_decimal, any_head_eq_false hr, Bool.false_or]
  simpa using noLeadingZero n

/-! ## Documents -/

theorem writeNat_head (n : Nat) : ∃ d t, writeNat n = d :: t ∧ isDigit d = true := by
  obtain ⟨d, t, h⟩ := List.exists_cons_of_ne_nil (writeNat_ne_nil n)
  exact ⟨d, t, h, digits_writeNat n d (by simp [h])⟩

/-- The first byte of a document is neither whitespace nor a closing bracket. -/
theorem write_head (v : Value) : ∃ b t, write v = b :: t ∧ closesOrBlank b = false := by
  cases v with
  | null => exact ⟨_, _, by rw [write], by decide⟩
  | bool b => cases b <;> exact ⟨_, _, by rw [write], by decide⟩
  | int z =>
      rw [write]
      cases z with
      | ofNat n =>
          obtain ⟨d, t, h, hd⟩ := writeNat_head n
          exact ⟨d, t, h, closesOrBlank_of_isDigit hd⟩
      | negSucc n => exact ⟨_, _, rfl, by decide⟩
  | str s => exact ⟨_, _, by rw [write, writeStr]; rfl, by decide⟩
  | arr es => cases es <;> exact ⟨_, _, by rw [write]; try rfl, by decide⟩
  | obj ms =>
      cases ms with
      | nil => exact ⟨_, _, by rw [write], by decide⟩
      | cons m ms => exact ⟨_, _, by rw [write]; rfl, by decide⟩

theorem startsNot_write (v : Value) : StartsNot isJsonWhitespace (write v ++ r) := by
  obtain ⟨b, t, h, hb⟩ := write_head v
  simp only [closesOrBlank, Bool.or_eq_false_iff] at hb
  rw [h]
  exact startsNot_cons.mpr hb.1.1

theorem skipSpaces_of (h : StartsNot isJsonWhitespace r) : skipSpaces r = r := dropWhile_eq_self h

theorem readValue_digit (h : isDigit b = true) :
    readValue (n + 1) (b :: r) = (readNat (b :: r)).map fun x => (.int x.1, x.2) := by
  have hne := fun c (hc : isDigit c = false) => ne_of_isDigit h hc
  simp [readValue, hne 110 (by decide), hne 116 (by decide), hne 102 (by decide), hne 45 (by decide), h]

/-- An array with elements, whose first one begins with the byte. -/
theorem readValue_array (h : closesOrBlank b = false) :
    readValue (n + 1) (91 :: b :: r) = (readElements n (b :: r)).map fun x => (.arr x.1, x.2) := by
  simp only [closesOrBlank, Bool.or_eq_false_iff, beq_eq_false_iff_ne] at h
  have hskip : skipSpaces (b :: r) = b :: r := skipSpaces_of (startsNot_cons.mpr h.1.1)
  simp only [readValue, hskip, show (91 : UInt8) ≠ 110 by decide, show (91 : UInt8) ≠ 116 by decide,
    show (91 : UInt8) ≠ 102 by decide, show (91 : UInt8) ≠ 45 by decide, show (91 : UInt8) ≠ 34 by decide,
    show isDigit 91 = false by decide, if_false, if_true, Bool.false_eq_true]
  split
  · rename_i hclose
    cases hclose
    exact absurd rfl h.1.2
  · rfl

/-- An object with members. -/
theorem readValue_object :
    readValue (n + 1) (123 :: 34 :: r) = (readMembers n (34 :: r)).map fun x => (.obj x.1, x.2) := by
  have hskip : skipSpaces (34 :: r) = 34 :: r := skipSpaces_of (startsNot_cons.mpr (by decide))
  simp only [readValue, hskip]
  rfl

/-- Documents, elements and members are read back with as much fuel as they have bytes. -/
structure ReadBack (n : Nat) : Prop where
  value : ∀ v r, (write v).length ≤ n → EndsNumber r → readValue n (write v ++ r) = some (v, r)
  elements : ∀ e es r, (write e ++ writeElements es).length ≤ n →
    readElements n (write e ++ (writeElements es ++ r)) = some (e :: es, r)
  members : ∀ name v ms r, (writeStr name ++ 58 :: (write v ++ writeMembers ms)).length ≤ n →
    readMembers n (writeStr name ++ 58 :: (write v ++ (writeMembers ms ++ r))) = some ((name, v) :: ms, r)

theorem write_length_pos (v : Value) : 0 < (write v).length := by
  obtain ⟨b, t, h, _⟩ := write_head v
  simp [h]

theorem ReadBack.value_succ (ih : ReadBack n) (v : Value) (hn : (write v).length ≤ n + 1) (hr : EndsNumber r) :
    readValue (n + 1) (write v ++ r) = some (v, r) := by
  cases v with
  | null => simp [write, readValue, parseIdent]
  | bool b => cases b <;> simp [write, readValue, parseIdent]
  | int z =>
      rw [write]
      cases z with
      | ofNat m =>
          have hread := readNat_writeNat m hr
          obtain ⟨d, t, h, hd⟩ := writeNat_head m
          simp only [writeInt, h, List.cons_append] at hread ⊢
          rw [readValue_digit hd, hread]
          rfl
      | negSucc m =>
          simp [writeInt, readValue, readNat_writeNat (m + 1) hr, Int.negSucc_eq]
  | str s =>
      have hread := readStr_writeStr (r := r) s
      simp only [write, writeStr, List.cons_append] at hread ⊢
      simpa [readValue, isDigit] using hread
  | arr es =>
      cases es with
      | nil => simp [write, readValue, isDigit, skipSpaces, isJsonWhitespace]
      | cons e es =>
          have hlen : (write e ++ writeElements es).length ≤ n := by simpa [write] using hn
          have hread := ih.elements e es r hlen
          obtain ⟨b, t, h, hb⟩ := write_head e
          simp only [write, h, List.cons_append, List.append_assoc] at hread ⊢
          rw [readValue_array hb, hread]
          rfl
  | obj ms =>
      cases ms with
      | nil => simp [write, readValue, isDigit, skipSpaces, isJsonWhitespace]
      | cons m ms =>
          obtain ⟨name, v⟩ := m
          have hlen : (writeStr name ++ 58 :: (write v ++ writeMembers ms)).length ≤ n := by simpa [write] using hn
          have hread := ih.members name v ms r hlen
          simp only [write, writeStr, List.cons_append, List.append_assoc] at hread ⊢
          rw [readValue_object, hread]
          rfl

theorem ReadBack.elements_succ (ih : ReadBack n) (e : Value) (es : List Value)
    (hn : (write e ++ writeElements es).length ≤ n + 1) :
    readElements (n + 1) (write e ++ (writeElements es ++ r)) = some (e :: es, r) := by
  have hpos := write_length_pos e
  rw [List.length_append] at hn
  cases es with
  | nil =>
      have hvalue := ih.value e (93 :: r) (by simp [writeElements] at hn; omega) (startsNot_cons.mpr (by decide))
      simp [readElements, writeElements, hvalue, skipSpaces, isJsonWhitespace]
  | cons e' es =>
      simp only [writeElements, List.cons_append, List.length_cons] at hn
      have hvalue :=
        ih.value e (44 :: (write e' ++ (writeElements es ++ r))) (by omega) (startsNot_cons.mpr (by decide))
      have hrest := ih.elements e' es r (by omega)
      have hskip : skipSpaces (write e' ++ (writeElements es ++ r)) = _ := skipSpaces_of (startsNot_write e')
      have hcomma : skipSpaces (44 :: (write e' ++ (writeElements es ++ r))) = _ :=
        skipSpaces_of (startsNot_cons.mpr (by decide))
      simp [readElements, writeElements, hvalue, hcomma, hskip, hrest]

theorem ReadBack.members_succ (ih : ReadBack n) (name : String) (v : Value) (ms : List (String × Value))
    (hn : (writeStr name ++ 58 :: (write v ++ writeMembers ms)).length ≤ n + 1) :
    readMembers (n + 1) (writeStr name ++ 58 :: (write v ++ (writeMembers ms ++ r))) = some ((name, v) :: ms, r) := by
  have hcolon : ∀ i, expectByte 58 (58 :: i) = some i :=
    fun i => expectByte_complete (w := []) (by simp [Spaces]) (by decide)
  simp only [List.length_append, List.length_cons] at hn
  cases ms with
  | nil =>
      have hvalue := ih.value v (125 :: r) (by omega) (startsNot_cons.mpr (by decide))
      have hskip : skipSpaces (write v ++ 125 :: r) = _ := skipSpaces_of (startsNot_write v)
      have hclose : skipSpaces (125 :: r) = 125 :: r := skipSpaces_of (startsNot_cons.mpr (by decide))
      simp [readMembers, writeMembers, readStr_writeStr, hcolon, hskip, hvalue, hclose]
  | cons m ms =>
      obtain ⟨name', v'⟩ := m
      simp only [writeMembers, List.cons_append, List.length_cons] at hn
      have hvalue := ih.value v (44 :: (writeStr name' ++ 58 :: (write v' ++ (writeMembers ms ++ r)))) (by omega)
        (startsNot_cons.mpr (by decide))
      have hrest := ih.members name' v' ms r (by simp only [List.length_append, List.length_cons] at hn ⊢; omega)
      have hskip : skipSpaces (write v ++ 44 :: (writeStr name' ++ 58 :: (write v' ++ (writeMembers ms ++ r)))) = _ :=
        skipSpaces_of (startsNot_write v)
      have hcomma : skipSpaces (44 :: (writeStr name' ++ 58 :: (write v' ++ (writeMembers ms ++ r)))) = _ :=
        skipSpaces_of (startsNot_cons.mpr (by decide))
      have hname : skipSpaces (writeStr name' ++ 58 :: (write v' ++ (writeMembers ms ++ r))) = _ :=
        skipSpaces_of (startsNot_cons.mpr (by decide))
      simp [readMembers, writeMembers, readStr_writeStr, hcolon, hskip, hvalue, hcomma, hname, hrest]

theorem readBack (n : Nat) : ReadBack n := by
  induction n with
  | zero =>
      constructor
      · intro v r hn
        have := write_length_pos v
        omega
      · intro e es r hn
        have := write_length_pos e
        simp only [List.length_append] at hn
        omega
      · intro name v ms r hn
        simp only [List.length_append, List.length_cons] at hn
        omega
  | succ n ih =>
      exact ⟨fun v r => ih.value_succ v, fun e es r => ih.elements_succ e es,
        fun name v ms r => ih.members_succ name v ms⟩

theorem readDocument_write (v : Value) : readDocument (write v) = some v := by
  have hvalue := (readBack ((write v).length + 1)).value v [] (Nat.le_succ _) startsNot_nil
  have hskip : skipSpaces (write v ++ []) = write v ++ [] := skipSpaces_of (startsNot_write v)
  have hend : skipSpaces [] = [] := rfl
  rw [List.append_nil] at hvalue hskip
  simp [readDocument, hskip, hvalue, hend]

end PermissionSync.Wire
