import Mathlib

/-!
# UTF-8 bytes

Strings are compared and checked by their bytes. The order of the bytes is the order of the code points, and a check
that refuses every byte above `0x7f` is a check of the characters.
-/

namespace PermissionSync.Base

/-- `str::as_bytes`. -/
def asBytes (s : String) : List UInt8 := s.toList.flatMap String.utf8EncodeChar

/-- The byte of an ASCII character. -/
def asciiByte (c : Char) : UInt8 := UInt8.ofNat c.toNat

variable {c d : Char} {s t : String} {l l' : List Char}

/-- How the bytes of a character are made from its code point. -/
theorem utf8EncodeChar_eq (c : Char) : String.utf8EncodeChar c =
    if c.toNat ≤ 127 then [UInt8.ofNat c.toNat]
    else if c.toNat ≤ 2047 then [UInt8.ofNat (c.toNat / 64 % 32 + 192), UInt8.ofNat (c.toNat % 64 + 128)]
    else if c.toNat ≤ 65535 then
      [UInt8.ofNat (c.toNat / 4096 % 16 + 224), UInt8.ofNat (c.toNat / 64 % 64 + 128), UInt8.ofNat (c.toNat % 64 + 128)]
    else
      [UInt8.ofNat (c.toNat / 262144 % 8 + 240), UInt8.ofNat (c.toNat / 4096 % 64 + 128),
        UInt8.ofNat (c.toNat / 64 % 64 + 128), UInt8.ofNat (c.toNat % 64 + 128)] := rfl

theorem toNat_lt (c : Char) : c.toNat < 1114112 := by
  rcases c.valid with h | h
  · exact Nat.lt_trans h (by decide)
  · exact h.2

theorem utf8EncodeChar_ne_nil (c : Char) : String.utf8EncodeChar c ≠ [] := by
  rw [utf8EncodeChar_eq]
  split_ifs <;> exact List.cons_ne_nil _ _

/-! ## ASCII -/

theorem utf8EncodeChar_ascii (h : c.toNat < 128) : String.utf8EncodeChar c = [asciiByte c] := by
  rw [utf8EncodeChar_eq, if_pos (by omega), asciiByte]

/-- The bytes of every other character are above those of ASCII. -/
theorem le_of_mem_utf8EncodeChar (h : 128 ≤ c.toNat) {b : UInt8} (hb : b ∈ String.utf8EncodeChar c) :
    128 ≤ b.toNat := by
  rw [utf8EncodeChar_eq, if_neg (by omega)] at hb
  split_ifs at hb
  all_goals
    simp only [List.mem_cons, List.not_mem_nil, or_false] at hb
    rcases hb with rfl | rfl | rfl | rfl
  all_goals
    rw [UInt8.toNat_ofNat']
    omega

theorem asBytes_of_ascii (h : ∀ c ∈ s.toList, c.toNat < 128) : asBytes s = s.toList.map asciiByte := by
  unfold asBytes
  generalize s.toList = l at h ⊢
  induction l with
  | nil => rfl
  | cons c l ih =>
      obtain ⟨hc, hl⟩ := List.forall_mem_cons.mp h
      rw [List.flatMap_cons, utf8EncodeChar_ascii hc, ih hl]
      rfl

theorem ascii_of_asBytes (h : ∀ b ∈ asBytes s, b.toNat < 128) : ∀ c ∈ s.toList, c.toNat < 128 := by
  intro c hc
  by_contra hbig
  obtain ⟨b, hb⟩ := List.exists_mem_of_ne_nil _ (utf8EncodeChar_ne_nil c)
  have hlow := h b (List.mem_flatMap.mpr ⟨c, hc, hb⟩)
  have hhigh := le_of_mem_utf8EncodeChar (Nat.le_of_not_lt hbig) hb
  omega

/-- A check of the bytes that refuses the bytes of other characters is one of the characters. -/
theorem forall_asBytes {P : UInt8 → Prop} (hP : ∀ b, P b → b.toNat < 128) :
    (∀ b ∈ asBytes s, P b) ↔ ∀ c ∈ s.toList, c.toNat < 128 ∧ P (asciiByte c) := by
  constructor
  · intro h
    have hascii := ascii_of_asBytes fun b hb => hP b (h b hb)
    rw [asBytes_of_ascii hascii] at h
    exact fun c hc => ⟨hascii c hc, h _ (List.mem_map_of_mem hc)⟩
  · intro h
    rw [asBytes_of_ascii fun c hc => (h c hc).1]
    intro b hb
    obtain ⟨c, hc, rfl⟩ := List.mem_map.mp hb
    exact (h c hc).2

/-! ## The order -/

/-- The bytes that a code point has above `0xffff`, as numbers. -/
theorem digits_lt {a b : Nat} (h : a < b) (hb : b < 1114112) :
    a / 262144 % 8 < b / 262144 % 8 ∨ a / 262144 % 8 = b / 262144 % 8 ∧
      (a / 4096 % 64 < b / 4096 % 64 ∨ a / 4096 % 64 = b / 4096 % 64 ∧
        (a / 64 % 64 < b / 64 % 64 ∨ a / 64 % 64 = b / 64 % 64 ∧ a % 64 < b % 64)) := by
  have ha : a = a / 262144 % 8 * 262144 + a / 4096 % 64 * 4096 + a / 64 % 64 * 64 + a % 64 := by omega
  have hb : b = b / 262144 % 8 * 262144 + b / 4096 % 64 * 4096 + b / 64 % 64 * 64 + b % 64 := by omega
  have hdigits (n : Nat) : n % 64 < 64 := Nat.mod_lt n (by decide)
  have ha₂ := hdigits (a / 4096)
  have ha₁ := hdigits (a / 64)
  have ha₀ := hdigits a
  have hb₂ := hdigits (b / 4096)
  have hb₁ := hdigits (b / 64)
  have hb₀ := hdigits b
  generalize a / 262144 % 8 = a₃, a / 4096 % 64 = a₂, a / 64 % 64 = a₁, a % 64 = a₀ at *
  generalize b / 262144 % 8 = b₃, b / 4096 % 64 = b₂, b / 64 % 64 = b₁, b % 64 = b₀ at *
  omega

/-- A smaller character has smaller bytes, whatever follows. -/
theorem utf8EncodeChar_lt (h : c < d) (u v : List UInt8) :
    String.utf8EncodeChar c ++ u < String.utf8EncodeChar d ++ v := by
  have hlt : c.toNat < d.toNat := h
  have hd := toNat_lt d
  have hdigits := digits_lt hlt hd
  have hlast (n : Nat) : (n % 64 + 128) % 2 ^ 8 = n % 64 + 128 := by omega
  have hfirst (n : Nat) : (n % 8 + 240) % 2 ^ 8 = n % 8 + 240 := by omega
  rw [utf8EncodeChar_eq, utf8EncodeChar_eq]
  split_ifs
  all_goals
    simp only [List.cons_append, List.nil_append, List.cons_lt_cons_iff, UInt8.lt_iff_toNat_lt, UInt8.ext_iff,
      UInt8.toNat_ofNat', hlast, hfirst]
    omega

theorem flatMap_utf8EncodeChar_lt (h : l < l') :
    l.flatMap String.utf8EncodeChar < l'.flatMap String.utf8EncodeChar := by
  induction List.lex_lt.mpr h with
  | @nil d _ =>
      rw [List.flatMap_nil, List.flatMap_cons]
      cases hbytes : String.utf8EncodeChar d with
      | nil => exact absurd hbytes (utf8EncodeChar_ne_nil d)
      | cons b bytes => exact List.nil_lt_cons ..
  | @cons c _ _ hlt ih =>
      rw [List.flatMap_cons, List.flatMap_cons]
      exact List.append_left_lt (ih (List.lex_lt.mp hlt))
  | rel hlt =>
      rw [List.flatMap_cons, List.flatMap_cons]
      exact utf8EncodeChar_lt hlt _ _

/-- Strings are ordered as their bytes are. -/
theorem asBytes_lt_asBytes : asBytes s < asBytes t ↔ s < t := by
  constructor
  · intro h
    rcases lt_trichotomy s t with hlt | rfl | hgt
    · exact hlt
    · exact absurd h (List.lt_irrefl _)
    · exact absurd h (List.lt_asymm (flatMap_utf8EncodeChar_lt (String.lt_iff_toList_lt.mp hgt)))
  · intro h
    exact flatMap_utf8EncodeChar_lt (String.lt_iff_toList_lt.mp h)

/-! ## Decoding -/

/-- `str::from_utf8`. -/
def fromUtf8 (bytes : List UInt8) : Option String := String.fromUTF8? bytes.toByteArray

theorem toByteArray_asBytes (s : String) : (asBytes s).toByteArray = s.toByteArray := by
  conv_rhs => rw [← String.ofList_toList (s := s), String.toByteArray_ofList]
  rfl

theorem toByteArray_injective : Function.Injective (List.toByteArray : List UInt8 → ByteArray) := by
  intro l l' h
  have hdata := congrArg ByteArray.data h
  simpa using hdata

/-- Bytes decode to the text whose bytes they are. -/
theorem fromUtf8_eq_some {bytes : List UInt8} : fromUtf8 bytes = some s ↔ asBytes s = bytes := by
  unfold fromUtf8 String.fromUTF8?
  constructor
  · intro h
    split at h
    · cases h
      exact toByteArray_injective (toByteArray_asBytes _)
    · cases h
  · rintro rfl
    have hvalid : (asBytes s).toByteArray.IsValidUTF8 := toByteArray_asBytes s ▸ s.isValidUTF8
    rw [dif_pos hvalid, Option.some.injEq, ← String.toByteArray_inj]
    exact toByteArray_asBytes s

end PermissionSync.Base
