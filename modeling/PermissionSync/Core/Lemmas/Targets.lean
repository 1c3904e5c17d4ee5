import PermissionSync.Base.Utf8
import PermissionSync.Core.Ports

/-!
# The target grammar

`LogicalTarget::try_from` checks the bytes of the value by their index. It accepts the strings of
`^[a-z0-9]([a-z0-9._-]{0,62}[a-z0-9])?$`.
-/

namespace PermissionSync.Core

open PermissionSync.Base

/-! ## Checks by index -/

section

variable {α β : Type} {edge inner : α → Bool} {l : List α}

/-- The checks of the length, of the first and the last element, and of those between. -/
def edgeCheck (edge inner : α → Bool) (l : List α) : Bool :=
  !l.isEmpty && l.length ≤ 64 && l.head?.any edge && l.getLast?.any edge &&
    (l.length ≤ 2 || (l.tail.dropLast).all inner)

/-- One element of the edge, or up to 62 inner elements between two of the edge. -/
inductive EdgeGrammar (edge inner : α → Bool) : List α → Prop where
  | single {c : α} : edge c = true → EdgeGrammar edge inner [c]
  | between {c d : α} {middle : List α} : edge c = true → middle.length ≤ 62 → (∀ x ∈ middle, inner x = true) →
      edge d = true → EdgeGrammar edge inner (c :: (middle ++ [d]))

theorem getLast?_between {c d : α} {middle : List α} : (c :: (middle ++ [d])).getLast? = some d := by
  rw [← List.cons_append, List.getLast?_concat]

theorem edgeCheck_iff : edgeCheck edge inner l = true ↔ EdgeGrammar edge inner l := by
  constructor
  · intro h
    simp only [edgeCheck, Bool.and_eq_true, Bool.or_eq_true, decide_eq_true_eq, List.all_eq_true] at h
    obtain ⟨⟨⟨⟨hne, hlen⟩, hfirst⟩, hlast⟩, hmiddle⟩ := h
    cases l with
    | nil => cases hne
    | cons c rest =>
        rcases List.eq_nil_or_concat rest with rfl | ⟨middle, d, rfl⟩
        · exact .single hfirst
        · rw [List.concat_eq_append] at *
          simp only [List.length_cons, List.length_append, List.length_nil] at hlen
          refine .between hfirst (by omega) (fun x hx => ?_) ?_
          · rcases hmiddle with hshort | hinner
            · simp only [List.length_cons, List.length_append, List.length_nil] at hshort
              have := List.length_pos_of_mem hx
              omega
            · exact hinner x (by simpa using hx)
          · rwa [getLast?_between] at hlast
  · intro h
    cases h with
    | single hc => simp [edgeCheck, hc]
    | between hc hlen hinner hd =>
        simp only [edgeCheck, List.isEmpty_cons, List.length_cons, List.length_append, List.length_nil]
        simp only [List.head?_cons, getLast?_between, List.tail_cons, List.dropLast_concat,
          Bool.and_eq_true, Bool.or_eq_true, decide_eq_true_eq, List.all_eq_true]
        exact ⟨⟨⟨⟨rfl, by omega⟩, hc⟩, hd⟩, Or.inr hinner⟩

theorem edgeCheck_map {f : β → α} {l : List β} :
    edgeCheck edge inner (l.map f) = edgeCheck (edge ∘ f) (inner ∘ f) l := by
  simp only [edgeCheck, List.isEmpty_map, List.length_map, List.head?_map, List.getLast?_map, Option.any_map,
    ← List.map_tail, ← List.map_dropLast, List.all_map]
  rfl

theorem EdgeGrammar.forall_mem (h : EdgeGrammar edge inner l)
    (hedge : ∀ x, edge x = true → inner x = true) : ∀ x ∈ l, inner x = true := by
  cases h with
  | single hc => simpa using hedge _ hc
  | between hc _ hinner hd => simpa [or_imp, forall_and] using ⟨hedge _ hc, hinner, hedge _ hd⟩

theorem EdgeGrammar.mono {edge' inner' : α → Bool} (h : EdgeGrammar edge inner l)
    (hedge : ∀ x ∈ l, edge x = true → edge' x = true) (hinner : ∀ x ∈ l, inner x = true → inner' x = true) :
    EdgeGrammar edge' inner' l := by
  cases h with
  | single hc => exact .single (hedge _ (by simp) hc)
  | between hc hlen hmiddle hd =>
      exact .between (hedge _ (by simp) hc) hlen
        (fun x hx => hinner x (by simp [hx]) (hmiddle x hx)) (hedge _ (by simp) hd)

end

/-! ## The checks of the source -/

def isEdgeByte (b : UInt8) : Bool := (97 ≤ b && b ≤ 122) || (48 ≤ b && b ≤ 57)

def isInnerByte (b : UInt8) : Bool := isEdgeByte b || b = 46 || b = 95 || b = 45

/-- The checks of `LogicalTarget::try_from` on the bytes. -/
def tryFromBytes (bytes : List UInt8) : Bool := edgeCheck isEdgeByte isInnerByte bytes

/-- The strings of the target grammar. -/
def TargetGrammar (value : String) : Prop := EdgeGrammar isEdgeCharacter isInnerCharacter value.toList

theorem isLogicalTarget_iff {value : String} : isLogicalTarget value = true ↔ TargetGrammar value := edgeCheck_iff

/-- The byte of an ASCII character is of the kind that the character is of. -/
theorem isEdgeByte_asciiByte {c : Char} (h : c.toNat < 128) : isEdgeByte (asciiByte c) = isEdgeCharacter c := by
  have hall : ∀ n < 128, isEdgeByte (UInt8.ofNat n) = isEdgeCharacter (Char.ofNat n) := by decide
  have hc := hall c.toNat h
  rwa [Char.ofNat_toNat] at hc

theorem isInnerByte_asciiByte {c : Char} (h : c.toNat < 128) : isInnerByte (asciiByte c) = isInnerCharacter c := by
  have hall : ∀ n < 128, isInnerByte (UInt8.ofNat n) = isInnerCharacter (Char.ofNat n) := by decide
  have hc := hall c.toNat h
  rwa [Char.ofNat_toNat] at hc

theorem lt_of_isInnerByte {b : UInt8} (h : isInnerByte b = true) : b.toNat < 128 := by
  simp only [isInnerByte, isEdgeByte, Bool.or_eq_true, Bool.and_eq_true, decide_eq_true_eq, UInt8.le_iff_toNat_le,
    UInt8.ext_iff] at h
  simp at h
  omega

theorem lt_of_isInnerCharacter {c : Char} (h : isInnerCharacter c = true) : c.toNat < 128 := by
  simp only [isInnerCharacter, isEdgeCharacter, Char.isLower, Char.isDigit, Bool.or_eq_true, Bool.and_eq_true,
    decide_eq_true_eq, ge_iff_le, UInt32.le_iff_toNat_le] at h
  rcases h with (((h | h) | rfl) | rfl) | rfl
  · exact Nat.lt_of_le_of_lt h.2 (by decide)
  · exact Nat.lt_of_le_of_lt h.2 (by decide)
  · decide
  · decide
  · decide

/-- The checks of the bytes accept what the checks of the characters accept. -/
theorem tryFromBytes_asBytes (value : String) : tryFromBytes (asBytes value) = isLogicalTarget value := by
  have hsame (hascii : ∀ c ∈ value.toList, c.toNat < 128) : tryFromBytes (asBytes value) = isLogicalTarget value := by
    rw [tryFromBytes, asBytes_of_ascii hascii, edgeCheck_map, Bool.eq_iff_iff, edgeCheck_iff, isLogicalTarget_iff]
    constructor
    · intro h
      exact h.mono (fun c hc he => isEdgeByte_asciiByte (hascii c hc) ▸ he)
        fun c hc hi => isInnerByte_asciiByte (hascii c hc) ▸ hi
    · intro h
      exact h.mono (fun c hc he => (isEdgeByte_asciiByte (hascii c hc)).trans he)
        fun c hc hi => (isInnerByte_asciiByte (hascii c hc)).trans hi
  rw [Bool.eq_iff_iff]
  constructor
  · intro h
    have hinner := (edgeCheck_iff.mp h).forall_mem fun b hb => by rw [isInnerByte, hb]; rfl
    exact hsame (ascii_of_asBytes fun b hb => lt_of_isInnerByte (hinner b hb)) ▸ h
  · intro h
    have hinner := (isLogicalTarget_iff.mp h).forall_mem fun c hc => by rw [isInnerCharacter, hc]; rfl
    exact (hsame fun c hc => lt_of_isInnerCharacter (hinner c hc)).trans h

end PermissionSync.Core
