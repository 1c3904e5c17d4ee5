import PermissionSync.Wire.Lexical

/-!
# The readers take exactly the texts of the grammar
-/

namespace PermissionSync.Wire

open PermissionSync.Base

variable {i r t w : List UInt8} {b : UInt8}

/-! ## Whitespace and digits -/

theorem exists_spaces (i : List UInt8) : ∃ w, Spaces w ∧ i = w ++ skipSpaces i := exists_skipped _ i

theorem skipSpaces_append (hw : Spaces w) (hr : StartsNot isJsonWhitespace r) : skipSpaces (w ++ r) = r :=
  dropWhile_append_eq hw hr

theorem someDigits_sound (h : someDigits i = some r) : ∃ d ds, i = d :: ds ++ r ∧ isDigit d = true ∧ Digits ds := by
  cases i with
  | nil => cases h
  | cons d i =>
      simp only [someDigits] at h
      split at h
      · rename_i hd
        cases h
        obtain ⟨ds, hds, hi⟩ := exists_skipped isDigit i
        exact ⟨d, ds, congrArg (d :: ·) hi, hd, hds⟩
      · cases h

theorem someDigits_complete {d : UInt8} {ds : List UInt8} (hd : isDigit d = true) (hds : Digits ds)
    (hr : StartsNot isDigit r) : someDigits (d :: ds ++ r) = some r := by
  simp [someDigits, hd, skipDigits, dropWhile_append_eq hds hr]

/-! ## Numbers -/

/-- What may follow a number. -/
abbrev EndsNumber (r : List UInt8) : Prop := StartsNot continuesNumber r

theorem EndsNumber.startsNot (h : EndsNumber r) : StartsNot isDigit r := by
  intro b hb
  have := h b hb
  simp only [continuesNumber, Bool.or_eq_false_iff] at this
  exact this.1.1.1

theorem ignoreExponent_sound (h : ignoreExponent i = some r) : ∃ t, i = t ++ r ∧ ExponentText t := by
  cases i with
  | nil =>
      cases h
      exact ⟨[], rfl, .none⟩
  | cons e i =>
      simp only [ignoreExponent] at h
      split at h
      · rename_i he
        cases i with
        | nil => cases h
        | cons s i =>
            simp only at h
            split at h
            · rename_i hs
              obtain ⟨d, ds, rfl, hd, hds⟩ := someDigits_sound h
              exact ⟨e :: [s] ++ d :: ds, by simp, .digits he (by simpa using hs) hd hds⟩
            · obtain ⟨d, ds, hi, hd, hds⟩ := someDigits_sound h
              exact ⟨e :: [] ++ d :: ds, by simpa using hi, .digits he (Or.inl rfl) hd hds⟩
      · cases h
        exact ⟨[], rfl, .none⟩

theorem ne_sign_of_isDigit (h : isDigit b = true) : ¬ (b = 43 ∨ b = 45) := by
  rintro (rfl | rfl) <;> exact absurd h (by decide)

theorem ignoreExponent_complete (ht : ExponentText t) (hr : EndsNumber r) : ignoreExponent (t ++ r) = some r := by
  cases ht with
  | none =>
      cases r with
      | nil => rfl
      | cons b r =>
          have hb := startsNot_cons.mp hr
          simp only [continuesNumber, Bool.or_eq_false_iff, beq_eq_false_iff_ne] at hb
          simp [ignoreExponent, hb.1.2, hb.2]
  | digits he hsign hd hds =>
      have hrest := someDigits_complete hd hds hr.startsNot
      rcases hsign with rfl | rfl | rfl
      · simpa [ignoreExponent, he, ne_sign_of_isDigit hd] using hrest
      · simpa [ignoreExponent, he] using hrest
      · simpa [ignoreExponent, he] using hrest

theorem ignoreDecimal_sound (h : ignoreDecimal i = some r) :
    ∃ frac exp, i = frac ++ exp ++ r ∧ FractionText frac ∧ ExponentText exp := by
  cases i with
  | nil =>
      cases h
      exact ⟨[], [], rfl, .none, .none⟩
  | cons b i =>
      simp only [ignoreDecimal] at h
      split at h
      · rename_i hb
        obtain ⟨r₁, hdigits, hexp⟩ := Option.bind_eq_some_iff.mp h
        obtain ⟨d, ds, rfl, hd, hds⟩ := someDigits_sound hdigits
        obtain ⟨exp, rfl, htext⟩ := ignoreExponent_sound hexp
        exact ⟨46 :: d :: ds, exp, by simp [hb], .digits hd hds, htext⟩
      · obtain ⟨exp, hi, hexp⟩ := ignoreExponent_sound h
        exact ⟨[], exp, by simpa using hi, .none, hexp⟩

/-- What may follow the digits of a fraction. -/
theorem startsNot_exponent (ht : ExponentText t) (hr : EndsNumber r) : StartsNot isDigit (t ++ r) := by
  cases ht with
  | none => exact hr.startsNot
  | digits he => rcases he with rfl | rfl <;> simp [isDigit]

theorem startsNot_fraction {exp : List UInt8} (ht : FractionText t) (hexp : ExponentText exp) (hr : EndsNumber r) :
    StartsNot isDigit (t ++ exp ++ r) := by
  cases ht with
  | none => exact startsNot_exponent hexp hr
  | digits => simp [isDigit]

theorem ignoreDecimal_complete {exp : List UInt8} (ht : FractionText t) (hexp : ExponentText exp) (hr : EndsNumber r) :
    ignoreDecimal (t ++ exp ++ r) = some r := by
  have hexponent := ignoreExponent_complete hexp hr
  cases ht with
  | none =>
      cases exp with
      | nil =>
          cases r with
          | nil => rfl
          | cons b r =>
              have hb := startsNot_cons.mp hr
              simp only [continuesNumber, Bool.or_eq_false_iff, beq_eq_false_iff_ne] at hb
              simpa [ignoreDecimal, hb.1.1.2] using hexponent
      | cons e exp =>
          have he : e ≠ 46 := by
            cases hexp with
            | digits he => rcases he with rfl | rfl <;> decide
          simpa [ignoreDecimal, he] using hexponent
  | digits hd hds =>
      rename_i d ds
      have hdigits : someDigits (d :: (ds ++ (exp ++ r))) = some (exp ++ r) :=
        someDigits_complete hd hds (startsNot_exponent hexp hr)
      simpa [ignoreDecimal, hdigits] using hexponent

theorem ignoreInteger_sound (h : ignoreInteger i = some r) : ∃ t, i = t ++ r ∧ UnsignedText t := by
  cases i with
  | nil => cases h
  | cons b i =>
      simp only [ignoreInteger] at h
      split at h
      · rename_i hb
        split at h
        · cases h
        · obtain ⟨frac, exp, rfl, hfrac, hexp⟩ := ignoreDecimal_sound h
          exact ⟨[48] ++ frac ++ exp, by simp [hb], _, frac, exp, rfl, .zero, hfrac, hexp⟩
      · rename_i hb
        split at h
        · rename_i hdigit
          obtain ⟨ds, hds, hi⟩ := exists_skipped isDigit i
          obtain ⟨frac, exp, hrest, hfrac, hexp⟩ := ignoreDecimal_sound h
          refine ⟨(b :: ds) ++ frac ++ exp, ?_, _, frac, exp, rfl, .digits hdigit hb hds, hfrac, hexp⟩
          rw [hi]
          simp [skipDigits] at hrest ⊢
          exact hrest
        · cases h

theorem ignoreInteger_complete (ht : UnsignedText t) (hr : EndsNumber r) : ignoreInteger (t ++ r) = some r := by
  obtain ⟨int, frac, exp, rfl, hint, hfrac, hexp⟩ := ht
  have hdecimal := ignoreDecimal_complete hfrac hexp hr
  have hstart := startsNot_fraction hfrac hexp hr
  rw [List.append_assoc, List.append_assoc, ← List.append_assoc frac]
  generalize frac ++ exp ++ r = rest at hdecimal hstart ⊢
  cases hint with
  | zero => simpa [ignoreInteger, any_head_eq_false hstart] using hdecimal
  | digits hd hne hds =>
      simpa [ignoreInteger, hd, hne, skipDigits, dropWhile_append_eq hds hstart] using hdecimal

/-! ## Strings -/

section Strings

variable {d : List UInt8} {n : Nat}

theorem decodeHexEscape_sound (h : decodeHexEscape i = some (n, r)) : ∃ t, i = t ++ r ∧ hexValue t = some n := by
  obtain ⟨m, hm, he⟩ := Option.map_eq_some_iff.mp h
  cases he
  exact ⟨i.take 4, (List.take_append_drop 4 i).symm, hm⟩

theorem decodeHexEscape_complete (h : hexValue t = some n) : decodeHexEscape (t ++ r) = some (n, r) := by
  have hlen : t.length = 4 := by
    by_contra hne
    rw [hexValue, if_neg hne] at h
    cases h
  rw [decodeHexEscape, List.take_left' hlen, List.drop_left' hlen, h, Option.map_some]

theorem parseUnicodeEscape_sound (h : parseUnicodeEscape i = some (d, r)) :
    ∃ t, i = t ++ r ∧ StringUnit (92 :: 117 :: t) d := by
  simp only [parseUnicodeEscape, Option.bind_eq_bind, Option.bind_eq_some_iff, Prod.exists] at h
  obtain ⟨n, r₁, hhex, h⟩ := h
  obtain ⟨t, rfl, ht⟩ := decodeHexEscape_sound hhex
  split at h
  · cases h
  · rename_i htrailing
    split at h
    · rename_i hscalar
      simp only [Option.some.injEq, Prod.mk.injEq] at h
      obtain ⟨rfl, rfl⟩ := h
      exact ⟨t, rfl, .unicode ht (by omega)⟩
    · rename_i hleading
      unfold trailingSurrogate at h
      split at h
      · simp only [Option.bind_eq_bind, Option.bind_eq_some_iff, Prod.exists] at h
        obtain ⟨m, r₂, hhex', h⟩ := h
        obtain ⟨t', rfl, ht'⟩ := decodeHexEscape_sound hhex'
        split at h
        · rename_i hm
          simp only [Option.some.injEq, Prod.mk.injEq] at h
          obtain ⟨rfl, rfl⟩ := h
          exact ⟨t ++ 92 :: 117 :: t', by simp, .pair ht (by omega) ht' hm⟩
        · cases h
      · cases h

theorem ne_of_shortEscape {c : UInt8} (h : shortEscape b = some c) : b ≠ 117 := by
  rintro rfl
  simp [shortEscape] at h

theorem parseUnicodeEscape_complete (h : StringUnit (92 :: 117 :: t) d) :
    parseUnicodeEscape (t ++ r) = some (d, r) := by
  cases h with
  | short h => exact absurd rfl (ne_of_shortEscape h)
  | unicode ht hn =>
      rename_i n
      have htrailing : ¬ (0xDC00 ≤ n ∧ n ≤ 0xDFFF) := by omega
      have hscalar : n < 0xD800 ∨ 0xDBFF < n := by omega
      simp [parseUnicodeEscape, decodeHexEscape_complete ht, htrailing, hscalar]
  | pair ht hn ht' hm =>
      rename_i t t' n m
      have htrailing : ¬ (0xDC00 ≤ n ∧ n ≤ 0xDFFF) := by omega
      have hleading : ¬ (n < 0xD800 ∨ 0xDBFF < n) := by omega
      rw [List.append_assoc]
      simp only [parseUnicodeEscape, decodeHexEscape_complete ht, Option.bind_eq_bind,
        Option.bind_some, if_neg htrailing, if_neg hleading]
      simp [trailingSurrogate, decodeHexEscape_complete ht', hm]

theorem StringUnit.head (h : StringUnit t d) : ∃ b t', t = b :: t' ∧ b ≠ 34 := by
  cases h with
  | plain hquote => exact ⟨_, _, rfl, hquote⟩
  | _ => exact ⟨_, _, rfl, by decide⟩

theorem RawUnit.head (h : RawUnit t d) : ∃ b t', t = b :: t' ∧ b ≠ 34 := by
  cases h with
  | plain hquote => exact ⟨_, _, rfl, hquote⟩
  | _ => exact ⟨_, _, rfl, by decide⟩

theorem stringUnit_sound (hb : b ≠ 34) (h : stringUnit true parseEscape (b :: i) = some (d, r)) :
    ∃ t, b :: i = t ++ r ∧ StringUnit t d := by
  simp only [stringUnit] at h
  split at h
  · rename_i hescape
    subst hescape
    cases i with
    | nil => cases h
    | cons e i =>
        simp only [parseEscape] at h
        split at h
        · rename_i he
          obtain ⟨t, rfl, ht⟩ := parseUnicodeEscape_sound h
          exact ⟨92 :: 117 :: t, by simp [he], ht⟩
        · obtain ⟨c, hc, he⟩ := Option.map_eq_some_iff.mp h
          cases he
          exact ⟨[92, e], rfl, .short hc⟩
  · rename_i hescape
    split at h
    · cases h
    · rename_i hcontrol
      cases h
      exact ⟨[b], rfl, .plain hb hescape (UInt8.not_lt.mp hcontrol)⟩

theorem stringUnit_complete (h : StringUnit t d) : stringUnit true parseEscape (t ++ r) = some (d, r) := by
  cases h with
  | plain hquote hescape hcontrol => simp [stringUnit, hescape, UInt8.not_lt.mpr hcontrol]
  | short hc =>
      simp [stringUnit, parseEscape, ne_of_shortEscape hc, hc]
  | unicode ht hn => exact parseUnicodeEscape_complete (.unicode ht hn)
  | pair ht hn ht' hm => exact parseUnicodeEscape_complete (.pair ht hn ht' hm)

theorem rawUnit_sound (hb : b ≠ 34) (h : stringUnit false ignoreEscape (b :: i) = some (d, r)) :
    ∃ t, b :: i = t ++ r ∧ RawUnit t d := by
  simp only [stringUnit] at h
  split at h
  · rename_i hescape
    subst hescape
    cases i with
    | nil => cases h
    | cons e i =>
        simp only [ignoreEscape] at h
        split at h
        · rename_i he
          obtain ⟨⟨n, r'⟩, hhex, hr⟩ := Option.map_eq_some_iff.mp h
          cases hr
          obtain ⟨t, rfl, ht⟩ := decodeHexEscape_sound hhex
          exact ⟨92 :: 117 :: t, by simp [he], .unicode ht⟩
        · obtain ⟨c, hc, he⟩ := Option.map_eq_some_iff.mp h
          cases he
          exact ⟨[92, e], rfl, .short hc⟩
  · rename_i hescape
    split at h
    · cases h
    · rename_i hcontrol
      cases h
      exact ⟨[b], rfl, .plain hb hescape (UInt8.not_lt.mp hcontrol)⟩

theorem rawUnit_complete (h : RawUnit t d) : stringUnit false ignoreEscape (t ++ r) = some (d, r) := by
  cases h with
  | plain hquote hescape hcontrol => simp [stringUnit, hescape, UInt8.not_lt.mpr hcontrol]
  | short hc =>
      simp [stringUnit, ignoreEscape, ne_of_shortEscape hc, hc]
  | unicode ht => simp [stringUnit, ignoreEscape, decodeHexEscape_complete ht]

theorem parseStr_eq_some : parseStr i = some (d, r) ↔ ∃ t, i = t ++ 34 :: r ∧ Units StringUnit t d := by
  constructor
  · exact readUnits_sound stringUnit_sound
  · intro h
    obtain ⟨t, rfl, ht⟩ := h
    exact readUnits_complete stringUnit_complete StringUnit.head ht (by simp)

theorem ignoreStr_eq_some : ignoreStr i = some r ↔ ∃ t d, i = t ++ 34 :: r ∧ Units RawUnit t d := by
  constructor
  · intro h
    obtain ⟨⟨d, r'⟩, hread, hr⟩ := Option.map_eq_some_iff.mp h
    cases hr
    obtain ⟨t, rfl, ht⟩ := readUnits_sound rawUnit_sound hread
    exact ⟨t, d, rfl, ht⟩
  · intro h
    obtain ⟨t, d, rfl, ht⟩ := h
    rw [ignoreStr, readUnits_complete rawUnit_complete RawUnit.head ht (by simp), Option.map_some]

end Strings

end PermissionSync.Wire
