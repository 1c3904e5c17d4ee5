import PermissionSync.Rest.Envelope
import PermissionSync.Wire.Lemmas.Access

/-!
# Which success envelopes are accepted

The documented body is one object with the members `version` and `payload`. The derived struct also reads the array of
the two values, and apart from that exactly what is documented.
-/

namespace PermissionSync.GenericRest

open PermissionSync.Base PermissionSync.Core PermissionSync.Wire

variable {i r t : List UInt8}

/-! ## The values -/

/-- The text of a version: a plain numeral that fits. -/
def VersionText (n : Nat) (t : List UInt8) : Prop := IntegerText t ∧ numeralValue t = n ∧ n < u64Bound

/-- The text of a payload, which is kept as it stands. -/
def PayloadText (s : String) (t : List UInt8) : Prop := ValueText t ∧ t = asBytes s

theorem reads_deserializeU64 : Reads deserializeU64 VersionText where
  sound {i n r} h := by
    have hvisit : ∀ {ds r'}, visitU64 ds r' = some (n, r) → r' = r ∧ numeralValue ds = n ∧ n < u64Bound := by
      intro ds r' h
      unfold visitU64 at h
      split_ifs at h with _ hbound
      cases h
      exact ⟨rfl, rfl, hbound⟩
    obtain ⟨w, hw, hi⟩ := exists_spaces i
    unfold deserializeU64 at h
    split at h
    · cases h
    · rename_i b i' hskip
      rw [hskip] at hi
      split_ifs at h with hzero hdigit
      · obtain ⟨rfl, hvalue, hbound⟩ := hvisit h
        exact ⟨w, [b], hw, by simpa using hi, hzero ▸ .zero, hvalue, hbound⟩
      · obtain ⟨rfl, hvalue, hbound⟩ := hvisit h
        refine ⟨w, b :: i'.takeWhile isDigit, hw, ?_, ?_, hvalue, hbound⟩
        · simp [hi, skipDigits]
        · exact .digits hdigit hzero fun _ hb => List.mem_takeWhile_imp hb
  complete {w v n r} hw hv hr := by
    obtain ⟨hint, rfl, hbound⟩ := hv
    have hvisit : visitU64 v r = some (numeralValue v, r) := by
      simp [visitU64, any_head_eq_false hr, hbound]
    have hvalue : ValueText v := .unsigned ⟨v, [], [], by simp, hint, .none, .none⟩
    rw [deserializeU64, skipSpaces_append hw hvalue.startsNot]
    cases hint with
    | zero => simpa using hvisit
    | digits hd hne hds =>
        simp [hne, hd, skipDigits, dropWhile_append_eq hds hr.startsNot, takeWhile_append_eq hds hr.startsNot, hvisit]

theorem reads_deserializeRawValue : Reads deserializeRawValue PayloadText where
  sound {i s r} h := by
    obtain ⟨w, hw, hi⟩ := exists_spaces i
    simp only [deserializeRawValue, Option.bind_eq_bind, Option.bind_eq_some_iff] at h
    obtain ⟨r', hvalue, raw, hraw, he⟩ := h
    cases he
    obtain ⟨t, ht, hgrammar⟩ := ignoreValue_sound hvalue
    have hbytes : asBytes s = t := by
      rw [fromUtf8_eq_some.mp hraw, ht]
      simp
    exact ⟨w, t, hw, by rw [List.append_assoc, ← ht]; exact hi, hgrammar, hbytes.symm⟩
  complete {w v s r} hw hv hr := by
    obtain ⟨hvalue, rfl⟩ := hv
    simp [deserializeRawValue, skipSpaces_append hw hvalue.startsNot, ignoreValue_complete hvalue hr,
      fromUtf8_eq_some.mpr rfl]

/-! ## The envelope -/

/-- The documented body: one object with the two members, each once, and nothing but whitespace around it. -/
def IsEnvelope (envelope : DesiredStateEnvelope) (body : List UInt8) : Prop :=
  ∃ before t after, body = before ++ 123 :: t ++ 125 :: after ∧ Spaces before ∧ Spaces after ∧
    FieldsText "version" "payload" VersionText PayloadText envelope.version envelope.payload t

/-- The array of the two values, with nothing but whitespace around it. -/
def IsSequence (envelope : DesiredStateEnvelope) (body : List UInt8) : Prop :=
  ∃ before w v w₁ w₂ w₃ after,
    body = before ++ 91 :: (w ++ (v ++ (w₁ ++ 44 :: (w₂ ++ (asBytes envelope.payload ++ (w₃ ++ 93 :: after)))))) ∧
    Spaces before ∧ Spaces after ∧ Spaces w ∧ Spaces w₁ ∧ Spaces w₂ ∧ Spaces w₃ ∧
    VersionText envelope.version v ∧ ValueText (asBytes envelope.payload)

theorem opaquePayload_eq_some {s s' : String} (hs : ValueText (asBytes s)) : opaquePayload s = some s' ↔ s = s' := by
  have hread : deserializeRawValue (asBytes s) = some (s, []) := by
    simpa using reads_deserializeRawValue.complete (w := []) (r := []) (by simp [Spaces]) ⟨hs, rfl⟩ startsNot_nil
  simp [opaquePayload, hread, skipSpaces]

theorem visitMap_envelope {version : Nat} {payload : String} :
    (∃ r', visitMap visitMember (i.length + 1) true (none, none) i = some ((some version, some payload), r') ∧
      expectByte 125 r' = some r) ↔
    ∃ t, i = t ++ 125 :: r ∧ FieldsText "version" "payload" VersionText PayloadText version payload t :=
  visitFields_eq_some (by decide) reads_deserializeU64 reads_deserializeRawValue

theorem nextElement_eq_some {first : Bool} :
    nextElement first i = some r ↔ hasNextElement first i = some (true, r) := by
  simp only [nextElement, Option.bind_eq_bind, Option.bind_eq_some_iff, Prod.exists]
  constructor
  · rintro ⟨more, r', hnext, h⟩
    split at h
    · rename_i hmore
      cases h
      rw [hnext, hmore]
    · cases h
  · intro h
    exact ⟨true, r, h, rfl⟩

/-- What the visitor of a sequence has read, with the closing bracket. -/
theorem visitSeq_envelope {envelope : ResponseEnvelope} :
    (∃ r', visitSeq i = some (envelope, r') ∧ expectByte 93 r' = some r) ↔
    ∃ w v w₁ w₂ w₃, i = w ++ (v ++ (w₁ ++ 44 :: (w₂ ++ (asBytes envelope.payload ++ (w₃ ++ 93 :: r))))) ∧
      Spaces w ∧ Spaces w₁ ∧ Spaces w₂ ∧ Spaces w₃ ∧ VersionText envelope.version v ∧
      ValueText (asBytes envelope.payload) := by
  constructor
  · rintro ⟨r', hseq, hclose⟩
    simp only [visitSeq, Option.bind_eq_bind, Option.bind_eq_some_iff, Prod.exists, nextElement_eq_some] at hseq
    obtain ⟨r₁, hfirst, version, r₂, hversion, r₃, hnext, payload, r₄, hpayload, he⟩ := hseq
    cases he
    obtain ⟨w₃, hw₃, rfl⟩ := expectByte_sound hclose
    obtain ⟨w, hw, rfl⟩ := exists_first_element hfirst
    obtain ⟨w₀, v, hw₀, rfl, hv⟩ := reads_deserializeU64.sound hversion
    obtain ⟨w₁, w₂, hw₁, hw₂, rfl⟩ := exists_next_element hnext
    obtain ⟨w₄, _, hw₄, rfl, hvalue, rfl⟩ := reads_deserializeRawValue.sound hpayload
    exact ⟨w ++ w₀, v, w₁, w₂ ++ w₄, w₃, by simp, List.forall_mem_append.mpr ⟨hw, hw₀⟩, hw₁,
      List.forall_mem_append.mpr ⟨hw₂, hw₄⟩, hw₃, hv, hvalue⟩
  · rintro ⟨w, v, w₁, w₂, w₃, rfl, hw, hw₁, hw₂, hw₃, hv, hvalue⟩
    have htext : ValueText v := .unsigned ⟨v, [], [], by simp, hv.1, .none, .none⟩
    have hfirst := hasNextElement_first hw
      (htext.beginsElement (r := w₁ ++ 44 :: (w₂ ++ (asBytes envelope.payload ++ (w₃ ++ 93 :: r)))))
    have hversion := reads_deserializeU64.complete (w := []) (by simp [Spaces]) hv (endsNumber_close
      (r := w₂ ++ (asBytes envelope.payload ++ (w₃ ++ 93 :: r))) hw₁ (by decide : continuesNumber 44 = false))
    have hnext := hasNextElement_next hw₁ hw₂ (hvalue.beginsElement (r := w₃ ++ 93 :: r))
    have hpayload := reads_deserializeRawValue.complete (w := []) (by simp [Spaces]) ⟨hvalue, rfl⟩
      (endsNumber_close (r := r) hw₃ (by decide : continuesNumber 93 = false))
    rw [List.nil_append] at hversion hpayload
    refine ⟨w₃ ++ 93 :: r, ?_, expectByte_complete hw₃ (by decide)⟩
    simp only [visitSeq, nextElement_eq_some.mpr hfirst, hversion, nextElement_eq_some.mpr hnext, hpayload,
      Option.bind_eq_bind, Option.bind_some]

/-- An envelope is decoded from an object of the two members or from an array of their values. -/
theorem deserializeEnvelope_eq_some {body : List UInt8} {envelope : ResponseEnvelope} :
    deserializeEnvelope body = some (envelope, r) ↔
      (∃ before t, body = before ++ 123 :: (t ++ 125 :: r) ∧ Spaces before ∧
        FieldsText "version" "payload" VersionText PayloadText envelope.version envelope.payload t) ∨
      ∃ before w v w₁ w₂ w₃,
        body = before ++ 91 :: (w ++ (v ++ (w₁ ++ 44 :: (w₂ ++ (asBytes envelope.payload ++ (w₃ ++ 93 :: r)))))) ∧
        Spaces before ∧ Spaces w ∧ Spaces w₁ ∧ Spaces w₂ ∧ Spaces w₃ ∧
        VersionText envelope.version v ∧ ValueText (asBytes envelope.payload) := by
  constructor
  · intro h
    obtain ⟨before, hbefore, hi⟩ := exists_spaces body
    unfold deserializeEnvelope at h
    split at h
    · cases h
    · rename_i b i hskip
      rw [hskip] at hi
      split_ifs at h with hbracket hbrace
      · simp only [Option.bind_eq_bind, Option.bind_eq_some_iff, Prod.exists] at h
        obtain ⟨envelope', r₁, hseq, r₂, hclose, he⟩ := h
        cases he
        obtain ⟨w, v, w₁, w₂, w₃, rfl, hrest⟩ := visitSeq_envelope.mp ⟨r₁, hseq, hclose⟩
        exact Or.inr ⟨before, w, v, w₁, w₂, w₃, by rw [hi, hbracket], hbefore, hrest⟩
      · simp only [Option.bind_eq_bind, Option.bind_eq_some_iff, Prod.exists] at h
        obtain ⟨_, _, r₁, hmap, version, rfl, payload, rfl, r₂, hclose, he⟩ := h
        cases he
        obtain ⟨t, rfl, hfields⟩ := visitMap_envelope.mp ⟨r₁, hmap, hclose⟩
        exact Or.inl ⟨before, t, by rw [hi, hbrace], hbefore, hfields⟩
  · rintro (⟨before, t, rfl, hbefore, hfields⟩ | ⟨before, w, v, w₁, w₂, w₃, rfl, hbefore, hrest⟩)
    · obtain ⟨r', hmap, hclose⟩ := visitMap_envelope (r := r).mpr ⟨t, rfl, hfields⟩
      have hskip : skipSpaces (before ++ 123 :: (t ++ 125 :: r)) = 123 :: (t ++ 125 :: r) :=
        skipSpaces_append hbefore (startsNot_cons.mpr (by decide))
      rw [deserializeEnvelope, hskip]
      simp only [Option.bind_eq_bind, hmap, Option.bind_some, hclose]
      rfl
    · obtain ⟨r', hseq, hclose⟩ := visitSeq_envelope (r := r).mpr ⟨w, v, w₁, w₂, w₃, rfl, hrest⟩
      have hskip := skipSpaces_append hbefore (startsNot_cons.mpr (by decide) : StartsNot isJsonWhitespace
        (91 :: (w ++ (v ++ (w₁ ++ 44 :: (w₂ ++ (asBytes envelope.payload ++ (w₃ ++ 93 :: r))))))))
      rw [deserializeEnvelope, hskip]
      simp only [Option.bind_eq_bind, hseq, Option.bind_some, hclose]
      rfl

theorem parseSuccessEnvelope_eq_ok {body : List UInt8} {envelope : DesiredStateEnvelope} :
    parseSuccessEnvelope body = .ok envelope ↔ IsEnvelope envelope body ∨ IsSequence envelope body := by
  simp only [parseSuccessEnvelope, bind_eq_ok, okOr_eq_ok, ensure_eq_ok, skipSpaces_eq_nil, Prod.exists]
  constructor
  · rintro ⟨decoded, after, hdecoded, _, hafter, payload, hpayload, he⟩
    cases he
    rcases deserializeEnvelope_eq_some.mp hdecoded with ⟨before, t, rfl, hbefore, hfields⟩ |
      ⟨before, w, v, w₁, w₂, w₃, rfl, hbefore, hw, hw₁, hw₂, hw₃, hversion, hvalue⟩
    · obtain ⟨_, _, hvalue, rfl⟩ := hfields.values
      cases (opaquePayload_eq_some hvalue).mp hpayload
      exact Or.inl ⟨before, t, after, by simp, hbefore, hafter, hfields⟩
    · cases (opaquePayload_eq_some hvalue).mp hpayload
      exact Or.inr ⟨before, w, v, w₁, w₂, w₃, after, rfl, hbefore, hafter, hw, hw₁, hw₂, hw₃, hversion, hvalue⟩
  · rintro (⟨before, t, after, rfl, hbefore, hafter, hfields⟩ |
      ⟨before, w, v, w₁, w₂, w₃, after, rfl, hbefore, hafter, hw, hw₁, hw₂, hw₃, hversion, hvalue⟩)
    · obtain ⟨_, _, hvalue, rfl⟩ := hfields.values
      refine ⟨⟨envelope.version, envelope.payload⟩, after, ?_, (), hafter, envelope.payload,
        (opaquePayload_eq_some hvalue).mpr rfl, rfl⟩
      exact deserializeEnvelope_eq_some.mpr (Or.inl ⟨before, t, by simp, hbefore, hfields⟩)
    · refine ⟨⟨envelope.version, envelope.payload⟩, after, ?_, (), hafter, envelope.payload,
        (opaquePayload_eq_some hvalue).mpr rfl, rfl⟩
      exact deserializeEnvelope_eq_some.mpr
        (Or.inr ⟨before, w, v, w₁, w₂, w₃, rfl, hbefore, hw, hw₁, hw₂, hw₃, hversion, hvalue⟩)

theorem parseSuccessEnvelope_eq_error {body : List UInt8} (h : ∀ envelope, parseSuccessEnvelope body ≠ .ok envelope) :
    parseSuccessEnvelope body = .error .responseEnvelope := by
  cases hr : parseSuccessEnvelope body with
  | ok envelope => exact absurd hr (h envelope)
  | error e =>
      simp only [parseSuccessEnvelope, bind_eq_error, okOr_eq_error, ensure_eq_error] at hr
      rcases hr with ⟨_, rfl⟩ | ⟨_, _, ⟨_, rfl⟩ | ⟨_, _, ⟨_, rfl⟩ | ⟨_, _, he⟩⟩⟩
      · rfl
      · rfl
      · rfl
      · cases he

/-- The body is accepted exactly when it is the documented object, with the version and the text of the payload as they
stand there, and refused otherwise. -/
structure ReadAsDocumented (body : List UInt8) : Prop where
  accepts : ∀ envelope, parseSuccessEnvelope body = .ok envelope ↔ IsEnvelope envelope body
  rejects : (¬ ∃ envelope, IsEnvelope envelope body) → parseSuccessEnvelope body = .error .responseEnvelope

/-- What stands first tells an object from an array. -/
theorem not_isEnvelope_of_isSequence {body : List UInt8} {envelope envelope' : DesiredStateEnvelope}
    (h : IsSequence envelope body) : ¬ IsEnvelope envelope' body := by
  rintro ⟨before, t, after, hbody, hbefore, _⟩
  obtain ⟨before', w, v, w₁, w₂, w₃, after', rfl, hbefore', _⟩ := h
  have hskip := congrArg skipSpaces hbody
  rw [List.append_assoc, List.cons_append, skipSpaces_append hbefore (startsNot_cons.mpr (by decide)),
    skipSpaces_append hbefore' (startsNot_cons.mpr (by decide))] at hskip
  cases hskip

/-- Exactly the arrays of the two values are not read as documented. -/
theorem parseSuccessEnvelope_accepts {body : List UInt8} :
    ReadAsDocumented body ↔ ¬ ∃ envelope, IsSequence envelope body := by
  constructor
  · rintro h ⟨envelope, hsequence⟩
    exact not_isEnvelope_of_isSequence hsequence
      ((h.accepts envelope).mp (parseSuccessEnvelope_eq_ok.mpr (Or.inr hsequence)))
  · intro h
    have haccepts : ∀ envelope, parseSuccessEnvelope body = .ok envelope ↔ IsEnvelope envelope body := by
      intro envelope
      exact parseSuccessEnvelope_eq_ok.trans (or_iff_left fun hsequence => h ⟨envelope, hsequence⟩)
    refine ⟨haccepts, fun hno => parseSuccessEnvelope_eq_error fun envelope hok => ?_⟩
    exact hno ⟨envelope, (haccepts envelope).mp hok⟩

/-- The bytes of an object with the payload `null` before the version `7`. -/
def sevenEnvelope : List UInt8 :=
  [123, 34, 112, 97, 121, 108, 111, 97, 100, 34, 58, 110, 117, 108, 108, 44,
    34, 118, 101, 114, 115, 105, 111, 110, 34, 58, 55, 125]

theorem sevenEnvelope_accepted : IsEnvelope ⟨7, "null"⟩ sevenEnvelope := by
  have hobject : ¬ ∃ envelope, IsSequence envelope sevenEnvelope := by
    rintro ⟨envelope, before, w, v, w₁, w₂, w₃, after, hbytes, _⟩
    have hbracket : (91 : UInt8) ∈ sevenEnvelope := by
      rw [hbytes]
      simp
    exact absurd hbracket (by decide)
  exact ((parseSuccessEnvelope_accepts.mpr hobject).accepts _).mp (by decide +kernel)

/-- The array of the two values is accepted too. -/
theorem parseSuccessEnvelope_accepts_sequence :
    parseSuccessEnvelope [91, 49, 44, 50, 93] = .ok ⟨1, "2"⟩ ∧
      ¬ ∃ envelope, IsEnvelope envelope [91, 49, 44, 50, 93] := by
  refine ⟨by decide +kernel, fun h => ?_⟩
  obtain ⟨envelope, before, t, after, hbytes, _⟩ := h
  have hbrace : (123 : UInt8) ∈ ([91, 49, 44, 50, 93] : List UInt8) := by
    rw [hbytes]
    simp
  exact absurd hbrace (by decide)

end PermissionSync.GenericRest
