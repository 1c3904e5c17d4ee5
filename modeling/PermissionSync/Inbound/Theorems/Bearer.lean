import PermissionSync.Inbound.Handler

/-!
# Bearer credentials

The credential is the token after `bearer` in the only `Authorization` field, byte for byte.
-/

namespace PermissionSync.Inbound

open PermissionSync.Base

variable {headers headers' : List HeaderField} {bytes lower value credential : List UInt8} {c : String}

/-! ## The grammar -/

/-- The bytes are these lowercase letters, each in one of its cases. -/
def AnyCase (bytes lower : List UInt8) : Prop := List.Forall₂ (fun b l => b = l ∨ b + 32 = l) bytes lower

/-- `ALPHA / DIGIT / "-" / "." / "_" / "~" / "+" / "/"`. -/
def TokenCharacter (b : UInt8) : Prop :=
  (0x41 ≤ b ∧ b ≤ 0x5a) ∨ (0x61 ≤ b ∧ b ≤ 0x7a) ∨ (0x30 ≤ b ∧ b ≤ 0x39) ∨
    b = 0x2d ∨ b = 0x2e ∨ b = 0x5f ∨ b = 0x7e ∨ b = 0x2b ∨ b = 0x2f

/-- One or more characters, then padding. -/
def B64Token (bytes : List UInt8) : Prop :=
  ∃ characters padding, bytes = characters ++ List.replicate padding 0x3d ∧ characters ≠ [] ∧
    ∀ b ∈ characters, TokenCharacter b

/-- The value is the scheme, spaces, and the credential. -/
def Credential (value credential : List UInt8) : Prop :=
  ∃ scheme spaces, value = scheme ++ List.replicate (spaces + 1) 0x20 ++ credential ∧ AnyCase scheme bearerScheme ∧
    B64Token credential

/-- The value is that of the only `Authorization` field. -/
def OnlyAuthorization (headers : List HeaderField) (value : List UInt8) : Prop :=
  ∃ front field back, headers = front ++ field :: back ∧ AnyCase field.name authorizationName ∧ field.value = value ∧
    ∀ other ∈ front ++ back, ¬ AnyCase other.name authorizationName

theorem toAsciiLowercase_eq {b l : UInt8} (h : 97 ≤ l ∧ l ≤ 122) : toAsciiLowercase b = l ↔ b = l ∨ b + 32 = l := by
  have hb := b.toNat_lt
  unfold toAsciiLowercase
  simp only [UInt8.le_iff_toNat_le, UInt8.ext_iff, UInt8.reduceToNat] at h ⊢
  split_ifs <;> simp only [UInt8.toNat_add, UInt8.reduceToNat] <;> omega

theorem eqIgnoreAsciiCase_iff (h : ∀ l ∈ lower, 97 ≤ l ∧ l ≤ 122) :
    eqIgnoreAsciiCase bytes lower = true ↔ AnyCase bytes lower := by
  rw [eqIgnoreAsciiCase, beq_iff_eq]
  induction lower generalizing bytes with
  | nil => simp [AnyCase]
  | cons l lower ih =>
      obtain ⟨hl, hlower⟩ := List.forall_mem_cons.mp h
      cases bytes with
      | nil => simp [AnyCase]
      | cons b bytes =>
          have hsame : toAsciiLowercase l = l := (toAsciiLowercase_eq hl).mpr (Or.inl rfl)
          simp only [List.map_cons, List.cons.injEq, hsame, toAsciiLowercase_eq hl, ih hlower,
            AnyCase, List.forall₂_cons]

theorem anyCase_authorization : eqIgnoreAsciiCase bytes authorizationName = true ↔ AnyCase bytes authorizationName :=
  eqIgnoreAsciiCase_iff (by simp [authorizationName])

theorem anyCase_bearer : eqIgnoreAsciiCase bytes bearerScheme = true ↔ AnyCase bytes bearerScheme :=
  eqIgnoreAsciiCase_iff (by simp [bearerScheme])

theorem isB64TokenNonPaddingCharacter_iff {b : UInt8} : isB64TokenNonPaddingCharacter b = true ↔ TokenCharacter b := by
  simp only [isB64TokenNonPaddingCharacter, TokenCharacter, Bool.or_eq_true, Bool.and_eq_true,
    decide_eq_true_eq, or_assoc]

theorem tokenCharacter_ascii {b : UInt8} (h : TokenCharacter b) : b.toNat < 128 ∧ b ≠ 32 ∧ b ≠ 61 := by
  simp only [TokenCharacter, UInt8.le_iff_toNat_le, UInt8.ext_iff, UInt8.reduceToNat, ne_eq] at h ⊢
  omega

/-- The leading run of a byte is a repetition of it. -/
theorem takeWhile_eq_replicate (x : UInt8) (l : List UInt8) :
    l.takeWhile (· = x) = List.replicate (l.takeWhile (· = x)).length x := by
  refine List.eq_replicate_of_mem fun b hb => ?_
  simpa using List.mem_takeWhile_imp hb

theorem isB64Token_iff : isB64Token credential = true ↔ B64Token credential := by
  simp only [isB64Token, Bool.and_eq_true, Bool.not_eq_true', List.isEmpty_eq_false_iff, List.all_eq_true,
    isB64TokenNonPaddingCharacter_iff, decide_eq_true_eq]
  constructor
  · rintro ⟨⟨hne, hcharacters⟩, hpadding⟩
    refine ⟨_, (credential.dropWhile (· ≠ 61)).length, ?_, hne, hcharacters⟩
    rw [← List.eq_replicate_of_mem hpadding, List.takeWhile_append_dropWhile]
  · rintro ⟨characters, padding, rfl, hne, hcharacters⟩
    have hother : ∀ b ∈ characters, decide (b ≠ 61) = true := fun b hb => by
      simpa using (tokenCharacter_ascii (hcharacters b hb)).2.2
    rw [List.takeWhile_append_of_pos hother, List.dropWhile_append_of_pos hother]
    cases padding with
    | zero => simpa using ⟨hne, hcharacters⟩
    | succ padding => simpa [List.replicate_succ] using ⟨hne, hcharacters⟩

theorem B64Token.ascii (h : B64Token credential) : ∀ b ∈ credential, b.toNat < 128 ∧ b ≠ 32 := by
  obtain ⟨characters, padding, rfl, _, hcharacters⟩ := h
  intro b hb
  rcases List.mem_append.mp hb with hb | hb
  · exact ⟨(tokenCharacter_ascii (hcharacters b hb)).1, (tokenCharacter_ascii (hcharacters b hb)).2.1⟩
  · rw [List.eq_of_mem_replicate hb]
    decide

theorem B64Token.ne_nil (h : B64Token credential) : credential ≠ [] := by
  obtain ⟨characters, padding, rfl, hne, _⟩ := h
  simp [hne]

/-! ## The fields -/

theorem authorization_eq_some : authorization headers = some value ↔ OnlyAuthorization headers value := by
  have hsingle : authorization headers = some value ↔ ∃ field : HeaderField, field.value = value ∧
      headers.filter (fun field => eqIgnoreAsciiCase field.name authorizationName) = [field] := by
    unfold authorization
    split
    · rename_i field heq
      simp [heq, eq_comm]
    · rename_i hno
      simp only [reduceCtorEq, false_iff]
      rintro ⟨field, _, heq⟩
      exact hno field heq
  simp only [hsingle, List.filter_eq_cons_iff, List.filter_eq_nil_iff, anyCase_authorization]
  constructor
  · rintro ⟨field, rfl, front, back, rfl, hfront, hname, hback⟩
    exact ⟨front, field, back, rfl, hname, rfl, List.forall_mem_append.mpr ⟨hfront, hback⟩⟩
  · rintro ⟨front, field, back, rfl, hname, rfl, hothers⟩
    obtain ⟨hfront, hback⟩ := List.forall_mem_append.mp hothers
    exact ⟨field, rfl, front, back, rfl, hfront, hname, hback⟩

theorem AnyCase.length_eq (h : AnyCase bytes lower) : bytes.length = lower.length := List.Forall₂.length_eq h

/-- The part of the value after the scheme and the spaces. -/
theorem credential_iff : Credential value credential ↔
    bearerScheme.length < value.length ∧ AnyCase (value.take bearerScheme.length) bearerScheme ∧
      (value.drop bearerScheme.length).dropWhile (· = 32) = credential ∧ credential ≠ value.drop bearerScheme.length ∧
      B64Token credential := by
  constructor
  · rintro ⟨scheme, spaces, rfl, hscheme, htoken⟩
    have hlength := hscheme.length_eq
    have hspaces : ∀ b ∈ List.replicate (spaces + 1) (0x20 : UInt8), decide (b = 32) = true := fun b hb => by
      simpa using List.eq_of_mem_replicate hb
    have hcredential : credential.dropWhile (· = 32) = credential := by
      rw [List.dropWhile_eq_self_iff]
      intro hpos
      simpa using (htoken.ascii _ (List.getElem_mem hpos)).2
    rw [List.append_assoc, ← hlength, List.take_left, List.drop_left, List.dropWhile_append_of_pos hspaces, hcredential]
    refine ⟨?_, hscheme, rfl, fun heq => ?_, htoken⟩
    · simp only [List.length_append, List.length_replicate]
      omega
    · have := congrArg List.length heq
      simp at this
  · rintro ⟨_, hscheme, rfl, hne, htoken⟩
    have hruns := List.takeWhile_append_dropWhile (p := (· = (32 : UInt8))) (l := value.drop bearerScheme.length)
    obtain ⟨spaces, hspaces⟩ :
      ∃ spaces, (value.drop bearerScheme.length).takeWhile (· = 32) = List.replicate (spaces + 1) 32 := by
      have hrun := takeWhile_eq_replicate 32 (value.drop bearerScheme.length)
      cases hcount : ((value.drop bearerScheme.length).takeWhile (· = 32)).length with
      | zero =>
          rw [List.length_eq_zero_iff.mp hcount, List.nil_append] at hruns
          exact absurd hruns hne
      | succ spaces => exact ⟨spaces, hcount ▸ hrun⟩
    refine ⟨value.take bearerScheme.length, spaces, ?_, hscheme, htoken⟩
    rw [← hspaces, List.append_assoc, hruns, List.take_append_drop]

/-! ## The loops -/

theorem authorizationFields_some (fields : List HeaderField) (value : List UInt8) :
    Scan.authorizationFields fields (some value) =
      if fields.filter (fun field => eqIgnoreAsciiCase field.name authorizationName) = []
        then some (some value) else none := by
  induction fields with
  | nil => rfl
  | cons field fields ih =>
      rw [Scan.authorizationFields]
      by_cases hname : eqIgnoreAsciiCase field.name authorizationName = true
      · simp [hname]
      · rw [if_neg hname, List.filter_cons, if_neg hname, ih]

/-- The loop and the check of its result find the value of the only field. -/
theorem authorizationFields_eq (headers : List HeaderField) :
    (Scan.authorizationFields headers none).bind id = authorization headers := by
  induction headers with
  | nil => rfl
  | cons field fields ih =>
      rw [Scan.authorizationFields]
      by_cases hname : eqIgnoreAsciiCase field.name authorizationName = true
      · rw [if_pos hname, if_neg (by simp), authorizationFields_some, authorization, List.filter_cons,
          if_pos hname]
        cases fields.filter fun field => eqIgnoreAsciiCase field.name authorizationName <;> rfl
      · rw [if_neg hname, ih, authorization, authorization, List.filter_cons, if_neg hname]

/-- The loop stops after the run of spaces. -/
theorem credentialStart_eq (value : List UInt8) (start : Nat) :
    Scan.credentialStart value start = start + (value.drop start).findIdx (fun b => !decide (b = 32)) := by
  fun_induction Scan.credentialStart value start with
  | case1 start hspace ih =>
      obtain ⟨hlt, hget⟩ := List.getElem?_eq_some_iff.mp hspace
      rw [ih, List.drop_eq_getElem_cons hlt, List.findIdx_cons, hget]
      simp
      omega
  | case2 start hspace =>
      cases hdrop : value.drop start with
      | nil => simp
      | cons b rest =>
          have hb : value[start]? = some b := by
            rw [← List.head?_drop, hdrop]
            rfl
          have hne : b ≠ 32 := fun heq => hspace (heq ▸ hb)
          simp [List.findIdx_cons, hne]

theorem isB64Token_eq (credential : List UInt8) : Scan.isB64Token credential = isB64Token credential := by
  simp [Scan.isB64Token, isB64Token, List.takeWhile_eq_take_findIdx_not, List.dropWhile_eq_drop_findIdx_not]

/-- The text of a token is its bytes. -/
theorem fromUtf8_of_token (h : B64Token credential) : fromUtf8 credential = some (asciiText credential) := by
  have hbyte (b : UInt8) (hb : b ∈ credential) : (Char.ofNat b.toNat).toNat = b.toNat := by
    have hlt := (h.ascii b hb).1
    rw [Char.toNat_ofNat, if_pos (Or.inl (by omega))]
  have hascii : ∀ c ∈ (asciiText credential).toList, c.toNat < 128 := by
    simp only [asciiText, String.toList_ofList, List.mem_map]
    rintro _ ⟨b, hb, rfl⟩
    rw [hbyte b hb]
    exact (h.ascii b hb).1
  rw [fromUtf8_eq_some, asBytes_of_ascii hascii, asciiText, String.toList_ofList, List.map_map]
  conv_rhs => rw [← List.map_id credential]
  refine List.map_congr_left fun b hb => ?_
  simp [asciiByte, hbyte b hb]

/-- The check of the scheme. -/
theorem scheme_iff :
    ¬ (value.length ≤ bearerScheme.length || !eqIgnoreAsciiCase (value.take bearerScheme.length) bearerScheme) = true ↔
    bearerScheme.length < value.length ∧ AnyCase (value.take bearerScheme.length) bearerScheme := by
  rw [← anyCase_bearer]
  simp

/-- The positions at which the loop over the spaces says that something is missing. -/
theorem start_iff (hlength : bearerScheme.length < value.length) :
    (Scan.credentialStart value bearerScheme.length = bearerScheme.length ↔
        (value.drop bearerScheme.length).dropWhile (· = 32) = value.drop bearerScheme.length) ∧
      (Scan.credentialStart value bearerScheme.length = value.length ↔
        (value.drop bearerScheme.length).dropWhile (· = 32) = []) ∧
      value.drop (Scan.credentialStart value bearerScheme.length) =
        (value.drop bearerScheme.length).dropWhile (· = 32) := by
  rw [credentialStart_eq, ← List.drop_drop, List.dropWhile_eq_drop_findIdx_not]
  have hafter : (value.drop bearerScheme.length).length = value.length - bearerScheme.length := List.length_drop
  have hle :
      (value.drop bearerScheme.length).findIdx (fun b => !decide (b = 32)) ≤ (value.drop bearerScheme.length).length :=
    List.findIdx_le_length
  generalize List.findIdx (fun b => !decide (b = 32)) (value.drop bearerScheme.length) = k at hle ⊢
  refine ⟨⟨fun h => ?_, fun h => ?_⟩, ⟨fun h => ?_, fun h => ?_⟩, rfl⟩
  · rw [Nat.add_eq_left.mp h, List.drop_zero]
  · have := congrArg List.length h
    rw [List.length_drop] at this
    omega
  · rw [List.drop_eq_nil_iff]
    omega
  · rw [List.drop_eq_nil_iff] at h
    omega

/-- What the loops find in the value of the field. -/
theorem scan_credential : Scan.credential value = some c ↔ Credential value (asBytes c) := by
  rw [Scan.credential, Option.ite_none_left_eq_some, scheme_iff, credential_iff, and_assoc]
  refine and_congr_right fun hlength => and_congr_right fun _ => ?_
  obtain ⟨hnone, hend, hdrop⟩ := start_iff hlength
  dsimp only
  rw [Option.ite_none_left_eq_some, Option.ite_none_left_eq_some, Bool.or_eq_true, decide_eq_true_eq,
    decide_eq_true_eq, hnone, hend, hdrop, isB64Token_eq, fromUtf8_eq_some, Bool.not_eq_true',
    Bool.not_eq_false, isB64Token_iff, not_or]
  constructor
  · rintro ⟨⟨hne, _⟩, htoken, hbytes⟩
    rw [hbytes]
    exact ⟨rfl, hne, htoken⟩
  · rintro ⟨hbytes, hne, htoken⟩
    rw [hbytes]
    exact ⟨⟨hne, htoken.ne_nil⟩, htoken, rfl⟩

theorem extractBearer_eq_some : extractBearer headers = some c ↔
    ∃ value, OnlyAuthorization headers value ∧ Credential value (asBytes c) := by
  rw [extractBearer, Option.bind_eq_bind, Option.bind_eq_some_iff]
  refine exists_congr fun value => ?_
  rw [authorization_eq_some, Option.ite_none_left_eq_some, scheme_iff, credential_iff, and_assoc]
  refine and_congr_right fun _ => and_congr_right fun _ => and_congr_right fun _ => ?_
  dsimp only
  rw [Option.ite_none_left_eq_some, Option.ite_none_right_eq_some, isB64Token_iff, Bool.or_eq_true,
    not_or, decide_eq_true_eq, List.isEmpty_iff, Option.some.injEq]
  constructor
  · rintro ⟨⟨hne, _⟩, htoken, rfl⟩
    rw [fromUtf8_eq_some.mp (fromUtf8_of_token htoken)]
    exact ⟨rfl, hne, htoken⟩
  · rintro ⟨hbytes, hne, htoken⟩
    rw [hbytes]
    refine ⟨⟨hne, htoken.ne_nil⟩, htoken, ?_⟩
    have htext := fromUtf8_of_token htoken
    rw [fromUtf8_eq_some.mpr rfl] at htext
    exact (Option.some.inj htext).symm

/-- The functional form computes what the loops do. -/
theorem extractBearer_eq (headers : List HeaderField) : Scan.extractBearer headers = extractBearer headers := by
  ext c
  have hloops : Scan.extractBearer headers = (authorization headers).bind Scan.credential := by
    rw [← authorizationFields_eq, Option.bind_assoc]
    rfl
  rw [hloops, extractBearer_eq_some, Option.bind_eq_some_iff]
  exact exists_congr fun value => and_congr authorization_eq_some scan_credential

theorem authorization_perm
    (h : (headers'.filter fun field => eqIgnoreAsciiCase field.name authorizationName).Perm
      (headers.filter fun field => eqIgnoreAsciiCase field.name authorizationName)) :
    authorization headers' = authorization headers := by
  unfold authorization
  generalize (headers'.filter fun field => eqIgnoreAsciiCase field.name authorizationName) = found' at h ⊢
  generalize (headers.filter fun field => eqIgnoreAsciiCase field.name authorizationName) = found at h ⊢
  match found, found' with
  | [], _ => rw [List.perm_nil.mp h]
  | [field], _ => rw [List.perm_singleton.mp h]
  | _ :: _ :: _, [] => exact absurd h.length_eq (by simp)
  | _ :: _ :: _, [_] => exact absurd h.length_eq (by simp)
  | _ :: _ :: _, _ :: _ :: _ => rfl

/-- The extracted credential is the one of the only `Authorization` field. The order of the fields and the other fields
do not matter. -/
theorem bearer_extracted (headers : List HeaderField) :
    (∀ c, Scan.extractBearer headers = some c ↔
      ∃ value, OnlyAuthorization headers value ∧ Credential value (asBytes c)) ∧
    (∀ headers', headers'.Perm headers → Scan.extractBearer headers' = Scan.extractBearer headers) ∧
    (∀ front other back, headers = front ++ other :: back → ¬ AnyCase other.name authorizationName →
      Scan.extractBearer (front ++ back) = Scan.extractBearer headers) ∧
    Scan.extractBearer headers = extractBearer headers := by
  have hauthorization {headers headers' : List HeaderField} (h : authorization headers' = authorization headers) :
      Scan.extractBearer headers' = Scan.extractBearer headers := by
    rw [extractBearer_eq, extractBearer_eq, extractBearer, extractBearer, h]
  refine ⟨fun c => ?_, fun headers' hperm => hauthorization (authorization_perm (hperm.filter _)), ?_,
    extractBearer_eq headers⟩
  · rw [extractBearer_eq]
    exact extractBearer_eq_some
  · rintro front other back rfl hother
    refine hauthorization (authorization_perm (.of_eq ?_))
    rw [List.filter_append, List.filter_append, List.filter_cons, if_neg (anyCase_authorization.not.mpr hother)]

example : extractBearer [⟨[72], [1]⟩, ⟨[65, 117, 116, 104, 111, 114, 105, 122, 97, 116, 105, 111, 110],
    [66, 101, 97, 114, 101, 114, 32, 32, 97, 46, 98, 61]⟩] = some "a.b=" := by decide

end PermissionSync.Inbound
