import PermissionSync.Auth.Claims
import PermissionSync.Core.Lemmas.Targets

/-!
# Scopes and targets

The scope claim is empty or a list of tokens with one space between them. The only token that starts with
`permissionsync:` selects the target, and a scope with several of them or with an invalid target is forbidden.
-/

namespace PermissionSync.Auth

open PermissionSync.Base PermissionSync.Core PermissionSync.Wire

variable {token scope : String} {tokens tokens' : List String} {value : Option Json}

/-! ## Tokens -/

/-- A scope token of RFC 6749: `1*( %x21 / %x23-5B / %x5D-7E )`. -/
def IsScopeToken (token : String) : Prop :=
  token ≠ "" ∧ ∀ c ∈ token.toList,
    c.toNat = 0x21 ∨ (0x23 ≤ c.toNat ∧ c.toNat ≤ 0x5b) ∨ (0x5d ≤ c.toNat ∧ c.toNat ≤ 0x7e)

theorem isScopeTokenByte_iff {b : UInt8} : isScopeTokenByte b = true ↔
    b.toNat = 0x21 ∨ (0x23 ≤ b.toNat ∧ b.toNat ≤ 0x5b) ∨ (0x5d ≤ b.toNat ∧ b.toNat ≤ 0x7e) := by
  simp only [isScopeTokenByte, Bool.or_eq_true, Bool.and_eq_true, decide_eq_true_eq,
    UInt8.le_iff_toNat_le, UInt8.ext_iff, or_assoc]
  rfl

theorem validScopeToken_iff : validScopeToken token = true ↔ IsScopeToken token := by
  rw [validScopeToken, IsScopeToken, Bool.and_eq_true, List.all_eq_true, decide_eq_true_eq,
    forall_asBytes fun b hb => by rw [isScopeTokenByte_iff] at hb; omega]
  refine and_congr_right fun _ => forall₂_congr fun c _ => ?_
  rw [isScopeTokenByte_iff, asciiByte, UInt8.toNat_ofNat']
  omega

instance : Decidable (IsScopeToken token) := decidable_of_iff _ validScopeToken_iff

/-- No token has a space. -/
theorem IsScopeToken.space_notMem (h : IsScopeToken token) : ' ' ∉ token.toList := by
  intro hmem
  have hspace := h.2 ' ' hmem
  simp at hspace

/-- The scope is the list of tokens, with one space between them. -/
def Spells (scope : String) (tokens : List String) : Prop :=
  scope.toList = [' '].intercalate (tokens.map String.toList) ∧ ∀ token ∈ tokens, IsScopeToken token

/-- A scope that is not empty is spelled only by its pieces. -/
theorem spells_iff (hne : scope ≠ "") : Spells scope tokens ↔
    tokens = splitSpace scope ∧ ∀ token ∈ splitSpace scope, IsScopeToken token := by
  constructor
  · rintro ⟨hscope, htokens⟩
    have hsplit : tokens = splitSpace scope := by
      rw [splitSpace, hscope, List.splitOn_intercalate]
      · simp [Function.comp_def]
      · intro l hl
        obtain ⟨token, htoken, rfl⟩ := List.mem_map.mp hl
        exact (htokens token htoken).space_notMem
      · intro hnil
        rw [hnil] at hscope
        exact hne (String.toList_inj.mp hscope)
    exact ⟨hsplit, hsplit ▸ htokens⟩
  · rintro ⟨rfl, htokens⟩
    refine ⟨?_, htokens⟩
    simp [splitSpace, Function.comp_def, List.intercalate_splitOn]

theorem spells_empty : Spells "" tokens ↔ tokens = [] := by
  constructor
  · rintro ⟨hscope, htokens⟩
    cases tokens with
    | nil => rfl
    | cons token tokens =>
        obtain ⟨htoken, _⟩ := List.forall_mem_cons.mp htokens
        have hempty : token.toList = [] := by
          cases tokens <;> simp_all
        exact absurd (String.toList_inj.mp hempty) htoken.1
  · rintro rfl
    exact ⟨rfl, nofun⟩

/-! ## Selection -/

theorem startsWithTargetScope_iff : startsWithTargetScope token = true ↔ ∃ t, token = targetScope ++ t := by
  rw [startsWithTargetScope, List.isPrefixOf_iff_prefix]
  constructor
  · rintro ⟨rest, hrest⟩
    exact ⟨String.ofList rest, String.toList_inj.mp (by simp [← hrest])⟩
  · rintro ⟨t, rfl⟩
    exact ⟨t.toList, by simp⟩

theorem drop_targetScope (t : String) : String.ofList ((targetScope ++ t).toList.drop targetScope.length) = t := by
  rw [String.toList_append, ← String.length_toList, List.drop_left, String.ofList_toList]

/-- The result for the tokens that start with `permissionsync:`. -/
theorem selectTarget_cases (tokens : List String) :
    (tokens.filter startsWithTargetScope = [] ∧ selectTarget (some tokens) = .ok .noTarget) ∨
      (∃ target : LogicalTarget, tokens.filter startsWithTargetScope = [targetScope ++ target.value] ∧
        selectTarget (some tokens) = .ok (.selected target)) ∨
      (tokens.filter startsWithTargetScope ≠ [] ∧
        (∀ t, tokens.filter startsWithTargetScope = [targetScope ++ t] → ¬ TargetGrammar t) ∧
        selectTarget (some tokens) = .error .forbidden) := by
  simp only [selectTarget]
  have hstarts (token : String) (hmem : token ∈ tokens.filter startsWithTargetScope) : ∃ t, token = targetScope ++ t :=
    startsWithTargetScope_iff.mp (List.mem_filter.mp hmem).2
  generalize tokens.filter startsWithTargetScope = selecting at hstarts ⊢
  match selecting with
  | [] => exact Or.inl ⟨rfl, rfl⟩
  | [scope] =>
      obtain ⟨t, rfl⟩ := hstarts scope (List.mem_singleton.mpr rfl)
      dsimp only
      rw [drop_targetScope, LogicalTarget.tryFrom]
      split
      · exact Or.inr (Or.inl ⟨_, rfl, rfl⟩)
      · rename_i hinvalid
        refine Or.inr (Or.inr ⟨List.cons_ne_nil _ _, fun t' ht' => ?_, rfl⟩)
        obtain ⟨heq, _⟩ := List.cons_eq_cons.mp ht'
        have ht : t' = t := by rw [← drop_targetScope t', ← heq, drop_targetScope]
        rw [ht, ← isLogicalTarget_iff]
        exact hinvalid
  | scope :: scope' :: rest =>
      refine Or.inr (Or.inr ⟨List.cons_ne_nil _ _, fun t ht => ?_, rfl⟩)
      cases ht

/-- The selection depends on the tokens that start with `permissionsync:`, in any order. -/
theorem selectTarget_perm (h : (tokens.filter startsWithTargetScope).Perm (tokens'.filter startsWithTargetScope)) :
    selectTarget (some tokens) = selectTarget (some tokens') := by
  simp only [selectTarget]
  generalize tokens.filter startsWithTargetScope = selecting, tokens'.filter startsWithTargetScope = selecting' at h
  match selecting, selecting' with
  | [], _ => rw [List.nil_perm.mp h]
  | [scope], _ => rw [List.singleton_perm.mp h]
  | _, [] => rw [List.perm_nil.mp h]
  | _, [scope] => rw [List.perm_singleton.mp h]
  | _ :: _ :: _, _ :: _ :: _ => rfl

/-- A scope that is not empty is checked piece by piece. -/
theorem parseScopeShape_str (hne : scope ≠ "") : parseScopeShape (some (.str scope)) =
    if ∀ token ∈ splitSpace scope, IsScopeToken token then .ok (some (splitSpace scope)) else .error .rejected := by
  have hall : (splitSpace scope).all validScopeToken = true ↔ ∀ token ∈ splitSpace scope, IsScopeToken token := by
    rw [List.all_eq_true]
    exact forall₂_congr fun token _ => validScopeToken_iff
  simp only [parseScopeShape, Json.asStr, okOr_some, ok_bind, if_neg hne, ← hall]
  cases (splitSpace scope).all validScopeToken <;> rfl

theorem scopeSelection_of_spells (h : Spells scope tokens) :
    scopeSelection (some (.str scope)) = selectTarget (some tokens) := by
  by_cases hne : scope = ""
  · subst hne
    rw [spells_empty.mp h]
    rfl
  · obtain ⟨rfl, htokens⟩ := (spells_iff hne).mp h
    rw [scopeSelection, parseScopeShape_str hne, if_pos htokens]
    rfl

/-! ## The claim as a whole -/

/-- The value is present and not a list of tokens. -/
def ScopeMalformed (value : Option Json) : Prop :=
  ∃ v, value = some v ∧ ((∀ scope, v ≠ .str scope) ∨
    ∃ scope, v = .str scope ∧ scope ≠ "" ∧ ¬ ∃ tokens, Spells scope tokens)

/-- No token starts with `permissionsync:`. -/
def ScopeWithoutTarget (value : Option Json) : Prop :=
  value = none ∨ value = some (.str "") ∨ ∃ scope tokens, value = some (.str scope) ∧ Spells scope tokens ∧
    ∀ token ∈ tokens, startsWithTargetScope token = false

/-- Exactly one token starts with `permissionsync:`, and the rest of it is a target. -/
def ScopeSelects (value : Option Json) (t : String) : Prop :=
  ∃ scope tokens, value = some (.str scope) ∧ Spells scope tokens ∧
    tokens.filter startsWithTargetScope = [targetScope ++ t] ∧ TargetGrammar t

theorem scopeSelection_of_malformed (h : ScopeMalformed value) : scopeSelection value = .error .rejected := by
  obtain ⟨v, rfl, hother | ⟨scope, rfl, hne, hno⟩⟩ := h
  · cases v with
    | str scope => exact absurd rfl (hother scope)
    | _ => rfl
  · have htokens : ¬ ∀ token ∈ splitSpace scope, IsScopeToken token := fun htokens =>
      hno ⟨_, (spells_iff hne).mpr ⟨rfl, htokens⟩⟩
    rw [scopeSelection, parseScopeShape_str hne, if_neg htokens]
    rfl

/-- A value is malformed, absent or spelled by its tokens. -/
theorem malformed_or_spells (value : Option Json) :
    ScopeMalformed value ∨ value = none ∨ ∃ scope tokens, value = some (.str scope) ∧ Spells scope tokens := by
  cases value with
  | none => exact Or.inr (Or.inl rfl)
  | some v =>
      by_cases hstr : ∃ scope, v = .str scope
      · obtain ⟨scope, rfl⟩ := hstr
        by_cases hne : scope = ""
        · exact Or.inr (Or.inr ⟨scope, [], rfl, hne ▸ spells_empty.mpr rfl⟩)
        · by_cases hspells : ∃ tokens, Spells scope tokens
          · obtain ⟨tokens, hspells⟩ := hspells
            exact Or.inr (Or.inr ⟨scope, tokens, rfl, hspells⟩)
          · exact Or.inl ⟨_, rfl, Or.inr ⟨scope, rfl, hne, hspells⟩⟩
      · exact Or.inl ⟨v, rfl, Or.inl fun scope h => hstr ⟨scope, h⟩⟩

theorem Spells.unique (h : Spells scope tokens) (h' : Spells scope tokens') : tokens = tokens' := by
  by_cases hne : scope = ""
  · subst hne
    rw [spells_empty.mp h, spells_empty.mp h']
  · rw [((spells_iff hne).mp h).1, ((spells_iff hne).mp h').1]

theorem withoutTarget_iff (h : Spells scope tokens) :
    ScopeWithoutTarget (some (.str scope)) ↔ tokens.filter startsWithTargetScope = [] := by
  rw [List.filter_eq_nil_iff]
  constructor
  · rintro (hnone | hempty | ⟨scope', tokens', hvalue, hspells, hno⟩)
    · cases hnone
    · cases hempty
      rw [spells_empty.mp h]
      exact nofun
    · cases hvalue
      rw [h.unique hspells]
      exact fun token htoken => Bool.eq_false_iff.mp (hno token htoken)
  · intro hno
    exact Or.inr (Or.inr ⟨scope, tokens, rfl, h, fun token htoken => Bool.eq_false_iff.mpr (hno token htoken)⟩)

theorem selects_iff (h : Spells scope tokens) {t : String} :
    ScopeSelects (some (.str scope)) t ↔
      tokens.filter startsWithTargetScope = [targetScope ++ t] ∧ TargetGrammar t := by
  constructor
  · rintro ⟨scope', tokens', hvalue, hspells, hone, ht⟩
    cases hvalue
    rw [h.unique hspells]
    exact ⟨hone, ht⟩
  · rintro ⟨hone, ht⟩
    exact ⟨scope, tokens, rfl, h, hone, ht⟩

theorem not_malformed_of_spells (h : Spells scope tokens) : ¬ ScopeMalformed (some (.str scope)) := by
  rintro ⟨v, hv, hother | ⟨scope', rfl, _, hno⟩⟩
  · cases hv
    exact hother scope rfl
  · cases hv
    exact hno ⟨tokens, h⟩

/-- A malformed scope selects nothing and has tokens of no kind. -/
theorem ScopeMalformed.excludes (h : ScopeMalformed value) :
    ¬ ScopeWithoutTarget value ∧ ∀ t, ¬ ScopeSelects value t := by
  refine ⟨?_, ?_⟩
  · rintro (rfl | rfl | ⟨scope, tokens, rfl, hspells, _⟩)
    · obtain ⟨_, ⟨⟩, _⟩ := h
    · exact not_malformed_of_spells (spells_empty.mpr rfl) h
    · exact not_malformed_of_spells hspells h
  · rintro t ⟨scope, tokens, rfl, hspells, _⟩
    exact not_malformed_of_spells hspells h

/-- What the scope claim decides. -/
structure Decides (value : Option Json) (result : Except AuthenticationError TargetSelection) : Prop where
  rejected : result = .error .rejected ↔ ScopeMalformed value
  noTarget : result = .ok .noTarget ↔ ScopeWithoutTarget value
  selected : ∀ t, (∃ target : LogicalTarget, target.value = t ∧ result = .ok (.selected target)) ↔ ScopeSelects value t
  forbidden : result = .error .forbidden ↔
    ¬ ScopeMalformed value ∧ ¬ ScopeWithoutTarget value ∧ ∀ t, ¬ ScopeSelects value t

theorem targetScope_append_inj {t t' : String} : [targetScope ++ t] = [targetScope ++ t'] ↔ t = t' := by
  rw [List.singleton_inj]
  constructor
  · intro h
    rw [← drop_targetScope t, h, drop_targetScope]
  · rintro rfl
    rfl

theorem decides_of_malformed (h : ScopeMalformed value) : Decides value (.error .rejected) where
  rejected := iff_of_true rfl h
  noTarget := iff_of_false nofun h.excludes.1
  selected t := iff_of_false (fun ⟨_, _, hne⟩ => nomatch hne) (h.excludes.2 t)
  forbidden := iff_of_false nofun fun hne => hne.1 h

theorem decides_absent : Decides none (.ok .noTarget) where
  rejected := iff_of_false nofun fun ⟨_, hne, _⟩ => nomatch hne
  noTarget := iff_of_true rfl (Or.inl rfl)
  selected _ := iff_of_false (fun ⟨_, _, hne⟩ => nomatch hne) fun ⟨_, _, hne, _⟩ => nomatch hne
  forbidden := iff_of_false nofun fun hne => hne.2.1 (Or.inl rfl)

theorem decides_of_spells (h : Spells scope tokens) : Decides (some (.str scope)) (selectTarget (some tokens)) := by
  have hwell := not_malformed_of_spells h
  rcases selectTarget_cases tokens with ⟨hnone, hresult⟩ | ⟨target, hone, hresult⟩ | ⟨hsome, hinvalid, hresult⟩
  all_goals
    rw [hresult]
    refine ⟨iff_of_false nofun hwell, ?_, fun t => ?_, ?_⟩
  · exact iff_of_true rfl ((withoutTarget_iff h).mpr hnone)
  · rw [selects_iff h, hnone]
    exact iff_of_false (fun ⟨_, _, hne⟩ => nomatch hne) fun hne => nomatch hne.1
  · exact iff_of_false nofun fun hne => hne.2.1 ((withoutTarget_iff h).mpr hnone)
  · rw [withoutTarget_iff h, hone]
    exact iff_of_false nofun (List.cons_ne_nil _ _)
  · rw [selects_iff h, hone, targetScope_append_inj]
    constructor
    · rintro ⟨target', rfl, hok⟩
      cases hok
      exact ⟨rfl, isLogicalTarget_iff.mp target.valid⟩
    · rintro ⟨rfl, _⟩
      exact ⟨target, rfl, rfl⟩
  · refine iff_of_false nofun fun hne => hne.2.2 target.value ?_
    exact (selects_iff h).mpr ⟨hone, isLogicalTarget_iff.mp target.valid⟩
  · exact iff_of_false nofun fun hwithout => hsome ((withoutTarget_iff h).mp hwithout)
  · rw [selects_iff h]
    exact iff_of_false (fun ⟨_, _, hne⟩ => nomatch hne) fun hne => hinvalid t hne.1 hne.2
  · refine iff_of_true rfl ⟨hwell, fun hwithout => hsome ((withoutTarget_iff h).mp hwithout), fun t ht => ?_⟩
    obtain ⟨hone, hgrammar⟩ := (selects_iff h).mp ht
    exact hinvalid t hone hgrammar

theorem decides_scopeSelection (value : Option Json) : Decides value (scopeSelection value) := by
  rcases malformed_or_spells value with hmalformed | rfl | ⟨scope, tokens, rfl, hspells⟩
  · exact scopeSelection_of_malformed hmalformed ▸ decides_of_malformed hmalformed
  · exact decides_absent
  · exact scopeSelection_of_spells hspells ▸ decides_of_spells hspells

/-- The selection is the one the scope tokens decide, whatever their order and whatever other scopes stand among
them. -/
theorem scopeSelection_decides (value : Option Json) :
    Decides value (scopeSelection value) ∧
      (∀ t, (LogicalTarget.tryFrom t).isSome = tryFromBytes (asBytes t)) ∧
      (∀ scope scope' tokens tokens', Spells scope tokens → Spells scope' tokens' → tokens.Perm tokens' →
        scopeSelection (some (.str scope)) = scopeSelection (some (.str scope'))) ∧
      ∀ scope scope' front token back, Spells scope (front ++ token :: back) → Spells scope' (front ++ back) →
        startsWithTargetScope token = false →
        scopeSelection (some (.str scope)) = scopeSelection (some (.str scope')) := by
  refine ⟨decides_scopeSelection value, fun t => ?_, fun scope scope' tokens tokens' h h' hperm => ?_,
    fun scope scope' front token back h h' hother => ?_⟩
  · rw [tryFromBytes_asBytes, LogicalTarget.tryFrom]
    split <;> simp_all
  · rw [scopeSelection_of_spells h, scopeSelection_of_spells h']
    exact selectTarget_perm (hperm.filter _)
  · rw [scopeSelection_of_spells h, scopeSelection_of_spells h']
    refine selectTarget_perm (.of_eq ?_)
    rw [List.filter_append, List.filter_append, List.filter_cons_of_neg (Bool.eq_false_iff.mp hother)]

example : scopeSelection (some (.str "service permissionsync:glpi")) = .ok (.selected ⟨"glpi", by decide⟩) := by decide

end PermissionSync.Auth
