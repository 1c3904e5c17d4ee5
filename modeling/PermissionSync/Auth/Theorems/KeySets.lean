import PermissionSync.Auth.Jwks
import PermissionSync.Auth.Lemmas.Available

/-!
# Key sets

Each entry of a key set stands for itself: it makes the document unusable, or gives one candidate for each allowed
algorithm that it can be used with.
-/

namespace PermissionSync.Authenticator

open PermissionSync.Auth PermissionSync.Base PermissionSync.Core PermissionSync.Wire
open PermissionSync.Runtime (JwtAlgorithm)

variable {K V : Type} {lib : Libraries K V} {context : SynchronizationContext} {object : List (String × Json)}
  {algorithm : JwtAlgorithm} {allowed : List JwtAlgorithm} {entry : Json} {candidate : Candidate V}

/-! ## Entries -/

/-- A private or symmetric component, or the type of a symmetric key. -/
def Secret (object : List (String × Json)) : Prop :=
  (∃ name ∈ secretMembers, ∃ value, member object name = some value) ∨ member object "kty" = some (.str "oct")

/-- The member is a base64url text of at most that length. -/
def Component (object : List (String × Json)) (name : String) (maximum : Nat) : Prop :=
  ∃ text, member object name = some (.str text) ∧ text ≠ "" ∧ byteLength text ≤ maximum ∧
    ∀ b ∈ asBytes text, isAsciiAlphanumeric b = true ∨ b = 45 ∨ b = 95

/-- The public components of a key of the type. -/
def PublicKey (object : List (String × Json)) (kty : String) : Prop :=
  (kty = "RSA" ∧ Component object "n" maxPublicComponentBytes ∧ Component object "e" maxRsaExponentBytes) ∨
    (kty = "EC" ∧ Component object "x" maxPublicComponentBytes ∧ Component object "y" maxPublicComponentBytes ∧
      ∃ curve, member object "crv" = some (.str curve)) ∨
    (kty = "OKP" ∧ Component object "x" maxPublicComponentBytes ∧ ∃ curve, member object "crv" = some (.str curve))

/-- A public key for signatures. -/
structure PublicSignature (object : List (String × Json)) : Prop where
  key : ∃ kty, member object "kty" = some (.str kty) ∧ PublicKey object kty
  texts : ∀ name ∈ textMembers, ∀ value, member object name = some value →
    ∃ text, value = .str text ∧ byteLength text ≤ maxTextBytes
  use : ∀ value, member object "use" = some value → value = .str "sig"
  keyOps : ∀ value, member object "key_ops" = some value → ∃ operations, value = .arr operations ∧
    (∀ operation ∈ operations, ∃ text, operation = .str text) ∧ .str "verify" ∈ operations

theorem textMember_eq_some {name text : String} :
    textMember object name = some text ↔ member object name = some (.str text) := by
  unfold textMember
  cases member object name with
  | none => simp
  | some value => cases value <;> simp [Json.asStr]

theorem isSome_asStr {value : Json} : value.asStr.isSome = true ↔ ∃ text, value = .str text := by
  cases value <;> simp [Json.asStr]

theorem boundedComponent_iff {name : String} {maximum : Nat} :
    boundedComponent object name maximum = true ↔ Component object name maximum := by
  unfold boundedComponent Component
  cases htext : textMember object name with
  | none =>
      refine iff_of_false Bool.false_ne_true ?_
      rintro ⟨text, hmember, _⟩
      cases htext.symm.trans (textMember_eq_some.mpr hmember)
  | some text =>
      simp only [← textMember_eq_some, htext, Option.some.injEq, exists_eq_left', Bool.and_eq_true, decide_eq_true_eq,
        List.all_eq_true, Bool.or_eq_true, and_assoc, or_assoc]

theorem boundedText_iff {name : String} : boundedText object name = true ↔ ∀ value, member object name = some value →
    ∃ text, value = .str text ∧ byteLength text ≤ maxTextBytes := by
  unfold boundedText
  cases member object name with
  | none => simp
  | some value => cases value <;> simp [Json.asStr]

theorem allowsVerify_iff : allowsVerify object = true ↔ ∀ value, member object "key_ops" = some value →
    ∃ operations, value = .arr operations ∧ (∀ operation ∈ operations, ∃ text, operation = .str text) ∧
      .str "verify" ∈ operations := by
  unfold allowsVerify
  cases member object "key_ops" with
  | none => simp
  | some value =>
      cases value with
      | arr operations =>
          have hverify : (∃ operation ∈ operations, operation.asStr = some "verify") ↔ .str "verify" ∈ operations := by
            constructor
            · rintro ⟨operation, hmem, hstr⟩
              cases operation <;> cases hstr
              exact hmem
            · exact fun hmem => ⟨_, hmem, rfl⟩
          simp only [Json.asArray, Bool.and_eq_true, Bool.not_eq_true', List.isEmpty_eq_false_iff, List.all_eq_true,
            List.any_eq_true, beq_iff_eq, isSome_asStr, hverify, Option.some.injEq, forall_eq',
              Json.arr.injEq, exists_eq_left']
          constructor
          · rintro ⟨⟨_, htexts⟩, hmem⟩
            exact ⟨htexts, hmem⟩
          · rintro ⟨htexts, hmem⟩
            exact ⟨⟨List.ne_nil_of_mem hmem, htexts⟩, hmem⟩
      | _ => simp [Json.asArray]

/-- The checks of a key by its type. -/
theorem publicKey_iff {kty : String} : (kty = "RSA" ∨ kty = "EC" ∨ kty = "OKP") ∧ publicComponents object kty = true ↔
    PublicKey object kty := by
  have hcurve : (textMember object "crv").isSome = true ↔ ∃ curve, member object "crv" = some (.str curve) := by
    simp only [Option.isSome_iff_exists, textMember_eq_some]
  unfold publicComponents PublicKey
  by_cases hrsa : kty = "RSA"
  · simp [hrsa, boundedComponent_iff]
  by_cases hec : kty = "EC"
  · simp [hec, boundedComponent_iff, hcurve, and_assoc]
  by_cases hokp : kty = "OKP"
  · simp [hokp, boundedComponent_iff, hcurve]
  · simp [hrsa, hec, hokp]

/-- How an entry without a secret member is classified. -/
theorem classifyJwk_cases (object : List (String × Json)) :
    (Secret object ∧ classifyJwk object = .error ()) ∨
      (¬ Secret object ∧ PublicSignature object ∧ classifyJwk object = .ok .applicable) ∨
      (¬ Secret object ∧ ¬ PublicSignature object ∧ classifyJwk object = .ok .inapplicable) := by
  unfold classifyJwk
  by_cases hmembers : (secretMembers.any fun name => (member object name).isSome) = true
  · refine Or.inl ⟨Or.inl ?_, if_pos hmembers⟩
    simpa only [List.any_eq_true, Option.isSome_iff_exists] using hmembers
  have hno : ¬ ∃ name ∈ secretMembers, ∃ value, member object name = some value := by
    simpa only [List.any_eq_true, Option.isSome_iff_exists] using hmembers
  rw [if_neg hmembers]
  cases hkty : textMember object "kty" with
  | none =>
      refine Or.inr (Or.inr ⟨?_, ?_, rfl⟩)
      · rintro (hmember | hoct)
        · exact hno hmember
        · cases hkty.symm.trans (textMember_eq_some.mpr hoct)
      · rintro ⟨⟨kty, hmember, _⟩, _⟩
        cases hkty.symm.trans (textMember_eq_some.mpr hmember)
  | some kty =>
      have hmember := textMember_eq_some.mp hkty
      dsimp only
      by_cases hoct : kty = "oct"
      · exact Or.inl ⟨Or.inr (hoct ▸ hmember), if_pos hoct⟩
      have hpublic : ¬ Secret object := by
        rintro (hsecret | hsecret)
        · exact hno hsecret
        · rw [hmember, Option.some.injEq, Json.str.injEq] at hsecret
          exact hoct hsecret
      have hsignature : PublicSignature object ↔ PublicKey object kty ∧ textMembers.all (boundedText object) = true ∧
          (∀ value, member object "use" = some value → value = .str "sig") ∧ allowsVerify object = true := by
        simp only [List.all_eq_true, boundedText_iff, allowsVerify_iff]
        constructor
        · rintro ⟨⟨kty', hmember', hkey⟩, htexts, huse, hops⟩
          cases hmember.symm.trans hmember'
          exact ⟨hkey, htexts, huse, hops⟩
        · rintro ⟨hkey, htexts, huse, hops⟩
          exact ⟨⟨kty, hmember, hkey⟩, htexts, huse, hops⟩
      have huse : (∀ value, member object "use" = some value → value = .str "sig") ↔
          ¬ ((member object "use").any fun value => value.asStr ≠ some "sig") = true := by
        cases member object "use" with
        | none => simp
        | some value => cases value <;> simp [Json.asStr]
      rw [if_neg hoct, hsignature, ← publicKey_iff, huse]
      refine Or.inr ?_
      by_cases hkind : kty ≠ "RSA" ∧ kty ≠ "EC" ∧ kty ≠ "OKP"
      · refine Or.inr ⟨hpublic, fun h => ?_, if_pos hkind⟩
        rcases h.1.1 with rfl | rfl | rfl <;> simp at hkind
      rw [if_neg hkind]
      by_cases hlong : textMembers.all (boundedText object) = true
      swap
      · exact Or.inr ⟨hpublic, fun h => hlong h.2.1, if_pos (by simpa using hlong)⟩
      rw [if_neg (by simp [hlong])]
      by_cases hsig : ((member object "use").any fun value => value.asStr ≠ some "sig") = true
      · exact Or.inr ⟨hpublic, fun h => h.2.2.1 hsig, if_pos hsig⟩
      rw [if_neg hsig]
      by_cases hops : allowsVerify object = true
      swap
      · exact Or.inr ⟨hpublic, fun h => hops h.2.2.2, if_pos (by simpa using hops)⟩
      rw [if_neg (by simp [hops])]
      by_cases hkey : publicComponents object kty = true
      swap
      · exact Or.inr ⟨hpublic, fun h => hkey h.1.2, if_pos (by simpa using hkey)⟩
      have hkinds : kty = "RSA" ∨ kty = "EC" ∨ kty = "OKP" := by
        by_contra hno
        exact hkind (by simpa only [not_or] using hno)
      exact Or.inl ⟨hpublic, ⟨⟨hkinds, hkey⟩, hlong, hsig, hops⟩, if_neg (by simp [hkey])⟩

theorem classifyJwk_error : classifyJwk object = .error () ↔ Secret object := by
  rcases classifyJwk_cases object with ⟨h, heq⟩ | ⟨h, _, heq⟩ | ⟨h, _, heq⟩ <;> simp [h, heq]

theorem classifyJwk_applicable : classifyJwk object = .ok .applicable ↔ ¬ Secret object ∧ PublicSignature object := by
  rcases classifyJwk_cases object with ⟨h, heq⟩ | ⟨h, h', heq⟩ | ⟨h, h', heq⟩ <;> simp_all

/-! ## Contributions -/

/-- The entry without its key id. -/
def withoutKid (object : List (String × Json)) : Json := .obj (object.filter fun m => m.1 ≠ "kid")

/-- The candidate that a public signature entry gives for an algorithm that it can be used with. -/
structure Contributes (lib : Libraries K V) (entry : Json) (algorithm : JwtAlgorithm) (candidate : Candidate V)
    (object : List (String × Json)) (jwk bare : K) : Prop where
  entry : entry.asObject = some object
  signature : PublicSignature object
  alg : ∀ name, member object "alg" = some (.str name) → name = algorithmName algorithm
  fits : compatible object algorithm = true
  imported : lib.importJwk (.obj object) = some jwk
  verifier : lib.verifierFromJwk algorithm jwk = some candidate.withKid
  importedBare : lib.importJwk (withoutKid object) = some bare
  bareVerifier : lib.verifierFromJwk algorithm bare = some candidate.withoutKid
  kid : candidate.kid = textMember object "kid"
  candidate : candidate.algorithm = algorithm

/-- What a turn of the inner loop appends. -/
def algorithmCandidate (lib : Libraries K V) (object : List (String × Json)) (jwk : K) (algorithm : JwtAlgorithm) :
    Option (Candidate V) :=
  if usableWith object algorithm then do
    let verifier ← lib.verifierFromJwk algorithm jwk
    let bare ← lib.importJwk (withoutKid object)
    let bareVerifier ← lib.verifierFromJwk algorithm bare
    some ⟨textMember object "kid", algorithm, verifier, bareVerifier⟩
  else
    none

/-- What an entry gives for an algorithm. -/
def contribution (lib : Libraries K V) (entry : Json) (algorithm : JwtAlgorithm) : Option (Candidate V) := do
  let object ← entry.asObject
  if classifyJwk object = .ok .applicable then
    let jwk ← lib.importJwk (.obj object)
    algorithmCandidate lib object jwk algorithm
  else
    none

/-- An entry that makes the document unusable. -/
def SecretEntry (entry : Json) : Prop := ∃ object, entry.asObject = some object ∧ Secret object

theorem secretEntry_iff :
    entry.asObject.any (fun object => decide (classifyJwk object = .error ())) = true ↔ SecretEntry entry := by
  simp only [Option.any_eq_true, decide_eq_true_eq, classifyJwk_error, SecretEntry]

instance : Decidable (SecretEntry entry) := decidable_of_iff _ secretEntry_iff

theorem usableWith_iff : usableWith object algorithm = true ↔
    (∀ name, member object "alg" = some (.str name) → name = algorithmName algorithm) ∧
    compatible object algorithm = true := by
  simp only [usableWith, Bool.and_eq_true, Option.all_eq_true, beq_iff_eq, textMember_eq_some]

theorem contribution_eq_some : contribution lib entry algorithm = some candidate ↔
    ¬ SecretEntry entry ∧ ∃ object jwk bare, Contributes lib entry algorithm candidate object jwk bare := by
  simp only [contribution, algorithmCandidate, Option.bind_eq_bind, Option.bind_eq_some_iff,
    Option.ite_none_right_eq_some, classifyJwk_applicable, usableWith_iff, Option.some.injEq]
  constructor
  · rintro ⟨object, hobject, ⟨hpublic, hsignature⟩, jwk, himported, ⟨halg, hcompatible⟩, _, hwith,
      bare, hbare, _, hwithout, rfl⟩
    refine ⟨?_, object, jwk, bare, hobject, hsignature, halg, hcompatible, himported, hwith, hbare, hwithout, rfl, rfl⟩
    rintro ⟨object', hobject', hsecret⟩
    cases hobject.symm.trans hobject'
    exact hpublic hsecret
  · rintro ⟨hpublic, object, jwk, bare, h⟩
    refine ⟨object, h.entry, ⟨fun hsecret => hpublic ⟨object, h.entry, hsecret⟩, h.signature⟩, jwk, h.imported,
      ⟨h.alg, h.fits⟩, _, h.verifier, bare, h.importedBare, _, h.bareVerifier, ?_⟩
    rw [← h.kid, ← h.candidate]

/-! ## The loops -/

section

variable {C : Event (auth V) → Prop} (hC : ∀ e, C e → Available context e) {candidates : List (Candidate V)}
include hC

theorem algorithmTurn_yields {jwk : K} : Yields C (algorithmTurn lib context object jwk candidates algorithm)
    (.ok (candidates ++ (algorithmCandidate lib object jwk algorithm).toList)) := by
  unfold algorithmTurn algorithmCandidate withoutKid
  refine yields_checkContext_bind hC ?_
  by_cases husable : usableWith object algorithm = true
  · rw [if_neg (by simp [husable]), if_pos husable]
    cases hwith : lib.verifierFromJwk algorithm jwk with
    | none => simpa using Yields.pure
    | some verifier =>
        refine yields_checkContext_bind hC (yields_checkContext_bind hC ?_)
        cases hbare : lib.importJwk (.obj (object.filter fun m => m.1 ≠ "kid")) with
        | none => simpa using Yields.pure
        | some bare =>
            refine yields_checkContext_bind hC ?_
            cases hwithout : lib.verifierFromJwk algorithm bare with
            | none => simpa [hwithout] using Yields.pure
            | some bareVerifier =>
                refine yields_checkContext_bind hC ?_
                simpa [hwithout] using Yields.pure
  · rw [if_pos (by simpa using husable), if_neg husable]
    refine yields_checkContext_bind hC ?_
    simpa using Yields.pure

theorem entryTurn_yields : Yields C (entryTurn lib context allowed candidates entry)
    (if SecretEntry entry then .error .verifierUnavailable
      else .ok (candidates ++ allowed.filterMap (contribution lib entry))) := by
  refine yields_checkContext_bind hC ?_
  cases hobject : entry.asObject with
  | none =>
      have hpublic : ¬ SecretEntry entry := fun ⟨object, h, _⟩ => nomatch hobject.symm.trans h
      have hnone : contribution lib entry = fun _ => none := by simp [funext_iff, contribution, hobject]
      rw [if_neg hpublic, hnone]
      simpa using Yields.pure
  | some object =>
      have hsecret : SecretEntry entry ↔ Secret object := by simp [SecretEntry, hobject]
      dsimp only
      rcases classifyJwk_cases object with ⟨h, heq⟩ | ⟨h, _, heq⟩ | ⟨h, _, heq⟩
      · rw [heq, if_pos (hsecret.mpr h)]
        exact .fail
      · rw [heq, if_neg (hsecret.not.mpr h)]
        refine yields_checkContext_bind hC ?_
        have hcontribution : contribution lib entry = fun algorithm =>
            (lib.importJwk (.obj object)).bind fun jwk => algorithmCandidate lib object jwk algorithm := by
          funext algorithm
          simp [contribution, hobject, heq]
        rw [hcontribution]
        by_cases husable : allowed.any (usableWith object) = true
        · rw [if_neg (by simp [husable])]
          cases lib.importJwk (.obj object) with
          | none => simpa using Yields.pure
          | some jwk =>
              refine yields_checkContext_bind hC ?_
              have hturn (candidates : List (Candidate V)) (algorithm : JwtAlgorithm) :
                  Yields C (algorithmTurn lib context object jwk candidates algorithm)
                    (.ok (candidates ++ (algorithmCandidate lib object jwk algorithm).toList)) :=
                      algorithmTurn_yields hC
              have hloop := Yields.foldlM hturn allowed candidates
              rw [foldlM_append_eq_ok (fun _ _ _ => rfl), ← List.filterMap_eq_flatMap_toList] at hloop
              exact hloop.bind fun _ _ => yields_checkContext_bind hC .pure
        · rw [if_pos (by simpa using husable)]
          have hnone : allowed.filterMap (fun algorithm =>
              (lib.importJwk (.obj object)).bind fun jwk => algorithmCandidate lib object jwk algorithm) = [] := by
            rw [List.filterMap_eq_nil_iff]
            intro algorithm hmem
            have hunusable : ¬ usableWith object algorithm = true :=
              fun h => husable (List.any_eq_true.mpr ⟨_, hmem, h⟩)
            simp [algorithmCandidate, hunusable]
          rw [hnone, List.append_nil]
          exact .pure
      · have hnone : contribution lib entry = fun _ => none := by simp [funext_iff, contribution, hobject, heq]
        rw [heq, if_neg (hsecret.not.mpr h), hnone]
        simpa using Yields.pure

/-- The entries of a key set. -/
def keysOf (value : Json) : Option (List Json) :=
  (value.asObject.bind fun object => member object "keys").bind Json.asArray

/-- What makes a document unusable. -/
def Unusable (value : Json) : Prop :=
  keysOf value = none ∨ ∃ keys, keysOf value = some keys ∧
    (maxJwksKeys < keys.length ∨ ∃ entry ∈ keys, SecretEntry entry)

/-- The result for a document. -/
def keySet (lib : Libraries K V) (allowed : List JwtAlgorithm) (value : Json) :
    Except AuthenticationError (List (Candidate V)) := do
  let keys ← okOr (keysOf value) .verifierUnavailable
  ensure (keys.length ≤ maxJwksKeys) .verifierUnavailable
  keys.foldlM (fun candidates entry => if SecretEntry entry then .error .verifierUnavailable
    else .ok (candidates ++ allowed.filterMap (contribution lib entry))) []

theorem parseJwks_yields {document : List UInt8} {value : Json} (hread : lib.readJson document = some value) :
    Yields C (parseJwks lib document allowed context) (keySet lib allowed value) := by
  refine yields_checkContext_bind hC ?_
  rw [hread]
  refine Yields.lift.bind (g := fun value => keySet lib allowed value) fun value' hvalue => ?_
  refine yields_checkContext_bind hC ?_
  refine Yields.lift.bind fun keys _ => Yields.lift.bind fun _ _ => ?_
  exact Yields.foldlM (fun candidates entry => entryTurn_yields hC) keys []

end

theorem keySet_cases (lib : Libraries K V) (allowed : List JwtAlgorithm) (value : Json) :
    (Unusable value ∧ keySet lib allowed value = .error .verifierUnavailable) ∨
      ∃ keys, keysOf value = some keys ∧ ¬ Unusable value ∧
        keySet lib allowed value = .ok (keys.flatMap fun entry => allowed.filterMap (contribution lib entry)) := by
  unfold keySet
  cases hkeys : keysOf value with
  | none => exact Or.inl ⟨Or.inl hkeys, rfl⟩
  | some keys =>
      rw [okOr_some, ok_bind]
      by_cases hlength : keys.length ≤ maxJwksKeys
      swap
      · exact Or.inl ⟨Or.inr ⟨keys, hkeys, Or.inl (not_le.mp hlength)⟩, by simp [ensure, hlength]⟩
      rw [ensure_of hlength, ok_bind]
      by_cases hsecret : ∃ entry ∈ keys, SecretEntry entry
      · refine Or.inl ⟨Or.inr ⟨keys, hkeys, Or.inr hsecret⟩, ?_⟩
        obtain ⟨entry, hmem, hsecret⟩ := hsecret
        refine foldlM_eq_error hmem (fun _ => if_pos hsecret) (fun other _ _ e' he' => ?_) []
        split at he' <;> cases he'
        rfl
      · refine Or.inr ⟨keys, rfl, ?_, ?_⟩
        · rintro (hnone | ⟨keys', hkeys', hinvalid⟩)
          · cases hkeys.symm.trans hnone
          · cases hkeys.symm.trans hkeys'
            exact hinvalid.elim (fun hlong => absurd hlength (not_le.mpr hlong)) hsecret
        · refine foldlM_append_eq_ok (fun entry hmem candidates => ?_) []
          exact if_neg fun h => hsecret ⟨entry, hmem, h⟩

/-- Entries that contribute nothing do not count, within the limit of a document. -/
theorem keySet_idle {front idle back : List Json} {value value' : Json} (hkeys : keysOf value = some (front ++ back))
    (hkeys' : keysOf value' = some (front ++ idle ++ back)) (hlength : (front ++ idle ++ back).length ≤ maxJwksKeys)
    (hidle : ∀ entry ∈ idle, ¬ SecretEntry entry ∧ ∀ algorithm ∈ allowed, contribution lib entry algorithm = none) :
    keySet lib allowed value' = keySet lib allowed value := by
  have hshort : (front ++ back).length ≤ maxJwksKeys := by
    refine le_trans ?_ hlength
    simp
  have hlimit (keys : List Json) (h : keys.length ≤ maxJwksKeys) : ¬ maxJwksKeys < keys.length := not_lt.mpr h
  have hsecret : Unusable value' ↔ Unusable value := by
    simp only [Unusable, hkeys, hkeys', Option.some.injEq, exists_eq_left', reduceCtorEq, false_or, hlimit _ hlength,
      hlimit _ hshort, List.mem_append]
    constructor
    · rintro ⟨entry, (hfront | hmem) | hback, h⟩
      · exact ⟨entry, Or.inl hfront, h⟩
      · exact absurd h (hidle entry hmem).1
      · exact ⟨entry, Or.inr hback, h⟩
    · rintro ⟨entry, hfront | hback, h⟩
      · exact ⟨entry, Or.inl (Or.inl hfront), h⟩
      · exact ⟨entry, Or.inr hback, h⟩
  have hnone : idle.flatMap (fun entry => allowed.filterMap (contribution lib entry)) = [] :=
    List.flatMap_eq_nil_iff.mpr fun entry hmem => List.filterMap_eq_nil_iff.mpr (hidle entry hmem).2
  rcases keySet_cases lib allowed value with ⟨hun, heq⟩ | ⟨keys, hsome, hus, heq⟩
  · rcases keySet_cases lib allowed value' with ⟨_, heq'⟩ | ⟨_, _, hus', _⟩
    · rw [heq, heq']
    · exact absurd (hsecret.mpr hun) hus'
  · rcases keySet_cases lib allowed value' with ⟨hun', _⟩ | ⟨keys', hsome', _, heq'⟩
    · exact absurd (hsecret.mp hun') hus
    · cases hkeys.symm.trans hsome
      cases hkeys'.symm.trans hsome'
      rw [heq, heq']
      simp [hnone]

/-! ## The result -/

/-- The operations leave the context available. -/
def Uncancelled (context : SynchronizationContext) (t : Trace V) : Prop := ∀ e ∈ t, Available context e

/-- A key set fails exactly when it is unusable. Otherwise the candidates are what its keys contribute, in order, and
keys that contribute nothing do not change them. -/
theorem parseJwks_decides (lib : Libraries K V) (allowed : List JwtAlgorithm) (context : SynchronizationContext)
    {document : List UInt8} {value : Json} (hread : lib.readJson document = some value) :
    -- an available context lets it run to its end, with one result
    (0 < context.deadline → ∃ t r, Uncancelled context t ∧ Run (parseJwks lib document allowed context) t r) ∧
    (∀ t r, Uncancelled context t → Run (parseJwks lib document allowed context) t r →
      ((∃ e, r = .error e) ↔ Unusable value) ∧
      ∀ keys, keysOf value = some keys → ¬ Unusable value →
        r = .ok (keys.flatMap fun entry => allowed.filterMap (contribution lib entry))) ∧
    (∀ entry algorithm candidate, contribution lib entry algorithm = some candidate ↔
      ¬ SecretEntry entry ∧ ∃ object jwk bare, Contributes lib entry algorithm candidate object jwk bare) ∧
    -- entries that contribute nothing
    ∀ front idle back document' value', lib.readJson document' = some value' → keysOf value = some (front ++ back) →
      keysOf value' = some (front ++ idle ++ back) → (front ++ idle ++ back).length ≤ maxJwksKeys →
      (∀ entry ∈ idle, ¬ SecretEntry entry ∧ ∀ algorithm ∈ allowed, contribution lib entry algorithm = none) →
      ∀ t r t' r', Uncancelled context t → Run (parseJwks lib document allowed context) t r →
        Uncancelled context t' → Run (parseJwks lib document' allowed context) t' r' → r' = r := by
  have hyields {document : List UInt8} {value : Json} (hread : lib.readJson document = some value) :
      Yields (Available context) (parseJwks lib document allowed context) (keySet lib allowed value) :=
    parseJwks_yields (fun _ h => h) hread
  refine ⟨fun hopen => ?_, fun t r hclear hrun => ?_, fun _ _ _ => contribution_eq_some, ?_⟩
  · obtain ⟨t, hclear, hrun⟩ := (hyields hread).exists_run (exists_available hopen)
    exact ⟨t, _, hclear, hrun⟩
  · rw [hyields hread t r hclear hrun]
    rcases keySet_cases lib allowed value with ⟨hun, heq⟩ | ⟨keys, hkeys, hus, heq⟩
    · rw [heq]
      exact ⟨iff_of_true ⟨_, rfl⟩ hun, fun _ _ hus => absurd hun hus⟩
    · rw [heq]
      refine ⟨iff_of_false (fun ⟨_, he⟩ => nomatch he) hus, fun keys' hkeys' _ => ?_⟩
      cases hkeys.symm.trans hkeys'
      rfl
  · intro front idle back document' value' hread' hkeys hkeys' hlength hidle t r t' r' hclear hrun hclear' hrun'
    rw [hyields hread t r hclear hrun, hyields hread' t' r' hclear' hrun', keySet_idle hkeys hkeys' hlength hidle]

/-- Libraries that read every document as a key set with a signature key and an encryption key. -/
def twoKeyLibraries : Libraries Unit Unit where
  header _ := none
  verify _ _ := none
  importJwk _ := some ()
  verifierFromJwk _ _ := some ()
  readJson _ := some (.obj [("keys", .arr [
    .obj [("kty", .str "OKP"), ("crv", .str "Ed25519"), ("x", .str "AA"), ("kid", .str "key")],
    .obj [("kty", .str "OKP"), ("crv", .str "Ed25519"), ("x", .str "AA"), ("use", .str "enc")]])])
  parseUri _ := none
  round q := q

theorem twoKeys_decided : ∃ t, Uncancelled ⟨100, 0⟩ t ∧
    Run (parseJwks twoKeyLibraries [] [.rs256, .edDsa] ⟨100, 0⟩) t (.ok [⟨some "key", .edDsa, (), ()⟩]) := by
  have hread : twoKeyLibraries.readJson [] = some _ := rfl
  obtain ⟨hexists, hresult, _⟩ := parseJwks_decides twoKeyLibraries [.rs256, .edDsa] ⟨100, 0⟩ hread
  obtain ⟨t, r, hclear, hrun⟩ := hexists (by decide)
  refine ⟨t, hclear, ?_⟩
  have hr := (hresult t r hclear hrun).2 _ rfl ?_
  · rw [hr] at hrun
    exact hrun
  · rintro (hnone | ⟨keys, hkeys, hinvalid⟩)
    · cases hnone
    · cases hkeys
      exact absurd hinvalid (by decide)

end PermissionSync.Authenticator
