import PermissionSync.Net.Dns

/-!
# Aliases in DNS responses

The accepted names are those that the `CNAME` records of the answer lead to, in whatever order the records come.
-/

namespace PermissionSync.Net

open PermissionSync.Base

variable {N : Type} {answers answers' : List (Record N)} {name n : N} {recordType : RecordType} {address : IpAddr}

theorem canonicalName_eq_some {record : Record N} : record.canonicalName = some n ↔ record.data = .cname n := by
  unfold Record.canonicalName
  split
  · rename_i c heq
    rw [heq, Option.some.injEq, RData.cname.injEq]
  · rename_i hne
    exact iff_of_false nofun fun heq => hne n heq

/-- A record that is an alias. -/
def Record.isAlias (record : Record N) : Bool := record.canonicalName.isSome

theorem isAlias_iff {record : Record N} : record.isAlias = true ↔ ∃ c, record.data = .cname c := by
  simp only [Record.isAlias, Option.isSome_iff_exists, canonicalName_eq_some]

variable [BEq N]

/-- The name is the queried one, or the target of a `CNAME` record whose owner is reachable. -/
inductive Reachable (answers : List (Record N)) (name : N) : N → Prop where
  | queried {n : N} : (name == n) = true → Reachable answers name n
  | canonical {owner canonicalName n : N} {record : Record N} : Reachable answers name owner → record ∈ answers →
      (owner == record.name) = true → record.data = .cname canonicalName → (canonicalName == n) = true →
      Reachable answers name n

/-- The record holds an address of the type. -/
inductive HoldsAddress : RecordType → RData N → IpAddr → Prop where
  | a {address : BitVec 32} : HoldsAddress .a (.a address) (.v4 address)
  | aaaa {address : BitVec 128} : HoldsAddress .aaaa (.aaaa address) (.v6 address)

/-- The first record of the type whose owner is reachable holds the address. -/
def FirstAddress (answers : List (Record N)) (name : N) (recordType : RecordType) (address : IpAddr) : Prop :=
  ∃ front record back, answers = front ++ record :: back ∧ Reachable answers name record.name ∧
    HoldsAddress recordType record.data address ∧
    ∀ other ∈ front, Reachable answers name other.name → ∀ address', ¬ HoldsAddress recordType other.data address'

theorem reached_iff : Reached Record.name Record.canonicalName answers [name] n ↔ Reachable answers name n := by
  constructor
  · intro h
    induction h with
    | start hmem heq =>
        rw [List.mem_singleton.mp hmem] at heq
        exact .queried heq
    | follow _ hmem hsource htarget heq ih => exact .canonical ih hmem hsource (canonicalName_eq_some.mp htarget) heq
  · intro h
    induction h with
    | queried heq => exact .start (List.mem_singleton_self name) heq
    | canonical _ hmem howner hdata heq ih => exact .follow ih hmem howner (canonicalName_eq_some.mpr hdata) heq

/-- Only the `CNAME` records lead anywhere. -/
theorem Reachable.mono (h : Reachable answers name n)
    (hsub : ∀ record ∈ answers, ∀ c, record.data = .cname c → record ∈ answers') : Reachable answers' name n := by
  induction h with
  | queried heq => exact .queried heq
  | canonical _ hmem howner hdata heq ih => exact .canonical ih (hsub _ hmem _ hdata) howner hdata heq

theorem reachable_perm (h : (answers'.filter Record.isAlias).Perm (answers.filter Record.isAlias)) :
    Reachable answers' name n ↔ Reachable answers name n := by
  have hmem (record : Record N) (c : N) (hdata : record.data = .cname c) : record ∈ answers' ↔ record ∈ answers := by
    have hboth := h.mem_iff (a := record)
    simpa only [List.mem_filter, isAlias_iff.mpr ⟨c, hdata⟩, and_true] using hboth
  exact ⟨fun hreach => hreach.mono fun record hrecord c hdata => (hmem record c hdata).mp hrecord,
    fun hreach => hreach.mono fun record hrecord c hdata => (hmem record c hdata).mpr hrecord⟩

/-- The addresses are found in the records that are not aliases. -/
theorem findSome_filter {names : List N} : answers.findSome? (recordAddress names recordType) =
    (answers.filter fun record => !record.isAlias).findSome? (recordAddress names recordType) := by
  induction answers with
  | nil => rfl
  | cons record answers ih =>
      by_cases halias : record.isAlias = true
      · obtain ⟨c, hdata⟩ := isAlias_iff.mp halias
        have hnone : recordAddress names recordType record = none := by
          unfold recordAddress
          rw [hdata]
          split_ifs
          · rfl
          · cases recordType <;> rfl
        rw [List.findSome?_cons, hnone, List.filter_cons_of_neg (by simp [halias])]
        exact ih
      · rw [List.filter_cons_of_pos (by simp [halias]), List.findSome?_cons, List.findSome?_cons, ih]

variable [EquivBEq N]

theorem known_acceptedNames : known (acceptedNames answers name) n = true ↔ Reachable answers name n :=
  (known_closure (List.pairwise_singleton _ _)).trans reached_iff

theorem recordAddress_eq_some {record : Record N} :
    recordAddress (acceptedNames answers name) recordType record = some address ↔
      Reachable answers name record.name ∧ HoldsAddress recordType record.data address := by
  unfold recordAddress
  rw [Option.ite_none_left_eq_some, ← known_acceptedNames, Bool.or_eq_true, not_or, Bool.not_eq_true',
    Bool.not_eq_false, and_assoc]
  refine and_congr_right fun _ => ?_
  constructor
  · rintro ⟨_, h⟩
    generalize record.data = data at h ⊢
    split at h <;> cases h
    · exact .a
    · exact .aaaa
  · intro h
    cases hdata : record.data with
    | a _ | aaaa _ =>
        rw [hdata] at h
        cases h
        exact ⟨by simp [RData.recordType], rfl⟩
    | cname _ | other _ =>
        rw [hdata] at h
        cases h

theorem findSome_eq_some : answers.findSome? (recordAddress (acceptedNames answers name) recordType) = some address ↔
    FirstAddress answers name recordType address := by
  rw [List.findSome?_eq_some_iff]
  constructor
  · rintro ⟨front, record, back, heq, haddress, hfront⟩
    obtain ⟨hreachable, hholds⟩ := recordAddress_eq_some.mp haddress
    refine ⟨front, record, back, heq, hreachable, hholds, fun other hother hreach address' hholds' => ?_⟩
    cases (hfront other hother).symm.trans (recordAddress_eq_some.mpr ⟨hreach, hholds'⟩)
  · rintro ⟨front, record, back, heq, hreachable, hholds, hfront⟩
    refine ⟨front, record, back, heq, recordAddress_eq_some.mpr ⟨hreachable, hholds⟩, fun other hother => ?_⟩
    by_contra hne
    obtain ⟨address', haddress'⟩ := Option.ne_none_iff_exists'.mp hne
    obtain ⟨hreach, hholds'⟩ := recordAddress_eq_some.mp haddress'
    exact hfront other hother hreach address' hholds'

/-- The aliases may come in any order. -/
theorem responseAddress_perm {response : DnsResponse N}
    (haliases : (answers'.filter Record.isAlias).Perm (response.answers.filter Record.isAlias))
    (hothers : (answers'.filter fun record => !record.isAlias) =
      response.answers.filter fun record => !record.isAlias) :
    responseAddress { response with answers := answers' } name recordType =
      responseAddress response name recordType := by
  have hnames : recordAddress (acceptedNames answers' name) recordType =
      recordAddress (acceptedNames response.answers name) recordType := by
    funext record
    have hknown :
        known (acceptedNames answers' name) record.name = known (acceptedNames response.answers name) record.name := by
      rw [Bool.eq_iff_iff, known_acceptedNames, known_acceptedNames, reachable_perm haliases]
    unfold recordAddress
    rw [hknown]
  unfold responseAddress
  rw [hnames, findSome_filter, hothers, ← findSome_filter]

/-- The address of a response is the first one of a name that the aliases lead to, in whatever order the aliases
come. -/
theorem responseAddress_follows_aliases (response : DnsResponse N) (name : N) (recordType : RecordType) :
    -- the loop ends, after at most one pass more than there are records
    (passes Record.name Record.canonicalName response.answers (response.answers.length + 1) [name] =
      some (acceptedNames response.answers name)) ∧
    Distinct (acceptedNames response.answers name) ∧
    (∀ n, known (acceptedNames response.answers name) n = true ↔ Reachable response.answers name n) ∧
    (response.responseCode = .noError → response.truncation = false →
      (∀ address, responseAddress response name recordType = some address ↔
        FirstAddress response.answers name recordType address) ∧
      (responseAddress response name recordType = none ↔ ∀ record ∈ response.answers,
        Reachable response.answers name record.name → ∀ address, ¬ HoldsAddress recordType record.data address)) ∧
    (∀ answers', (answers'.filter Record.isAlias).Perm (response.answers.filter Record.isAlias) →
      (answers'.filter fun record => !record.isAlias) = (response.answers.filter fun record => !record.isAlias) →
      responseAddress { response with answers := answers' } name recordType =
        responseAddress response name recordType) ∧
    Glpi.responseAddress response name recordType = GenericRest.responseAddress response name recordType := by
  refine ⟨closure_eq _ _ _ _, distinct_closure (List.pairwise_singleton _ _), fun n => known_acceptedNames, ?_,
    fun answers' haliases hothers => responseAddress_perm haliases hothers, rfl⟩
  intro hcode htruncation
  have hsuccess : responseAddress response name recordType =
      response.answers.findSome? (recordAddress (acceptedNames response.answers name) recordType) := by
    simp [responseAddress, hcode, htruncation]
  refine ⟨fun address => ?_, ?_⟩
  · rw [hsuccess, findSome_eq_some]
  · rw [hsuccess, List.findSome?_eq_none_iff]
    refine forall₂_congr fun record _ => ?_
    simp only [Option.eq_none_iff_forall_ne_some, ne_eq, recordAddress_eq_some, not_and]
    exact ⟨fun h hreach address hholds => h address hreach hholds, fun h address hreach => h hreach address⟩

/-- Two names that are aliases of each other, after the address. -/
def cyclicResponse : DnsResponse Nat :=
  ⟨.noError, false, [⟨2, .a 1⟩, ⟨1, .cname 2⟩, ⟨2, .cname 1⟩]⟩

theorem cyclicResponse_follows_aliases : acceptedNames cyclicResponse.answers 1 = [1, 2] ∧
    Reachable cyclicResponse.answers 1 2 ∧ FirstAddress cyclicResponse.answers 1 .a (.v4 1) := by
  obtain ⟨_, _, hnames, hresult, _⟩ := responseAddress_follows_aliases cyclicResponse 1 .a
  exact ⟨by decide, (hnames 2).mp (by decide), ((hresult rfl rfl).1 (.v4 1)).mp (by decide)⟩

end PermissionSync.Net
