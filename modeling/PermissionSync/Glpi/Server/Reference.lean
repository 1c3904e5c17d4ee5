import PermissionSync.Glpi.Lemmas.Documents
import PermissionSync.Glpi.Lemmas.Stages
import PermissionSync.Wire.Lemmas.Document

/-!
# Documented answers exist

For every store there is a documented answer to every request, as long as there are ids left for what it creates.
-/

namespace PermissionSync.Glpi

open PermissionSync.Base PermissionSync.Wire

variable {server : Server} {idField nameField : Nat}

/-! ## Pages -/

def rowDocument (idField nameField : Nat) (x : Nat × String) : Json :=
  .obj [(numeral idField, .nat x.1), (numeral nameField, .str x.2)]

def pageMembers (idField nameField : Nat) (l : List (Nat × String)) (start stop : Nat) : List (String × Json) :=
  [("totalcount", .nat l.length), ("count", .nat (slice l start stop).length),
    ("content-range", .str (contentRangeOf start (slice l start stop).length l.length))] ++
    if l = [] then [] else [("data", .arr ((slice l start stop).map (rowDocument idField nameField)))]

def pageDocument (idField nameField : Nat) (l : List (Nat × String)) (start stop : Nat) : RawResponse :=
  if start = 0 ∨ start < l.length then
    { status := if (slice l start stop).length = l.length then 200 else 206
      body := ⟨[], some (.obj (pageMembers idField nameField l start stop))⟩ }
  else { status := 400, body := ⟨[], none⟩ }

theorem numeral_ne {m n : Nat} (h : m ≠ n) : numeral m ≠ numeral n := fun he => h (numeral_injective he)

theorem rowOf_rowDocument (hne : idField ≠ nameField) (hid : idField < u64Bound) (hname : nameField < u64Bound)
    (x : Nat × String) : RowOf idField nameField x (rowDocument idField nameField x) := by
  refine ⟨_, .nat x.1, rfl, by simp [Distinct, numeral_ne hne], fun m hm => ?_, by simp, Or.inl rfl, by simp⟩
  simp only [List.mem_cons, List.not_mem_nil, or_false] at hm
  rcases hm with rfl | rfl
  · exact ⟨idField, hid, rfl⟩
  · exact ⟨nameField, hname, rfl⟩

theorem pageOf_pageDocument (hne : idField ≠ nameField) (hid : idField < u64Bound) (hname : nameField < u64Bound)
    (l : List (Nat × String)) (start stop : Nat) :
    PageOf idField nameField l start stop (pageDocument idField nameField l start stop) := by
  unfold PageOf pageDocument
  split
  · refine ⟨rfl, _, (slice l start stop).map (rowDocument idField nameField), rfl, ?_, ?_, ?_, ?_, ?_, ?_⟩
    · unfold Distinct pageMembers
      split <;> simp
    · simp [pageMembers]
    · simp [pageMembers]
    · simp [pageMembers]
    · rw [List.forall₂_map_right_iff, List.forall₂_same]
      exact fun x _ => rowOf_rowDocument hne hid hname x
    · split
      · simp [pageMembers, *]
      · simp [pageMembers, *]
  · rfl

/-! ## Answers -/

theorem listsOptions_document {option : String → Nat} {u v : String} (hne : option u ≠ option v) :
    ListsOptions option [u, v]
      ⟨200, ⟨[],
        some (.obj [(numeral (option u), .obj [("uid", .str u)]), (numeral (option v), .obj [("uid", .str v)])])⟩⟩ := by
  have huid (w : String) : uidOf (.obj [("uid", .str w)]) = some w := rfl
  refine ⟨rfl, _, rfl, by simp [Distinct, numeral_ne hne], fun uid huids => ⟨?_, fun m hm he => ?_⟩⟩
  · simp only [List.mem_cons, List.not_mem_nil, or_false] at huids
    rcases huids with rfl | rfl
    · exact ⟨_, List.mem_cons_self, huid _⟩
    · exact ⟨_, List.mem_cons_of_mem _ List.mem_cons_self, huid _⟩
  · simp only [List.mem_cons, List.not_mem_nil, or_false] at hm
    rcases hm with rfl | rfl
    · rw [huid] at he
      rw [Option.some.inj he]
    · rw [huid] at he
      rw [Option.some.inj he]

def itemDocument (a : Assignment) : RawResponse :=
  ⟨200, ⟨[], some (.obj [("id", .nat a.id), ("users_id", .nat a.usersId), ("profiles_id", .nat a.profilesId),
    ("entities_id", .nat a.entitiesId), ("is_recursive", .nat a.isRecursive.toNat)])⟩⟩

theorem itemOf_itemDocument (a : Assignment) : ItemOf a (itemDocument a) :=
  ⟨rfl, _, rfl, by simp [Distinct], by simp, by simp, by simp, by simp, by simp⟩

def creationDocument (id : Nat) : RawResponse := ⟨201, ⟨[], some (.obj [("id", .nat id), ("message", .str "")])⟩⟩

theorem creates_creationDocument (id : Nat) : Creates id (creationDocument id) :=
  ⟨rfl, _, "", rfl, by simp [Distinct], by simp, by simp, by simp⟩

/-- The members of the entry that confirms a deletion. -/
def deletionMembers (id : Nat) : List UInt8 :=
  writeStr (numeral id) ++ 58 :: [116, 114, 117, 101] ++ 44 :: writeStr "message" ++ 58 :: writeStr ""

def deletionDocument (id : Nat) : RawResponse := ⟨200, ⟨91 :: 123 :: (deletionMembers id ++ [125, 93]), none⟩⟩

theorem deletes_deletionDocument (id : Nat) : Deletes id (deletionDocument id) := by
  refine ⟨rfl, ?_⟩
  have hnil : Spaces [] := by simp [Spaces]
  have hsuccess : FieldText (numeral id) "message" BoolText (fun s t => Spells t s) (.inl true)
      (writeStr (numeral id) ++ 58 :: [116, 114, 117, 101]) :=
        ⟨_, [], [], _, by simp, spells_writeStr _, hnil, hnil, rfl⟩
  have hmessage : FieldText (numeral id) "message" BoolText (fun s t => Spells t s) (.inr "")
      (writeStr "message" ++ 58 :: writeStr "") :=
    ⟨_, [], [], _, by simp, spells_writeStr _, hnil, hnil, spells_writeStr _⟩
  refine ⟨[], [], deletionMembers id, [], [], "", by simp [deletionDocument], hnil, hnil, hnil, hnil,
    [.inl true, .inr ""], ?_, .refl _⟩
  have htext := MembersText.first hnil hsuccess (.next hnil hnil hmessage (.nil hnil))
  simpa [deletionMembers] using htext

/-- The store without a row. -/
def Store.without (s : Store) (id : Nat) : Store where
  entities := s.entities
  profiles := s.profiles
  accounts := s.accounts
  assignments := s.assignments.filter fun a => a.id ≠ id
  entityKeys := s.entityKeys
  profileKeys := s.profileKeys
  accountKeys := s.accountKeys
  assignmentKeys :=
    ⟨s.assignmentKeys.1.sublist (List.filter_sublist.map _), fun i hi => by
      obtain ⟨a, ha, rfl⟩ := List.mem_map.mp hi
      exact s.assignmentKeys.2 a.id (List.mem_map_of_mem (List.mem_of_mem_filter ha))⟩
  owned a ha := s.owned a (List.mem_of_mem_filter ha)
  granted a ha := s.granted a (List.mem_of_mem_filter ha)

theorem Store.removes_without (s : Store) (id : Nat) : s.RemovesAssignment id (s.without id) :=
  ⟨rfl, rfl, rfl, fun a => by simp [Store.without, List.mem_filter]⟩

/-- The store with one more row. -/
def Store.adding (s : Store) (new : Assignment) (hkey : 0 < new.id ∧ new.id < keyBound)
    (hfresh : new.id ∉ s.assignments.map Assignment.id) (howner : ∃ account ∈ s.accounts, account.id = new.usersId)
    (hgranted : (0 < new.profilesId ∧ new.profilesId < keyBound) ∧ new.entitiesId < keyBound) : Store where
  entities := s.entities
  profiles := s.profiles
  accounts := s.accounts
  assignments := s.assignments ++ [new]
  entityKeys := s.entityKeys
  profileKeys := s.profileKeys
  accountKeys := s.accountKeys
  assignmentKeys := by
    rw [List.map_append, List.map_singleton]
    refine ⟨List.nodup_append'.mpr ⟨s.assignmentKeys.1, List.nodup_singleton _, ?_⟩, fun i hi => ?_⟩
    · simpa using hfresh
    · rcases List.mem_append.mp hi with hi | hi
      · exact s.assignmentKeys.2 i hi
      · exact List.mem_singleton.mp hi ▸ hkey
  owned a ha := by
    rcases List.mem_append.mp ha with ha | ha
    · exact s.owned a ha
    · exact List.mem_singleton.mp ha ▸ howner
  granted a ha := by
    rcases List.mem_append.mp ha with ha | ha
    · exact s.granted a ha
    · exact List.mem_singleton.mp ha ▸ hgranted

/-- There is an id for one more row as long as not all ids are used. -/
theorem Store.exists_fresh (s : Store) (h : s.assignments.length + 1 < keyBound) :
    ∃ id, (0 < id ∧ id < keyBound) ∧ id ∉ s.assignments.map Assignment.id := by
  by_contra hnone
  have hsub : List.range' 1 (keyBound - 1) ⊆ s.assignments.map Assignment.id := by
    intro id hid
    rw [List.mem_range'_1] at hid
    by_contra hfresh
    exact hnone ⟨id, by omega, hfresh⟩
  have hnodup : (List.range' 1 (keyBound - 1)).Nodup := List.nodup_range'
  have hlength := (hnodup.subperm hsub).length_le
  rw [List.length_range', List.length_map] at hlength
  omega

/-- The request asks the server to create something. -/
def Request.creates : Request → Bool
  | .postUser _ _ | .postProfileUser _ _ _ _ => true
  | _ => false

/-- A request that creates nothing has a documented answer; only a deletion changes the store. -/
theorem exists_answer (hoptions : ∀ itemtype, server.idOption itemtype ≠ server.nameOption itemtype) (s : Store)
    {r : Request} (hr : r.creates = false) :
    ∃ response s', server.Answers s r response s' ∧ (s' = s ∨ ∃ id, r = .deleteProfileUser id ∧ s' = s.without id) := by
  have haffirms : Affirms ⟨200, ⟨trueLiteral, none⟩⟩ := ⟨rfl, by decide⟩
  cases r with
  | initSession =>
      exact ⟨⟨200, ⟨[], some (.obj [("session_token", .str "s")])⟩⟩, s, ⟨rfl, "s", rfl, by decide, by decide, rfl⟩,
        Or.inl rfl⟩
  | changeActiveEntities => exact ⟨_, s, ⟨rfl, haffirms⟩, Or.inl rfl⟩
  | killSession => exact ⟨_, s, ⟨rfl, haffirms⟩, Or.inl rfl⟩
  | getFullSession =>
      refine ⟨⟨200, ⟨[], some (.obj [("session", .obj [("glpishowallentities", .nat 1)])])⟩⟩, s, ⟨rfl, rfl, _, rfl,
        ?_, by simp⟩, Or.inl rfl⟩
      simp [Distinct]
  | listSearchOptions itemtype => exact ⟨_, s, ⟨rfl, listsOptions_document (hoptions itemtype)⟩, Or.inl rfl⟩
  | search q =>
      exact ⟨_, s, ⟨rfl, fun _ => pageOf_pageDocument (hoptions q.itemtype) (server.optionBound _)
        (server.optionBound _) _ _ _⟩, Or.inl rfl⟩
  | getProfileUser id =>
      by_cases h : ∃ a ∈ s.assignments, a.id = id
      · obtain ⟨a, ha, rfl⟩ := h
        refine ⟨itemDocument a, s, ⟨rfl, fun b hb hid => ?_, fun hnone => absurd rfl (hnone a ha)⟩, Or.inl rfl⟩
        rw [List.inj_on_of_nodup_map s.assignmentKeys.1 hb ha hid]
        exact itemOf_itemDocument a
      · refine ⟨⟨404, ⟨[], none⟩⟩, s, ⟨rfl, fun a ha hid => absurd ⟨a, ha, hid⟩ h, fun _ => by decide⟩, Or.inl rfl⟩
  | deleteProfileUser id =>
      exact ⟨deletionDocument id, s.without id, fun _ => ⟨deletes_deletionDocument id, s.removes_without id⟩,
        Or.inr ⟨id, rfl, rfl⟩⟩
  | postUser name source => cases hr
  | postProfileUser u p e b => cases hr

end PermissionSync.Glpi
