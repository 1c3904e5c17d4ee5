import PermissionSync.Base.Sort
import PermissionSync.Glpi.Interface

/-!
# What a GLPI server stores

The tables that the adapter reads and changes. Keys are database keys: distinct within their table, below the bound of
a signed 64-bit integer, and positive except for the root entity.
-/

namespace PermissionSync.Glpi

open PermissionSync.Base

def keyBound : Nat := 2 ^ 63

/-- Distinct positive keys. -/
def Keys (ids : List Nat) : Prop := ids.Nodup ∧ ∀ i ∈ ids, 0 < i ∧ i < keyBound

/-- An entity with its complete name, or a profile with its name. -/
structure NamedItem where
  id : Nat
  name : String
deriving DecidableEq, Repr

structure Account where
  id : Nat
  name : String
  isDeleted : Bool
deriving DecidableEq, Repr

/-- A row of `Profile_User`. -/
structure Assignment where
  id : Nat
  usersId : Nat
  profilesId : Nat
  entitiesId : Nat
  isRecursive : Bool
deriving DecidableEq, Repr

structure Store where
  entities : List NamedItem
  profiles : List NamedItem
  accounts : List Account
  assignments : List Assignment
  entityKeys : (entities.map NamedItem.id).Nodup ∧ ∀ e ∈ entities, e.id < keyBound
  profileKeys : Keys (profiles.map NamedItem.id)
  accountKeys : Keys (accounts.map Account.id)
  assignmentKeys : Keys (assignments.map Assignment.id)
  owned : ∀ a ∈ assignments, ∃ account ∈ accounts, account.id = a.usersId
  granted : ∀ a ∈ assignments, (0 < a.profilesId ∧ a.profilesId < keyBound) ∧ a.entitiesId < keyBound

namespace Store

/-! ## What a search lists -/

/-- The name of the owner of a row. -/
def ownerName (s : Store) (a : Assignment) : String :=
  ((s.accounts.find? fun account => account.id = a.usersId).map Account.name).getD ""

/-- The items of an itemtype with the names that a search shows. -/
def listed (s : Store) (itemtype : Itemtype) (isDeleted : Option Bool) : List (Nat × String) :=
  match itemtype with
  | .entity => s.entities.map fun e => (e.id, e.name)
  | .profile => s.profiles.map fun p => (p.id, p.name)
  | .user => (s.accounts.filter fun a => a.isDeleted = isDeleted.getD false).map fun a => (a.id, a.name)
  | .profileUser => s.assignments.map fun a => (a.id, s.ownerName a)

/-- The account that owns a row is the one with its `users_id`. -/
theorem ownerName_eq {s : Store} {a : Assignment} {account : Account} (h : account ∈ s.accounts)
    (hid : account.id = a.usersId) : s.ownerName a = account.name := by
  unfold ownerName
  cases hfind : s.accounts.find? fun account => account.id = a.usersId with
  | none => exact absurd hid (by simpa using List.find?_eq_none.mp hfind account h)
  | some found =>
      have hfound : found.id = a.usersId := by simpa using List.find?_some hfind
      have := List.inj_on_of_nodup_map s.accountKeys.1 (List.mem_of_find?_eq_some hfind) h (hfound.trans hid.symm)
      simp [this]

theorem listed_nodup (s : Store) (itemtype : Itemtype) (isDeleted : Option Bool) :
    ((s.listed itemtype isDeleted).map Prod.fst).Nodup := by
  cases itemtype with
  | entity => simpa [listed, Function.comp_def] using s.entityKeys.1
  | profile => simpa [listed, Function.comp_def] using s.profileKeys.1
  | user =>
      have := s.accountKeys.1.sublist ((List.filter_sublist (p := fun a => a.isDeleted = isDeleted.getD false)).map
        Account.id)
      simpa [listed, Function.comp_def] using this
  | profileUser => simpa [listed, Function.comp_def] using s.assignmentKeys.1

theorem listed_lt (s : Store) {itemtype : Itemtype} {isDeleted : Option Bool} {x : Nat × String}
    (h : x ∈ s.listed itemtype isDeleted) : x.1 < keyBound := by
  cases itemtype with
  | entity =>
      obtain ⟨e, he, rfl⟩ := List.mem_map.mp h
      exact s.entityKeys.2 e he
  | profile =>
      obtain ⟨p, hp, rfl⟩ := List.mem_map.mp h
      exact (s.profileKeys.2 _ (List.mem_map_of_mem hp)).2
  | user =>
      obtain ⟨a, ha, rfl⟩ := List.mem_map.mp h
      exact (s.accountKeys.2 _ (List.mem_map_of_mem (List.mem_of_mem_filter ha))).2
  | profileUser =>
      obtain ⟨a, ha, rfl⟩ := List.mem_map.mp h
      exact (s.assignmentKeys.2 _ (List.mem_map_of_mem ha)).2

theorem listed_pos (s : Store) {itemtype : Itemtype} {isDeleted : Option Bool} {x : Nat × String}
    (h : x ∈ s.listed itemtype isDeleted) (hi : itemtype ≠ .entity) : x.1 ≠ 0 := by
  cases itemtype with
  | entity => exact absurd rfl hi
  | profile =>
      obtain ⟨p, hp, rfl⟩ := List.mem_map.mp h
      exact (s.profileKeys.2 _ (List.mem_map_of_mem hp)).1.ne'
  | user =>
      obtain ⟨a, ha, rfl⟩ := List.mem_map.mp h
      exact (s.accountKeys.2 _ (List.mem_map_of_mem (List.mem_of_mem_filter ha))).1.ne'
  | profileUser =>
      obtain ⟨a, ha, rfl⟩ := List.mem_map.mp h
      exact (s.assignmentKeys.2 _ (List.mem_map_of_mem ha)).1.ne'

end Store

/-- Distinct keys below the bound are not more than the bound. -/
theorem length_le_keyBound {l : List Nat} (h : l.Nodup) (hlt : ∀ i ∈ l, i < keyBound) : l.length ≤ keyBound := by
  have hsub : l ⊆ List.range keyBound := fun i hi => List.mem_range.mpr (hlt i hi)
  simpa using (h.subperm hsub).length_le

end PermissionSync.Glpi
