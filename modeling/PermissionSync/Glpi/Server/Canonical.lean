import PermissionSync.Glpi.Payload
import PermissionSync.Glpi.Server.Store

/-!
# What a payload asks of a store

The state that a reconciliation is for, in terms of the names of the payload and the tables of the store.
-/

namespace PermissionSync.Glpi

/-- The permission is about the entity and the profile of the row. -/
def Store.Names (s : Store) (p : RawPermission) (a : Assignment) : Prop :=
  ⟨a.entitiesId, p.entity⟩ ∈ s.entities ∧ ⟨a.profilesId, p.profile⟩ ∈ s.profiles

/-- The user has exactly one row for each entity and profile of the payload, recursive if one of the permissions for
them is, and no other row. -/
structure Store.Canonical (s : Store) (permissions : List RawPermission) (userId : Nat) : Prop where
  granted : ∀ p ∈ permissions, ∃ a ∈ s.assignments, a.usersId = userId ∧ s.Names p a
  wanted : ∀ a ∈ s.assignments, a.usersId = userId → ∃ p ∈ permissions, s.Names p a ∧
    (a.isRecursive = true ↔ ∃ q ∈ permissions, q.entity = p.entity ∧ q.profile = p.profile ∧ q.recursive = true)
  once : ∀ a ∈ s.assignments, ∀ b ∈ s.assignments, a.usersId = userId → b.usersId = userId →
    a.entitiesId = b.entitiesId → a.profilesId = b.profilesId → a = b

/-- The names of the payload are unambiguous, and at most one account has the username, which is not deleted. -/
structure Store.Suits (s : Store) (permissions : List RawPermission) (username : String) : Prop where
  entities : ∀ p ∈ permissions, ∃! e, e ∈ s.entities ∧ e.name = p.entity
  profiles : ∀ p ∈ permissions, ∃! e, e ∈ s.profiles ∧ e.name = p.profile
  account : ∀ a ∈ s.accounts, ∀ b ∈ s.accounts, a.name = username → b.name = username → a = b
  active : ∀ a ∈ s.accounts, a.name = username → a.isDeleted = false

end PermissionSync.Glpi
