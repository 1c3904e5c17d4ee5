import PermissionSync.Base.Interleave
import PermissionSync.Glpi.Server.Documents

/-!
# A GLPI server that others use too

What may happen to the tables between the requests of a reconciliation, and what its requests are then answered. Each
request is executed at one instant.
-/

namespace PermissionSync.Glpi

open PermissionSync.Base

/-! ## Accounts -/

/-- Accounts are only added, with ids larger than those of all accounts before. -/
structure Store.AccountsGrow (s s' : Store) : Prop where
  kept : ∀ a ∈ s.accounts, a ∈ s'.accounts
  later : ∀ a ∈ s'.accounts, a ∈ s.accounts ∨ ∀ b ∈ s.accounts, b.id < a.id

theorem Store.AccountsGrow.refl (s : Store) : s.AccountsGrow s := ⟨fun _ => id, fun _ => Or.inl⟩

theorem Store.AccountsGrow.trans {s s' s'' : Store} (h : s.AccountsGrow s') (h' : s'.AccountsGrow s'') :
    s.AccountsGrow s'' where
  kept a ha := h'.kept a (h.kept a ha)
  later a ha := by
    rcases h'.later a ha with ha | hlt
    · exact h.later a ha
    · exact Or.inr fun b hb => hlt b (h.kept b hb)

/-- The request is part of the lookup of an active user. -/
def Request.looksUpUser : Request → Bool
  | .listSearchOptions .user => true
  | .search q => q.itemtype = .user && q.isDeleted = some false
  | _ => false

/-- A step of the timeline of several reconciliations. Accounts are only added; a delivered answer to a lookup of active
users is the documented one, and a confirmed creation has created its account, whether or not the name was taken. -/
def Server.userAct {ι : Type} (server : Server) (s : Store) (act : Act ι glpi) (s' : Store) : Prop :=
  s.AccountsGrow s' ∧ match act with
    | .own _ ⟨.request call, answer⟩ => ∀ response, answer = .ok response →
        (call.request.looksUpUser = true → server.Answers s call.request response s') ∧
        ∀ name source, call.request = .postUser name source → response.status = 201 →
          ∃ id, Creates id response ∧ ⟨id, name, false⟩ ∈ s'.accounts ∧ ∀ a ∈ s.accounts, a.id < id
    | _ => True

/-! ## Rows -/

/-- The tables, and a bound of the ids of rows that were ever issued. -/
structure Shared where
  store : Store
  issued : Nat
  below : ∀ a ∈ store.assignments, a.id < issued

/-- Rows are deleted, and inserted with fresh ids; they do not change. Entities, profiles and the names of accounts stay
as they are. -/
structure Shared.Evolves (s s' : Shared) : Prop where
  entities : s'.store.entities = s.store.entities
  profiles : s'.store.profiles = s.store.profiles
  accounts : s.store.AccountsGrow s'.store
  issued : s.issued ≤ s'.issued
  rows : ∀ a ∈ s'.store.assignments, a ∈ s.store.assignments ∨ s.issued ≤ a.id

theorem Shared.Evolves.refl (s : Shared) : s.Evolves s := ⟨rfl, rfl, .refl _, le_refl _, fun _ => Or.inl⟩

theorem Shared.Evolves.trans {s s' s'' : Shared} (h : s.Evolves s') (h' : s'.Evolves s'') : s.Evolves s'' where
  entities := h'.entities.trans h.entities
  profiles := h'.profiles.trans h.profiles
  accounts := h.accounts.trans h'.accounts
  issued := h.issued.trans h'.issued
  rows a ha := by
    rcases h'.rows a ha with ha | hle
    · exact h.rows a ha
    · exact Or.inr (h.issued.trans hle)

def Request.readsTables : Request → Bool
  | .listSearchOptions _ | .search _ | .getProfileUser _ => true
  | _ => false

/-- An operation of a reconciliation, after any changes by other clients. What the operation itself changes is
unconstrained; a delivered answer to a read is the documented one of its instant. -/
def Server.among (server : Server) (s : Shared) (e : Event glpi) (s' : Shared) : Prop :=
  s.Evolves s' ∧ match e with
    | ⟨.request call, answer⟩ => ∀ response, answer = .ok response → call.request.readsTables = true →
        server.Answers s'.store call.request response s'.store
    | _ => True

/-- No row is deleted that the search for the username lists under another name. -/
def Server.Retains (server : Server) (username : String) (s s' : Shared) : Prop :=
  ∀ a ∈ s.store.assignments,
    server.finds .profileUser (exactSearchQueryValue username) a.id (s.store.ownerName a) = true →
    s.store.ownerName a ≠ username → a ∈ s'.store.assignments

def Server.amongRetaining (server : Server) (username : String) (s : Shared) (e : Event glpi) (s' : Shared) : Prop :=
  server.among s e s' ∧ server.Retains username s s'

end PermissionSync.Glpi
