import PermissionSync.Glpi.Search
import PermissionSync.Glpi.Server.Store
import PermissionSync.Wire.Access

/-!
# The documented answers of a GLPI server

The JSON documents that the REST interface sends, and what each request does to the store. A document may have members
that are not named here. An answer that the documentation leaves open is unconstrained.
-/

namespace PermissionSync.Glpi

open PermissionSync.Base PermissionSync.Wire

def numeral (n : Nat) : String := String.ofList (decimal n)

/-- No member is repeated. -/
def Distinct (ms : List (String × Json)) : Prop := (ms.map Prod.fst).Nodup

/-! ## Session documents -/

def Begins (token : String) (response : RawResponse) : Prop :=
  response.status = 200 ∧ token ≠ "" ∧ headerValueOk token = true ∧
    response.body.json = some (.obj [("session_token", .str token)])

/-- The literal `true`, possibly between whitespace. -/
def Affirms (response : RawResponse) : Prop :=
  response.status = 200 ∧ trimAscii response.body.bytes = trueLiteral

def ShowsAllEntities (response : RawResponse) : Prop :=
  response.status = 200 ∧ ∃ ms, response.body.json = some (.obj [("session", .obj ms)]) ∧ Distinct ms ∧
    ("glpishowallentities", Json.nat 1) ∈ ms

/-! ## Search documents -/

def Itemtype.idUid : Itemtype → String
  | .entity => "Entity.id"
  | .profile => "Profile.id"
  | .user => "User.id"
  | .profileUser => "Profile_User.id"

def Itemtype.nameUid : Itemtype → String
  | .entity => "Entity.completename"
  | .profile => "Profile.name"
  | .user => "User.name"
  | .profileUser => "Profile_User.User.name"

def uidOf (entry : Json) : Option String := (entry.asObject.bind (member · "uid")).bind Json.asStr

/-- The metadata has one entry for each of the `uid`s, under the numeral of its search option. -/
def ListsOptions (option : String → Nat) (uids : List String) (response : RawResponse) : Prop :=
  response.status = 200 ∧ ∃ ms, response.body.json = some (.obj ms) ∧ Distinct ms ∧
    ∀ uid ∈ uids, (∃ entry, (numeral (option uid), entry) ∈ ms ∧ uidOf entry = some uid) ∧
      ∀ m ∈ ms, uidOf m.2 = some uid → m.1 = numeral (option uid)

/-- A row has its values under the numerals of search options. Ids are numbers or numerals. -/
def RowOf (idField nameField : Nat) (x : Nat × String) (row : Json) : Prop :=
  ∃ ms id, row = .obj ms ∧ Distinct ms ∧ (∀ m ∈ ms, ∃ field < u64Bound, m.1 = numeral field) ∧
    (numeral idField, id) ∈ ms ∧ (id = .nat x.1 ∨ id = .str (numeral x.1)) ∧ (numeral nameField, .str x.2) ∈ ms

def slice {α : Type} (l : List α) (start stop : Nat) : List α := (l.drop start).take (stop + 1 - start)

def contentRangeOf (start count total : Nat) : String :=
  if total = 0 then "0--1/0"
  else String.ofList (decimal start ++ '-' :: decimal (start + count - 1) ++ '/' :: decimal total)

/-- The page `start-stop` of a list. A range that begins after the end of the list is refused. -/
def PageOf (idField nameField : Nat) (l : List (Nat × String)) (start stop : Nat) (response : RawResponse) : Prop :=
  if start = 0 ∨ start < l.length then
    response.status = (if (slice l start stop).length = l.length then 200 else 206) ∧
    ∃ ms rows, response.body.json = some (.obj ms) ∧ Distinct ms ∧ ("totalcount", Json.nat l.length) ∈ ms ∧
      ("count", Json.nat (slice l start stop).length) ∈ ms ∧
      ("content-range", Json.str (contentRangeOf start (slice l start stop).length l.length)) ∈ ms ∧
      List.Forall₂ (RowOf idField nameField) (slice l start stop) rows ∧
      if l = [] then "data" ∉ ms.map Prod.fst else ("data", Json.arr rows) ∈ ms
  else response.status = 400

/-! ## Item documents -/

def ItemOf (a : Assignment) (response : RawResponse) : Prop :=
  response.status = 200 ∧ ∃ ms, response.body.json = some (.obj ms) ∧ Distinct ms ∧ ("id", Json.nat a.id) ∈ ms ∧
    ("users_id", Json.nat a.usersId) ∈ ms ∧ ("profiles_id", Json.nat a.profilesId) ∈ ms ∧
    ("entities_id", Json.nat a.entitiesId) ∈ ms ∧ ("is_recursive", Json.nat a.isRecursive.toNat) ∈ ms

def Creates (id : Nat) (response : RawResponse) : Prop :=
  response.status = 201 ∧ ∃ ms message, response.body.json = some (.obj ms) ∧ Distinct ms ∧
    ("id", Json.nat id) ∈ ms ∧ ("message", Json.str message) ∈ ms ∧
    ∀ m ∈ ms, m.1 ∈ ["id", "message", "upload_result"]

/-! ## The confirmation of a deletion -/

/-- An array of one object, in which the numeral of the id is mapped to `true` and `message` to a string, in any order
and with nothing but whitespace around the array. -/
def ConfirmsDeletion (id : Nat) (bytes : List UInt8) : Prop :=
  ∃ before w t w' after message, bytes = before ++ 91 :: (w ++ 123 :: (t ++ 125 :: (w' ++ 93 :: after))) ∧
    Spaces before ∧ Spaces after ∧ Spaces w ∧ Spaces w' ∧
    FieldsText (numeral id) "message" BoolText (fun s t => Spells t s) true message t

def Deletes (id : Nat) (response : RawResponse) : Prop :=
  response.status = 200 ∧ ConfirmsDeletion id response.body.bytes

/-! ## Changes of the store -/

/-- A new account, with any rows of its own. -/
structure Store.AddsAccount (s : Store) (id : Nat) (name : String) (s' : Store) : Prop where
  entities : s'.entities = s.entities
  profiles : s'.profiles = s.profiles
  fresh : id ∉ s.accounts.map Account.id
  accounts : ∀ a, a ∈ s'.accounts ↔ a ∈ s.accounts ∨ a = ⟨id, name, false⟩
  assignments : ∀ a, a.usersId ≠ id → (a ∈ s'.assignments ↔ a ∈ s.assignments)

structure Store.AddsAssignment (s : Store) (new : Assignment) (s' : Store) : Prop where
  entities : s'.entities = s.entities
  profiles : s'.profiles = s.profiles
  accounts : s'.accounts = s.accounts
  fresh : new.id ∉ s.assignments.map Assignment.id
  assignments : ∀ a, a ∈ s'.assignments ↔ a ∈ s.assignments ∨ a = new

structure Store.RemovesAssignment (s : Store) (id : Nat) (s' : Store) : Prop where
  entities : s'.entities = s.entities
  profiles : s'.profiles = s.profiles
  accounts : s'.accounts = s.accounts
  assignments : ∀ a, a ∈ s'.assignments ↔ a ∈ s.assignments ∧ a.id ≠ id

/-! ## The server -/

/-- What a server has installed: the numbers of its search options, and what its text search finds. It finds at least
the exact matches. -/
structure Server where
  option : String → Nat
  optionBound : ∀ uid, option uid < u64Bound
  finds : Itemtype → String → Nat → String → Bool
  exact : ∀ itemtype selector id, finds itemtype (exactSearchQueryValue selector) id selector = true

namespace Server

def idOption (server : Server) (itemtype : Itemtype) : Nat := server.option itemtype.idUid

def nameOption (server : Server) (itemtype : Itemtype) : Nat := server.option itemtype.nameUid

/-- The matches of a search, in ascending order of their ids. -/
def found (server : Server) (s : Store) (q : SearchQuery) : List (Nat × String) :=
  sortByKey Prod.fst ((s.listed q.itemtype q.isDeleted).filter fun x =>
    server.finds q.itemtype q.criterionValue x.1 x.2)

/-- The search is on the name, ordered by the id, and shows both. -/
structure ByName (server : Server) (q : SearchQuery) : Prop where
  criterion : q.criterionField = server.nameOption q.itemtype
  sort : q.sort = server.idOption q.itemtype
  showsId : server.idOption q.itemtype ∈ q.forcedisplay
  showsName : server.nameOption q.itemtype ∈ q.forcedisplay

/-- The documented answer to a request, and the store after it. -/
def Answers (server : Server) (s : Store) : Request → RawResponse → Store → Prop
  | .initSession, response, s' => s' = s ∧ ∃ token, Begins token response
  | .changeActiveEntities, response, s' => s' = s ∧ Affirms response
  | .getFullSession, response, s' => s' = s ∧ ShowsAllEntities response
  | .killSession, response, s' => s' = s ∧ Affirms response
  | .listSearchOptions itemtype, response, s' =>
      s' = s ∧ ListsOptions server.option [itemtype.idUid, itemtype.nameUid] response
  | .search q, response, s' =>
      s' = s ∧ (server.ByName q → PageOf (server.idOption q.itemtype) (server.nameOption q.itemtype)
        (server.found s q) q.rangeStart q.rangeEnd response)
  | .getProfileUser id, response, s' =>
      s' = s ∧ (∀ a ∈ s.assignments, a.id = id → ItemOf a response) ∧
        ((∀ a ∈ s.assignments, a.id ≠ id) → response.status ≠ 200)
  | .postUser name _, response, s' =>
      (∀ a ∈ s.accounts, a.name ≠ name) → ∃ id, Creates id response ∧ s.AddsAccount id name s'
  | .postProfileUser usersId profilesId entitiesId isRecursive, response, s' =>
      (∃ a ∈ s.accounts, a.id = usersId) → (∃ p ∈ s.profiles, p.id = profilesId) →
      (∃ e ∈ s.entities, e.id = entitiesId) →
        ∃ id, Creates id response ∧ s.AddsAssignment ⟨id, usersId, profilesId, entitiesId, isRecursive⟩ s'
  | .deleteProfileUser id, response, s' =>
      (∃ a ∈ s.assignments, a.id = id) → Deletes id response ∧ s.RemovesAssignment id s'

/-- An operation of an uncancelled reconciliation before its deadline. -/
def step (server : Server) (deadline : Instant) (s : Store) (e : Event glpi) (s' : Store) : Prop :=
  match e with
  | ⟨.isCancelled, b⟩ => s' = s ∧ b = false
  | ⟨.now, n⟩ => s' = s ∧ (show Instant from n) < deadline
  | ⟨.request call, answer⟩ => ∃ response, answer = .ok response ∧ server.Answers s call.request response s'

end Server

end PermissionSync.Glpi
