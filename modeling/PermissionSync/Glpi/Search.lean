import PermissionSync.Glpi.Plan
import PermissionSync.Glpi.Session

/-!
# Search (`permissionsync-adapter-glpi/src/search.rs`)

Search options, the paged search, exact matching on the adapter's side, and the authoritative read of a user's
`Profile_User` rows. What a loop does with one response is a pure function of the response and of what the loop
carries.
-/

namespace PermissionSync.Glpi

open PermissionSync.Base PermissionSync.Wire

def pageSize : Nat := 50

/-- The bytes PHP trims. -/
def isPhpTrim (c : Char) : Bool := [32, 9, 10, 13, 0, 11].contains c.toNat

def exactSearchQueryValue (selector : String) : String :=
  let cs := selector.toList
  String.ofList <|
    '^' :: (if cs.head?.any isPhpTrim then ['%'] else []) ++ cs ++
      (if cs.getLast?.any isPhpTrim then ['%'] else []) ++ ['$']

/-! ## Search options -/

/-- The search-option ids of the required fields of one itemtype, by `uid`. -/
structure SearchOptions where
  ids : Std.TreeMap String Nat

/-- `SearchOptions::require`. -/
def SearchOptions.require (options : SearchOptions) (uid : String) : Except GlpiFailure Nat :=
  okOr options.ids[uid]? .searchMetadataUnavailable

def requiredEntityUids : List String := ["Entity.id", "Entity.completename"]

def requiredProfileUids : List String := ["Profile.id", "Profile.name"]

def requiredUserUids : List String := ["User.id", "User.name"]

def requiredProfileUserUids : List String := ["Profile_User.id", "Profile_User.User.name"]

/-- The required `uid` and the id of one search option; other members are passed over. -/
def searchOption (requiredUids : List String) (m : String × Json) : Option (String × Nat) := do
  let entry ← m.2.asObject
  let uid ← (member entry "uid").bind Json.asStr
  let requiredUid ← requiredUids.find? (· == uid)
  let optionId ← parseU64 m.1.toList
  some (requiredUid, optionId)

/-- One turn of the loop over the metadata. A second id for a required `uid` is ambiguous. -/
def optionEntry (requiredUids : List String) (found : Std.TreeMap String Nat) (m : String × Json) :
    Except GlpiFailure (Std.TreeMap String Nat) :=
  match searchOption requiredUids m with
  | none => .ok found
  | some (uid, optionId) => do
      ensure (uid ∉ found) .searchMetadataUnavailable
      return found.insert uid optionId

def readSearchOptions (requiredUids : List String) (response : RawResponse) : Except GlpiFailure SearchOptions := do
  ensure (response.status = 200) .searchMetadataUnavailable
  let object ← okOr (response.body.json.bind Json.asObject) .searchMetadataUnavailable
  let found ← object.foldlM (optionEntry requiredUids) ∅
  ensure (∀ uid ∈ requiredUids, uid ∈ found) .searchMetadataUnavailable
  return ⟨found⟩

def fetchSearchOptions (config : ValidatedConfig) (session : GlpiSession) (itemtype : Itemtype)
    (requiredUids : List String) : Instant → Io SearchOptions :=
  exchange (.listSearchOptions itemtype) (sessionHeaders session config) (readSearchOptions requiredUids)

/-! ## One page -/

structure SearchPage where
  totalCount : Nat
  count : Nat
  returnedEnd : Nat
  data : List Json

/-- `WireSearchPage`: `data` is missing or an array. -/
structure WireSearchPage where
  totalcount : Nat
  count : Nat
  contentRange : String
  data : Option (List Json)

def WireSearchPage.decode (j : Json) : Option WireSearchPage :=
  match structFields ["totalcount", "count", "content-range", "data"] false j with
  | some [some total, some count, some (.str contentRange), data] => do
      let total ← total.asU64
      let count ← count.asU64
      match data with
      | none => some ⟨total, count, contentRange, none⟩
      | some (.arr rows) => some ⟨total, count, contentRange, some rows⟩
      | some _ => none
  | _ => none

/-- The parts of `start-end/total`. -/
def parseContentRange (contentRange : String) : Option (Nat × Nat × Nat) := do
  let (range, total) ← rsplitOnce '/' contentRange.toList
  let total ← parseU64 total
  let (first, last) ← splitOnce '-' range
  let first ← parseU64 first
  let last ← parseU64 last
  some (first, last, total)

/-- The checks on a page of a search that has results. A short page is valid only at the end. -/
def RangeOk (requestedStart requestedEnd total count : Nat) (range : Nat × Nat × Nat) : Prop :=
  range.2.2 = total ∧ range.1 = requestedStart ∧ range.1 ≤ range.2.1 ∧ range.2.1 ≤ requestedEnd ∧
    range.2.1 < total ∧ range.2.1 - range.1 + 1 = count ∧ (range.2.1 = requestedEnd ∨ range.2.1 = total - 1)

instance (requestedStart requestedEnd total count : Nat) (range : Nat × Nat × Nat) :
    Decidable (RangeOk requestedStart requestedEnd total count range) :=
  inferInstanceAs (Decidable (_ ∧ _))

def parseSearchPage (body : Text) (requestedStart requestedEnd : Nat) : Except GlpiFailure SearchPage := do
  let page ← okOr (body.json.bind WireSearchPage.decode) .searchPagination
  if page.totalcount = 0 then
    ensure (requestedStart = 0 ∧ page.count = 0 ∧ page.contentRange = "0--1/0" ∧ page.data.isNone) .searchPagination
    return { totalCount := page.totalcount, count := page.count, returnedEnd := 0, data := [] }
  else
    let data ← okOr page.data .searchPagination
    ensure (page.count ≠ 0 ∧ page.count = data.length ∧ page.count ≤ page.totalcount) .searchPagination
    let range ← okOr (parseContentRange page.contentRange) .searchPagination
    ensure (RangeOk requestedStart requestedEnd page.totalcount page.count range) .searchPagination
    return { totalCount := page.totalcount, count := page.count, returnedEnd := range.2.1, data := data }

/-! ## Rows -/

/-- One search row, by search-option id. -/
abbrev Row := Std.TreeMap Nat Json

def rowMember (row : Row) (m : String × Json) : Except GlpiFailure Row := do
  let optionId ← okOr (parseU64 m.1.toList) .searchPagination
  return row.insert optionId m.2

def parseRow (entry : Json) : Except GlpiFailure Row := do
  let ms ← okOr entry.asObject .searchPagination
  ms.foldlM rowMember ∅

def requiredStringField (row : Row) (field : Nat) : Except GlpiFailure String :=
  okOr (row[field]?.bind Json.asStr) .searchPagination

def numericId (row : Row) (field : Nat) (allowZero : Bool) : Option Nat :=
  let id := match row[field]? with
    | some (.num n) => n.asU64
    | some (.str text) => parseU64 text.toList
    | _ => none
  id.filter fun id => allowZero || id != 0

/-! ## The paged search -/

/-- What every page of one search has in common. -/
structure SearchSpec where
  itemtype : Itemtype
  criterionField : Nat
  selector : String
  forcedisplay : List Nat
  sortField : Nat
  isDeleted : Option Bool

def SearchSpec.query (spec : SearchSpec) (start stop : Nat) : SearchQuery where
  itemtype := spec.itemtype
  rangeStart := start
  rangeEnd := stop
  criterionField := spec.criterionField
  criterionValue := exactSearchQueryValue spec.selector
  sort := spec.sortField
  isDeleted := spec.isDeleted
  forcedisplay := spec.forcedisplay

/-- What the loop carries from page to page. -/
structure SearchState where
  rows : List Row
  start : Nat
  expectedTotal : Option Nat

/-- How a page ends its turn of the loop. -/
inductive Turn where
  | done (rows : List Row)
  | more (next : SearchState)

/-- The status of a response that returns all matches, or some of them. -/
def SearchPage.expectedStatus (page : SearchPage) : Nat := if page.count = page.totalCount then 200 else 206

/-- What the loop does with the response to the page `start-stop`. -/
def pageTurn (state : SearchState) (stop : Nat) (response : RawResponse) : Except GlpiFailure Turn := do
  let page ← parseSearchPage response.body state.start stop
  ensure (response.status = page.expectedStatus) .searchPagination
  ensure (∀ expected ∈ state.expectedTotal, expected = page.totalCount) .searchPagination
  let new ← page.data.mapM parseRow
  let rows := state.rows ++ new
  if page.totalCount = 0 then
    return .done rows
  else
    ensure (rows.length = saturatingAdd page.returnedEnd 1) .searchPagination
    if rows.length = page.totalCount then
      return .done rows
    else
      let next ← okOr (checkedAdd page.returnedEnd 1) .searchPagination
      return .more ⟨rows, next, some page.totalCount⟩

theorem le_returnedEnd {body : Text} {start stop : Nat} {page : SearchPage}
    (h : parseSearchPage body start stop = .ok page) (h0 : page.totalCount ≠ 0) : start ≤ page.returnedEnd := by
  simp only [parseSearchPage, bind_eq_ok] at h
  obtain ⟨wire, _, h⟩ := h
  split at h
  · rename_i ht
    simp only [bind_eq_ok, pure_eq_ok, Except.ok.injEq] at h
    obtain ⟨_, _, rfl⟩ := h
    exact absurd ht h0
  · simp only [bind_eq_ok, ensure_eq_ok, pure_eq_ok, Except.ok.injEq] at h
    obtain ⟨data, _, _, _, range, _, _, hr, rfl⟩ := h
    exact hr.2.1 ▸ hr.2.2.1

/-- Every further page starts later, so the loop ends. -/
theorem start_lt_of_more {state next : SearchState} {stop : Nat} {response : RawResponse}
    (h : pageTurn state stop response = .ok (.more next)) :
    state.start < next.start ∧ next.start < u64Bound := by
  simp only [pageTurn, bind_eq_ok, ensure_eq_ok] at h
  obtain ⟨page, hpage, _, _, _, _, new, _, h⟩ := h
  split at h
  · cases h
  · rename_i h0
    have hs := le_returnedEnd hpage h0
    simp only [bind_eq_ok, ensure_eq_ok] at h
    obtain ⟨_, _, h⟩ := h
    split at h
    · cases h
    · simp only [bind_eq_ok, okOr_eq_ok, pure_eq_ok, Except.ok.injEq, Turn.more.injEq] at h
      obtain ⟨n, hn, rfl⟩ := h
      obtain ⟨rfl, hb⟩ := checkedAdd_eq_some.mp hn
      exact ⟨Nat.lt_succ_of_le hs, hb⟩

/-- The request of one page or of one item: its headers, its own deadline, the call. -/
def fetch (config : ValidatedConfig) (session : GlpiSession) (request : Request) (context : SynchronizationContext) :
    Io RawResponse := do
  let headers ← .lift (sessionHeaders session config)
  let deadline ← effectiveDeadline context config.operationTimeout
  send { request := request, headers := headers, deadline := deadline }

/-- The loop of `search_all_pages`. -/
def searchLoop (config : ValidatedConfig) (session : GlpiSession) (spec : SearchSpec)
    (context : SynchronizationContext) (state : SearchState) : Io (List Row) :=
  match checkedAdd state.start (pageSize - 1) with
  | none => .fail .searchPagination
  | some stop => do
      let response ← fetch config session (.search (spec.query state.start stop)) context
      match _h : pageTurn state stop response with
      | .error e => .fail e
      | .ok (.done rows) => pure rows
      | .ok (.more next) => searchLoop config session spec context next
termination_by u64Bound - state.start
decreasing_by
  obtain ⟨hlt, hb⟩ := start_lt_of_more _h
  omega

def searchAllPages (config : ValidatedConfig) (session : GlpiSession) (spec : SearchSpec)
    (context : SynchronizationContext) : Io (List Row) :=
  searchLoop config session spec context ⟨[], 0, none⟩

/-! ## Exact matching -/

/-- One turn of the loop that collects the ids of the rows whose name is the selector. -/
def exactId (idField nameField : Nat) (selector : String) (allowZero : Bool) (ids : List Nat) (row : Row) :
    Except GlpiFailure (List Nat) := do
  let name ← requiredStringField row nameField
  if name = selector then
    let id ← okOr (numericId row idField allowZero) .malformedReference
    return if id ∈ ids then ids else ids ++ [id]
  else
    return ids

/-- The distinct ids of the exact matches, in their first-observed order. -/
def exactIds (rows : List Row) (idField nameField : Nat) (selector : String) (allowZero : Bool) :
    Except GlpiFailure (List Nat) :=
  rows.foldlM (exactId idField nameField selector allowZero) []

def exactPositiveIds (rows : List Row) (idField nameField : Nat) (selector : String) :
    Except GlpiFailure (List Nat) :=
  exactIds rows idField nameField selector false

/-- Exactly one exact match is a resolution. -/
def onlyMatch : List Nat → Except GlpiFailure Nat
  | [] => .error .missingReference
  | [only] => .ok only
  | _ => .error .ambiguousReference

/-- The search that narrows the rows of an itemtype to a selector. -/
def narrowing (itemtype : Itemtype) (idField nameField : Nat) (selector : String) (isDeleted : Option Bool) :
    SearchSpec where
  itemtype := itemtype
  criterionField := nameField
  selector := selector
  forcedisplay := [idField, nameField]
  sortField := idField
  isDeleted := isDeleted

def resolveExactId (config : ValidatedConfig) (session : GlpiSession) (itemtype : Itemtype)
    (idField nameField : Nat) (selector : String) (allowZeroId : Bool) (context : SynchronizationContext) :
    Io Nat := do
  let rows ← searchAllPages config session (narrowing itemtype idField nameField selector none) context
  let ids ← .lift (exactIds rows idField nameField selector allowZeroId)
  .lift (onlyMatch ids)

/-- The root entity has the id zero. -/
def resolveEntityId (config : ValidatedConfig) (session : GlpiSession) (options : SearchOptions)
    (selector : String) (context : SynchronizationContext) : Io Nat := do
  let idField ← .lift (options.require "Entity.id")
  let nameField ← .lift (options.require "Entity.completename")
  resolveExactId config session .entity idField nameField selector true context

def resolveProfileId (config : ValidatedConfig) (session : GlpiSession) (options : SearchOptions)
    (selector : String) (context : SynchronizationContext) : Io Nat := do
  let idField ← .lift (options.require "Profile.id")
  let nameField ← .lift (options.require "Profile.name")
  resolveExactId config session .profile idField nameField selector false context

/-- A deleted exact match makes absence unsafe, several active ones make selection unsafe. -/
def selectUser (activeMatches deletedMatches : List Nat) : Except GlpiFailure (Option Nat) := do
  ensure (deletedMatches = [] ∧ activeMatches.length ≤ 1) .ambiguousReference
  return activeMatches.head?

def resolveUserId (config : ValidatedConfig) (session : GlpiSession) (options : SearchOptions)
    (username : String) (context : SynchronizationContext) : Io (Option Nat) := do
  let idField ← .lift (options.require "User.id")
  let nameField ← .lift (options.require "User.name")
  let activeRows ← searchAllPages config session (narrowing .user idField nameField username (some false)) context
  let deletedRows ← searchAllPages config session (narrowing .user idField nameField username (some true)) context
  let activeMatches ← .lift (exactPositiveIds activeRows idField nameField username)
  let deletedMatches ← .lift (exactPositiveIds deletedRows idField nameField username)
  .lift (selectUser activeMatches deletedMatches)

/-! ## Current assignments -/

structure ProfileUserItem where
  usersId : Nat
  profilesId : Nat
  entitiesId : Nat
  isRecursive : Bool
deriving DecidableEq, Repr

/-- A plain numeric member. -/
def numericMember (object : List (String × Json)) (name : String) : Except GlpiFailure Nat :=
  okOr ((member object name).bind Json.asU64) .searchPagination

/-- A positive plain numeric member. -/
def positiveMember (object : List (String × Json)) (name : String) : Except GlpiFailure Nat := do
  let n ← numericMember object name
  ensure (n ≠ 0) .searchPagination
  return n

/-- `is_recursive` is the wire integer zero or one. -/
def recursiveMember (object : List (String × Json)) : Except GlpiFailure Bool := do
  let n ← numericMember object "is_recursive"
  ensure (n = 0 ∨ n = 1) .searchPagination
  return n = 1

def readItem (id : Nat) (response : RawResponse) : Except GlpiFailure ProfileUserItem := do
  ensure (response.status = 200) .searchPagination
  let object ← okOr (response.body.json.bind Json.asObject) .searchPagination
  let itemId ← positiveMember object "id"
  ensure (itemId = id) .searchPagination
  let usersId ← positiveMember object "users_id"
  let profilesId ← positiveMember object "profiles_id"
  let entitiesId ← numericMember object "entities_id"
  let isRecursive ← recursiveMember object
  return { usersId := usersId, profilesId := profilesId, entitiesId := entitiesId, isRecursive := isRecursive }

def readProfileUserItem (config : ValidatedConfig) (session : GlpiSession) (id : Nat)
    (context : SynchronizationContext) : Io ProfileUserItem := do
  let response ← fetch config session (.getProfileUser id) context
  .lift (readItem id response)

/-- The row of a candidate, whose raw owner has to be the resolved user. -/
def ProfileUserItem.row (item : ProfileUserItem) (userId candidateId : Nat) : Except GlpiFailure CurrentRow := do
  ensure (item.usersId = userId) .searchPagination
  return { id := candidateId, entitiesId := item.entitiesId, profilesId := item.profilesId,
           isRecursive := item.isRecursive }

/-- One turn of the loop over the candidates. -/
def readCandidate (config : ValidatedConfig) (session : GlpiSession) (userId : Nat)
    (context : SynchronizationContext) (current : List CurrentRow) (candidateId : Nat) : Io (List CurrentRow) := do
  let item ← readProfileUserItem config session candidateId context
  let row ← .lift (item.row userId candidateId)
  pure (current ++ [row])

def readCurrentAssignments (config : ValidatedConfig) (session : GlpiSession) (options : SearchOptions)
    (username : String) (userId : Nat) (context : SynchronizationContext) : Io (List CurrentRow) := do
  let idField ← .lift (options.require "Profile_User.id")
  let userNameField ← .lift (options.require "Profile_User.User.name")
  let rows ← searchAllPages config session (narrowing .profileUser idField userNameField username none) context
  let candidateIds ← .lift (exactIds rows idField userNameField username false)
  candidateIds.foldlM (readCandidate config session userId context) []

end PermissionSync.Glpi
