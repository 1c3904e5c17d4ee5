import PermissionSync.Base.Sort

/-!
# The reconciliation plan (`permissionsync-adapter-glpi/src/plan.rs`)

The plan is computed from the complete current set of `Profile_User` rows of the user and the canonical
desired set. Ids are the source's `u64` values; nothing here does arithmetic on them.
-/

namespace PermissionSync.Glpi

open PermissionSync.Base

/-- The identity of an assignment, `(entities_id, profiles_id)`, in the order of the source's tuples. -/
abbrev Pair := ℕ ×ₗ ℕ

/-- One physical current `Profile_User` row. -/
structure CurrentRow where
  id : Nat
  entitiesId : Nat
  profilesId : Nat
  isRecursive : Bool
deriving DecidableEq, Repr

/-- One canonical desired assignment with resolved numeric ids. -/
structure DesiredAssignment where
  entitiesId : Nat
  profilesId : Nat
  recursive : Bool
deriving DecidableEq, Repr

/-- One addition the plan requires. -/
structure Addition where
  entitiesId : Nat
  profilesId : Nat
  recursive : Bool
deriving DecidableEq, Repr

/-- Every removal, by row id, and every addition that has to follow them. -/
structure Plan where
  removals : List Nat
  additions : List Addition
deriving DecidableEq, Repr

def Plan.isEmpty (p : Plan) : Bool := p.removals.isEmpty && p.additions.isEmpty

def CurrentRow.pair (r : CurrentRow) : Pair := toLex (r.entitiesId, r.profilesId)

def DesiredAssignment.pair (d : DesiredAssignment) : Pair := toLex (d.entitiesId, d.profilesId)

def Addition.pair (a : Addition) : Pair := toLex (a.entitiesId, a.profilesId)

/-- The addition that grants a desired assignment. -/
def DesiredAssignment.addition (d : DesiredAssignment) : Addition :=
  { entitiesId := d.entitiesId, profilesId := d.profilesId, recursive := d.recursive }

/-- `by_pair`: the rows of each pair, in the order they were read. -/
def groupByPair (current : List CurrentRow) : Std.TreeMap Pair (List CurrentRow) :=
  current.foldl (fun byPair row => byPair.alter row.pair fun rows => some (rows.getD [] ++ [row])) ∅

/-- `by_pair` with every group sorted by row id. -/
def sortedGroups (current : List CurrentRow) : Std.TreeMap Pair (List CurrentRow) :=
  (groupByPair current).map fun _ rows => sortByKey CurrentRow.id rows

/-- What the loop over the desired assignments carries: the groups it has not consumed yet, and the
removals and additions so far. -/
structure Draft where
  byPair : Std.TreeMap Pair (List CurrentRow)
  removals : List Nat
  additions : List Addition

/-- One turn of the loop over the desired assignments. -/
def planAssignment (s : Draft) (d : DesiredAssignment) : Draft :=
  match s.byPair[d.pair]? with
  | none => { s with additions := s.additions ++ [d.addition] }
  | some rows =>
      let byPair := s.byPair.erase d.pair
      match rows.find? (fun row => row.isRecursive == d.recursive) with
      | some keeper =>
          { byPair := byPair
            removals := s.removals ++ (rows.filter fun row => row.id != keeper.id).map CurrentRow.id
            additions := s.additions }
      | none =>
          { byPair := byPair
            removals := s.removals ++ rows.map CurrentRow.id
            additions := s.additions ++ [d.addition] }

/-- The groups left over belong to undesired pairs and are removed entirely. -/
def Draft.leftover (s : Draft) : List Nat :=
  (s.byPair.toList.map Prod.snd).flatMap fun rows => rows.map CurrentRow.id

def draft (current : List CurrentRow) (desired : List DesiredAssignment) : Draft :=
  (sortByKey DesiredAssignment.pair desired).foldl planAssignment
    { byPair := sortedGroups current, removals := [], additions := [] }

/-- The deterministic plan for the given current rows and canonical desired assignments. -/
def compute (current : List CurrentRow) (desired : List DesiredAssignment) : Plan :=
  let s := draft current desired
  { removals := sortByKey id (s.removals ++ s.leftover)
    additions := sortByKey Addition.pair s.additions }

/-- Whether reconciling `current` toward `desired` would require no mutation at all. -/
def isCanonical (current : List CurrentRow) (desired : List DesiredAssignment) : Bool :=
  (compute current desired).isEmpty

end PermissionSync.Glpi
