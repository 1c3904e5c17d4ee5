import PermissionSync.Base.Sort
import PermissionSync.Glpi.Interface

/-!
# The desired-state payload (`permissionsync-adapter-glpi/src/payload.rs`)
-/

namespace PermissionSync.Glpi

open PermissionSync.Base PermissionSync.Wire

/-- One structurally valid desired assignment, in request order. -/
structure RawPermission where
  entity : String
  profile : String
  recursive : Bool
deriving DecidableEq, Repr

/-- One canonical desired assignment. -/
structure CanonicalAssignment where
  entity : String
  profile : String
  recursive : Bool
deriving DecidableEq, Repr

def RawPermission.decode (j : Json) : Option RawPermission :=
  match structFields ["entity", "profile", "recursive"] true j with
  | some [some (.str entity), some (.str profile), some (.bool recursive)] => some ⟨entity, profile, recursive⟩
  | _ => none

/-- `RawPayload`: exactly the member `permissions`. -/
def decodePayload (j : Json) : Option (List RawPermission) :=
  match structFields ["permissions"] true j with
  | some [some (.arr entries)] => entries.mapM RawPermission.decode
  | _ => none

/-- `(entity, profile)`, in the order of the source's tuples. -/
abbrev SelectorPair := String ×ₗ String

/-- `groups`: each pair with the disjunction of its recursive values. -/
def groupPermissions (permissions : List RawPermission) : Std.TreeMap SelectorPair Bool :=
  permissions.foldl
    (fun groups p => groups.alter (toLex (p.entity, p.profile)) fun r => some (r.getD false || p.recursive)) ∅

def normalize (permissions : List RawPermission) : List CanonicalAssignment :=
  (groupPermissions permissions).toList.map fun g => ⟨(ofLex g.1).1, (ofLex g.1).2, g.2⟩

def parseAndNormalize (text : Text) : Except GlpiFailure (List CanonicalAssignment) := do
  let permissions ← okOr (text.json.bind decodePayload) .invalidPayload
  ensure (∀ p ∈ permissions, p.entity ≠ "" ∧ p.profile ≠ "") .invalidPayload
  return normalize permissions

end PermissionSync.Glpi
