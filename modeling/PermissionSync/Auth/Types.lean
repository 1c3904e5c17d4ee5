import PermissionSync.Core.Ports

/-!
# Results of an authentication attempt (`permissionsync-auth/src/types.rs`, `error.rs`)
-/

namespace PermissionSync.Auth

open PermissionSync.Core

inductive AuthenticationError where
  | rejected
  | forbidden
  | verifierUnavailable
  | cancelled
deriving DecidableEq, Repr

inductive TargetSelection where
  | noTarget
  | selected (target : LogicalTarget)
deriving DecidableEq

structure AuthenticatedTechnicalCaller where
  clientId : String
  bearerToken : String
  targetSelection : TargetSelection
deriving DecidableEq

end PermissionSync.Auth
