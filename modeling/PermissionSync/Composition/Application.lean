import PermissionSync.Base.Result
import PermissionSync.Core.Interface
import PermissionSync.Runtime.Configuration

/-!
# Routing and composition (`permissionsync-routing/src/lib.rs`, `src/composition.rs`)

An adapter or Provider instance is known by the configuration it was constructed from.
-/

namespace PermissionSync.Composition

open PermissionSync.Core PermissionSync.Runtime

/-! ## The router -/

structure TargetRoute where
  logicalTarget : LogicalTarget
  adapterIdentifier : AdapterIdentifier
deriving DecidableEq

structure AdapterRegistration where
  adapterIdentifier : AdapterIdentifier
  adapter : GlpiAdapterConfig
deriving DecidableEq

inductive TargetRouterBuildError where
  | duplicateLogicalTarget (target : LogicalTarget)
  | duplicateAdapterIdentifier (identifier : AdapterIdentifier)
deriving DecidableEq

structure TargetRouter where
  routes : List (LogicalTarget × AdapterIdentifier)
  adapters : List (AdapterIdentifier × GlpiAdapterConfig)

/-- Insert an entry into a table that must not have its key. -/
def insertNew {κ β ε : Type} [DecidableEq κ] (duplicate : κ → ε) (table : List (κ × β)) (entry : κ × β) :
    Except ε (List (κ × β)) :=
  if entry.1 ∈ table.map Prod.fst then .error (duplicate entry.1) else .ok (entry :: table)

def TargetRouter.new (routes : List TargetRoute) (registrations : List AdapterRegistration) :
    Except TargetRouterBuildError TargetRouter := do
  let targetRoutes ← (routes.map fun route => (route.logicalTarget, route.adapterIdentifier)).foldlM
    (insertNew .duplicateLogicalTarget) []
  let adapters ← (registrations.map fun registration => (registration.adapterIdentifier, registration.adapter)).foldlM
    (insertNew .duplicateAdapterIdentifier) []
  pure ⟨targetRoutes, adapters⟩

def TargetRouter.resolve (router : TargetRouter) (target : LogicalTarget) :
    Except TargetResolutionError GlpiAdapterConfig :=
  match router.routes.lookup target with
  | none => .error .unknownLogicalTarget
  | some identifier =>
      match router.adapters.lookup identifier with
      | none => .error (.unavailableAdapter identifier)
      | some adapter => .ok adapter

/-! ## The application -/

def glpiAdapterIdentifier : AdapterIdentifier := "glpi"

inductive ProviderAvailability where
  | usable (config : GenericRestPermissionProviderConfig)
  | unavailable
deriving DecidableEq

inductive TargetAvailability where
  | usable (adapter : GlpiAdapterConfig)
  | unavailable
  | unknown
deriving DecidableEq

inductive CompositionError where
  | invalid
deriving DecidableEq

structure ComposedApplication where
  provider : ProviderAvailability
  router : TargetRouter

/-- The route of a configured target, if its name is a logical target. -/
def route (target : ConfiguredTarget) : Except CompositionError TargetRoute :=
  match LogicalTarget.tryFrom target.logicalTarget with
  | some logicalTarget => .ok ⟨logicalTarget, target.adapterIdentifier⟩
  | none => .error .invalid

/-- The one registration, if the section gave a configuration from which the adapter can be constructed. -/
def registrations (new : Constructors) : Option GlpiAdapterConfig → List AdapterRegistration
  | some config => if new.glpi config then [⟨glpiAdapterIdentifier, config⟩] else []
  | none => []

def providerState (new : Constructors) : Option ProviderConfiguration → ProviderAvailability
  | some (.genericRest config) => if new.genericRest config then .usable config else .unavailable
  | none => .unavailable

def ComposedApplication.compose (new : Constructors) (configuration : RuntimeConfiguration) :
    Except CompositionError ComposedApplication := do
  let routes ← configuration.targets.mapM route
  let router ← (TargetRouter.new routes (registrations new configuration.glpi)).mapError fun _ => .invalid
  pure ⟨providerState new configuration.provider, router⟩

def ComposedApplication.resolveTarget (application : ComposedApplication) (target : LogicalTarget) :
    TargetAvailability :=
  match application.router.resolve target with
  | .ok adapter => .usable adapter
  | .error .unknownLogicalTarget => .unknown
  | .error (.unavailableAdapter _) => .unavailable

end PermissionSync.Composition
