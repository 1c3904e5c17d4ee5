import PermissionSync.Glpi.Mutation
import PermissionSync.Glpi.Payload
import PermissionSync.Glpi.Search

/-!
# The adapter (`permissionsync-adapter-glpi/src/adapter.rs`)

`reconcile` with its stages: the references of the payload, the synchronized user, the assignments.
-/

namespace PermissionSync.Glpi

open PermissionSync.Base PermissionSync.Wire

inductive ReconciliationOutcome where
  | changed
  | unchanged
deriving DecidableEq, Repr

/-- `TargetAdapterRequest`: the username, the envelope and the context. -/
structure AdapterRequest where
  username : String
  version : Nat
  payload : Text
  context : SynchronizationContext

/-- Give one operation its own deadline, right before it starts. -/
def timed {α : Type} (config : ValidatedConfig) (context : SynchronizationContext) (operation : Instant → Io α) :
    Io α := do
  let deadline ← effectiveDeadline context config.operationTimeout
  operation deadline

def resolveSearchOptions (config : ValidatedConfig) (session : GlpiSession) (itemtype : Itemtype)
    (requiredUids : List String) (context : SynchronizationContext) : Io SearchOptions :=
  timed config context (fetchSearchOptions config session itemtype requiredUids)

/-! ## References -/

/-- The ids of the selectors resolved so far. -/
structure Resolved where
  entities : Std.TreeMap String Nat
  profiles : Std.TreeMap String Nat

/-- Resolve a selector unless it is resolved already. -/
def resolveOnce (known : Std.TreeMap String Nat) (selector : String) (resolve : String → Io Nat) :
    Io (Std.TreeMap String Nat) :=
  if selector ∈ known then pure known
  else do
    let id ← resolve selector
    pure (known.insert selector id)

/-- One turn of the loop over the desired assignments. -/
def resolveAssignment (config : ValidatedConfig) (session : GlpiSession) (entityOptions profileOptions : SearchOptions)
    (context : SynchronizationContext) (resolved : Resolved) (assignment : CanonicalAssignment) : Io Resolved := do
  checkContext context.deadline
  let entities ← resolveOnce resolved.entities assignment.entity fun selector =>
    resolveEntityId config session entityOptions selector context
  checkContext context.deadline
  let profiles ← resolveOnce resolved.profiles assignment.profile fun selector =>
    resolveProfileId config session profileOptions selector context
  pure ⟨entities, profiles⟩

/-- What is known before the user is looked up. -/
structure References where
  resolved : Resolved
  userOptions : SearchOptions
  profileUserOptions : SearchOptions

/-- The search options of the user and of its assignments. -/
def userSearchOptions (config : ValidatedConfig) (session : GlpiSession) (context : SynchronizationContext) :
    Io (SearchOptions × SearchOptions) := do
  let userOptions ← resolveSearchOptions config session .user requiredUserUids context
  let profileUserOptions ← resolveSearchOptions config session .profileUser requiredProfileUserUids context
  pure (userOptions, profileUserOptions)

/-- Every reference of the payload. Without a desired assignment no entity or profile is looked up. -/
def resolveReferences (config : ValidatedConfig) (session : GlpiSession) (desired : List CanonicalAssignment)
    (context : SynchronizationContext) : Io References :=
  if desired = [] then do
    let (userOptions, profileUserOptions) ← userSearchOptions config session context
    pure ⟨⟨∅, ∅⟩, userOptions, profileUserOptions⟩
  else do
    let entityOptions ← resolveSearchOptions config session .entity requiredEntityUids context
    let profileOptions ← resolveSearchOptions config session .profile requiredProfileUids context
    let (userOptions, profileUserOptions) ← userSearchOptions config session context
    let resolved ← desired.foldlM (resolveAssignment config session entityOptions profileOptions context) ⟨∅, ∅⟩
    pure ⟨resolved, userOptions, profileUserOptions⟩

/-- The visibility precondition, then every reference. -/
def prepare (config : ValidatedConfig) (session : GlpiSession) (desired : List CanonicalAssignment)
    (context : SynchronizationContext) : Io References := do
  timed config context (forceAllEntities config session)
  timed config context (verifyCompleteVisibility config session)
  resolveReferences config session desired context

/-! ## The user -/

/-- Create the missing user and prove that the account created answers the username. The result is its id and the
number of mutations performed. -/
def createUserAndResolveOutcome (config : ValidatedConfig) (session : GlpiSession) (userOptions : SearchOptions)
    (username : String) (context : SynchronizationContext) : Io (Nat × Nat) := do
  let createdId ← timed config context (createUser config session username config.authenticationSource)
  let resolved ← resolveUserId config session userOptions username context
  .lift (ensure (resolved = some createdId) .userCreationFailed)
  pure (createdId, 1)

def synchronizedUser (config : ValidatedConfig) (session : GlpiSession) (userOptions : SearchOptions)
    (username : String) (context : SynchronizationContext) : Io (Nat × Nat) := do
  match ← resolveUserId config session userOptions username context with
  | some id => pure (id, 0)
  | none => createUserAndResolveOutcome config session userOptions username context

/-! ## The assignments -/

def resolveDesired (resolved : Resolved) (desired : List CanonicalAssignment) :
    Except GlpiFailure (List DesiredAssignment) :=
  desired.mapM fun assignment => do
    let entitiesId ← okOr resolved.entities[assignment.entity]? .missingReference
    let profilesId ← okOr resolved.profiles[assignment.profile]? .missingReference
    return { entitiesId := entitiesId, profilesId := profilesId, recursive := assignment.recursive }

/-- One turn of the loop over the removals; the value counts the confirmed mutations. -/
def removeAssignment (config : ValidatedConfig) (session : GlpiSession) (context : SynchronizationContext)
    (effectiveMutations assignmentId : Nat) : Io Nat := do
  timed config context (deleteAssignment config session assignmentId)
  pure (effectiveMutations + 1)

/-- One turn of the loop over the additions. -/
def addAssignment (config : ValidatedConfig) (session : GlpiSession) (userId : Nat)
    (context : SynchronizationContext) (effectiveMutations : Nat) (addition : Addition) : Io Nat := do
  let _ ← timed config context
    (createAssignment config session userId addition.profilesId addition.entitiesId addition.recursive)
  pure (effectiveMutations + 1)

def applyPlan (config : ValidatedConfig) (session : GlpiSession) (userId : Nat) (context : SynchronizationContext)
    (plan : Plan) (effectiveMutations : Nat) : Io Nat := do
  let removed ← plan.removals.foldlM (removeAssignment config session context) effectiveMutations
  plan.additions.foldlM (addAssignment config session userId context) removed

/-- The final authoritative verification. -/
def verifyAssignments (config : ValidatedConfig) (session : GlpiSession) (options : SearchOptions) (username : String)
    (userId : Nat) (desired : List DesiredAssignment) (context : SynchronizationContext) : Io Unit := do
  checkContext context.deadline
  let verified ← readCurrentAssignments config session options username userId context
  .lift (ensure (isCanonical verified desired = true) .verificationFailed)

def reconcileAssignments (config : ValidatedConfig) (session : GlpiSession) (references : References)
    (username : String) (desired : List CanonicalAssignment) (userId effectiveMutations : Nat)
    (context : SynchronizationContext) : Io ReconciliationOutcome := do
  let current ← readCurrentAssignments config session references.profileUserOptions username userId context
  let desiredResolved ← .lift (resolveDesired references.resolved desired)
  let total ← applyPlan config session userId context (compute current desiredResolved) effectiveMutations
  verifyAssignments config session references.profileUserOptions username userId desiredResolved context
  pure (if 0 < total then .changed else .unchanged)

/-! ## Reconciliation -/

def reconcileWithSession (config : ValidatedConfig) (session : GlpiSession) (username : String)
    (desired : List CanonicalAssignment) (context : SynchronizationContext) : Io ReconciliationOutcome := do
  let references ← prepare config session desired context
  let (userId, effectiveMutations) ← synchronizedUser config session references.userOptions username context
  reconcileAssignments config session references username desired userId effectiveMutations context

/-- Whether cleanup may start: no cancellation, then no expiry. -/
def cleanupAllowed (context : SynchronizationContext) : Io Bool := do
  if ← isCancelled then
    pure false
  else
    let t ← now
    pure (t < context.deadline)

/-- A cleanup failure fails a successful reconciliation and never replaces its failure. -/
def afterCleanup (outcome : Except GlpiFailure ReconciliationOutcome) (cleanup : Except GlpiFailure Unit) :
    Except GlpiFailure ReconciliationOutcome :=
  match outcome, cleanup with
  | .ok outcome, .ok () => .ok outcome
  | .ok _, .error cleanupError => .error cleanupError
  | .error primaryError, _ => .error primaryError

/-- End the session, unless cancellation or expiry is seen before the request. -/
def cleanup (config : ValidatedConfig) (session : GlpiSession) (context : SynchronizationContext)
    (outcome : Except GlpiFailure ReconciliationOutcome) : Io ReconciliationOutcome := do
  if ← cleanupAllowed context then
    match ← (effectiveDeadline context config.operationTimeout).attempt with
    | .ok deadline =>
        let cleanupResult ← (killSession config session deadline).attempt
        .lift (afterCleanup outcome cleanupResult)
    | .error _ => .lift outcome
  else
    .lift outcome

/-- What precedes the session: the context, the envelope version and the payload. -/
def acceptRequest (request : AdapterRequest) : Io (List CanonicalAssignment) := do
  checkContext request.context.deadline
  .lift (ensure (request.version = 1) .unsupportedEnvelopeVersion)
  .lift (parseAndNormalize request.payload)

def reconcile (config : ValidatedConfig) (request : AdapterRequest) : Io ReconciliationOutcome := do
  let desired ← acceptRequest request
  let session ← timed config request.context (initSession config)
  let outcome ← (reconcileWithSession config session request.username desired request.context).attempt
  cleanup config session request.context outcome

end PermissionSync.Glpi
