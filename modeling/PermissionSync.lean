import PermissionSync.Base.Sort
import PermissionSync.Base.Numeral
import PermissionSync.Base.Vec
import PermissionSync.Base.Result
import PermissionSync.Base.Utf8
import PermissionSync.Base.Reader
import PermissionSync.Base.Program
import PermissionSync.Base.Trace
import PermissionSync.Base.Path
import PermissionSync.Base.Interleave
import PermissionSync.Base.Ghost
import PermissionSync.Base.Interrupt
import PermissionSync.Base.Settle
import PermissionSync.Base.Related
import PermissionSync.Wire.Json
import PermissionSync.Wire.Struct
import PermissionSync.Wire.Lexical
import PermissionSync.Wire.Access
import PermissionSync.Wire.Lemmas.Lexical
import PermissionSync.Wire.Lemmas.Grammar
import PermissionSync.Wire.Lemmas.Access
import PermissionSync.Wire.Document
import PermissionSync.Wire.Lemmas.Document
import PermissionSync.Glpi.Plan
import PermissionSync.Glpi.Interface
import PermissionSync.Glpi.Payload
import PermissionSync.Glpi.Session
import PermissionSync.Glpi.Mutation
import PermissionSync.Glpi.Search
import PermissionSync.Glpi.Adapter
import PermissionSync.Glpi.Server.Store
import PermissionSync.Glpi.Server.Documents
import PermissionSync.Glpi.Server.Sharing
import PermissionSync.Glpi.Server.Canonical
import PermissionSync.Glpi.Server.Reference
import PermissionSync.Glpi.Lemmas.Plan
import PermissionSync.Glpi.Lemmas.Mutations
import PermissionSync.Glpi.Lemmas.Calls
import PermissionSync.Glpi.Lemmas.Stages
import PermissionSync.Glpi.Lemmas.Cleanup
import PermissionSync.Glpi.Lemmas.Phases
import PermissionSync.Glpi.Lemmas.Apply
import PermissionSync.Glpi.Lemmas.Reads
import PermissionSync.Glpi.Lemmas.Lookups
import PermissionSync.Glpi.Lemmas.Normalize
import PermissionSync.Glpi.Lemmas.Deletion
import PermissionSync.Glpi.Lemmas.Documents
import PermissionSync.Glpi.Lemmas.Pages
import PermissionSync.Glpi.Lemmas.Served
import PermissionSync.Glpi.Lemmas.Scans
import PermissionSync.Glpi.Lemmas.Canonical
import PermissionSync.Glpi.Lemmas.ServedLookups
import PermissionSync.Glpi.Lemmas.SharedLookups
import PermissionSync.Glpi.Lemmas.ServedAssignments
import PermissionSync.Glpi.Lemmas.SharedReads
import PermissionSync.Glpi.Lemmas.ServedReconcile
import PermissionSync.Glpi.Lemmas.Serving
import PermissionSync.Glpi.Theorems.Planning
import PermissionSync.Glpi.Theorems.Optimality
import PermissionSync.Glpi.Theorems.Pagination
import PermissionSync.Glpi.Theorems.Resolution
import PermissionSync.Glpi.Theorems.Selectors
import PermissionSync.Glpi.Theorems.Narrowing
import PermissionSync.Glpi.Theorems.Deadlines
import PermissionSync.Glpi.Theorems.Targets
import PermissionSync.Glpi.Theorems.Ordering
import PermissionSync.Glpi.Theorems.Convergence
import PermissionSync.Glpi.Theorems.Agreement
import PermissionSync.Glpi.Theorems.Instants
import PermissionSync.Glpi.Theorems.Payload
import PermissionSync.Glpi.Theorems.Deletion
import PermissionSync.Glpi.Theorems.Normalization
import PermissionSync.Net.Dns
import PermissionSync.Net.Race
import PermissionSync.Net.Outbound
import PermissionSync.Net.Attempt
import PermissionSync.Net.Lemmas.Attempt
import PermissionSync.Net.Lemmas.Outcome
import PermissionSync.Net.Theorems.Aliases
import PermissionSync.Net.Theorems.Race
import PermissionSync.Net.Theorems.Driver
import PermissionSync.Rest.Envelope
import PermissionSync.Rest.Theorems.Envelope
import PermissionSync.Core.Ports
import PermissionSync.Core.Lemmas.Targets
import PermissionSync.Core.Interface
import PermissionSync.Rest.Client
import PermissionSync.Rest.Theorems.Client
import PermissionSync.Rest.Theorems.Request
import PermissionSync.Auth.Types
import PermissionSync.Auth.Interface
import PermissionSync.Auth.Claims
import PermissionSync.Auth.Jwks
import PermissionSync.Auth.Authenticator
import PermissionSync.Auth.Shared
import PermissionSync.Auth.Theorems.Scope
import PermissionSync.Auth.Lemmas.Private
import PermissionSync.Auth.Lemmas.Runs
import PermissionSync.Auth.Lemmas.Verdicts
import PermissionSync.Auth.Lemmas.Decisions
import PermissionSync.Auth.Lemmas.Timeline
import PermissionSync.Auth.Lemmas.Available
import PermissionSync.Auth.Theorems.Acceptance
import PermissionSync.Auth.Theorems.Rejection
import PermissionSync.Auth.Theorems.KeySets
import PermissionSync.Auth.Theorems.Stability
import PermissionSync.Auth.Lemmas.Stages
import PermissionSync.Auth.Lemmas.Coherence
import PermissionSync.Auth.Theorems.Installs
import PermissionSync.Auth.Theorems.Stampede
import PermissionSync.Orchestration.Synchronizer
import PermissionSync.Inbound.Handler
import PermissionSync.Core.Lemmas.Checks
import PermissionSync.Inbound.Lemmas.Decisions
import PermissionSync.Inbound.Theorems.Stages
import PermissionSync.Inbound.Theorems.Disclosure
import PermissionSync.Inbound.Theorems.Login
import PermissionSync.Inbound.Theorems.Bearer
import PermissionSync.Runtime.Admission
import PermissionSync.Runtime.Capacity
import PermissionSync.Runtime.Transport
import PermissionSync.Base.Semaphore
import PermissionSync.Base.Like
import PermissionSync.Base.Closure
import PermissionSync.Runtime.Process
import PermissionSync.Runtime.Lemmas.Holding
import PermissionSync.Runtime.Lemmas.Body
import PermissionSync.Runtime.Lemmas.Conservation
import PermissionSync.Runtime.Theorems.Admission
import PermissionSync.Runtime.Theorems.Capacity
import PermissionSync.Runtime.Theorems.Collection
import PermissionSync.Runtime.Theorems.Shutdown
import PermissionSync.Runtime.Server
import PermissionSync.Runtime.Lifecycle
import PermissionSync.Runtime.Theorems.Grace
import PermissionSync.Runtime.Theorems.Precedence
import PermissionSync.Runtime.Theorems.Lifecycle
import PermissionSync.Runtime.Configuration
import PermissionSync.Runtime.Lemmas.Configuration
import PermissionSync.Composition.Application
import PermissionSync.Composition.Theorems.Isolation
