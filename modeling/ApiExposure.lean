import ApiExposure.Text.Blank
import ApiExposure.Number.Shortest
import ApiExposure.Json.Reader
import ApiExposure.Json.Printer
import ApiExposure.Json.Form
import ApiExposure.Time.Instant
import ApiExposure.Net.Url
import ApiExposure.Net.SocketAddress
import ApiExposure.Uuid
import ApiExposure.Identifier
import ApiExposure.Features
import ApiExposure.Failure
import ApiExposure.Provider
import ApiExposure.ServiceApi.Description
import ApiExposure.Invoker
import ApiExposure.Security
import ApiExposure.Event
import ApiExposure.Criteria
import ApiExposure.Settings.Load
import ApiExposure.Core.Discovery
import ApiExposure.Core.Authorization
import ApiExposure.Core.Providing
import ApiExposure.Core.Invoking
import ApiExposure.EventChannel
import ApiExposure.Http.Service
import ApiExposure.Proofs.System.Command
import ApiExposure.Proofs.System.Run
import ApiExposure.Proofs.System.Effect
import ApiExposure.Proofs.System.Freshness
import ApiExposure.Proofs.Publications.Description
import ApiExposure.Proofs.Providers.Index
import ApiExposure.Proofs.Publications.Cascade
import ApiExposure.Proofs.Publications.Store
import ApiExposure.Proofs.Publications.Integrity
import ApiExposure.Proofs.Authorization.Liveness
import ApiExposure.Proofs.Authorization.Decision
import ApiExposure.Proofs.Invokers.Grants
import ApiExposure.Proofs.Revocation.Ledger
import ApiExposure.Proofs.Revocation.History
import ApiExposure.Proofs.Publications.Ownership
import ApiExposure.Proofs.Interleaving.Frame
import ApiExposure.Proofs.Interleaving.Serial
import ApiExposure.Proofs.System.Atomicity
import ApiExposure.Proofs.Subscriptions.Naming
import ApiExposure.Proofs.Subscriptions.History
import ApiExposure.Proofs.Authorization.Order
import ApiExposure.Proofs.Revocation.Scope
import ApiExposure.Proofs.Publications.Order
import ApiExposure.Proofs.Discovery.Criteria
import ApiExposure.Proofs.Discovery.Exact
import ApiExposure.Proofs.Discovery.Allowed
import ApiExposure.Proofs.Invokers.Footing
import ApiExposure.Proofs.Invokers.Isolation
import ApiExposure.Proofs.Publications.Removal
import ApiExposure.Proofs.System.Record
import ApiExposure.Proofs.System.Sequel
import ApiExposure.Proofs.System.Turn
import ApiExposure.Proofs.Security.Contexts
import ApiExposure.Proofs.Invokers.Offboarding
import ApiExposure.Proofs.Publications.Endpoints
import ApiExposure.Proofs.Announcements.Roll
import ApiExposure.Proofs.Announcements.Reconstruction
import ApiExposure.Proofs.Announcements.Updates
import ApiExposure.Proofs.Publications.Names
import ApiExposure.Proofs.Providers.Listing
import ApiExposure.Proofs.Providers.Lifetime
import ApiExposure.Proofs.Discovery.Refinement
import ApiExposure.Proofs.Json.RoundTrip
import ApiExposure.Proofs.Collaborators.Blame
import ApiExposure.Proofs.Collaborators.Outages
import ApiExposure.Proofs.Http.Orders
import ApiExposure.Proofs.Http.Plain
import ApiExposure.Proofs.Http.Refusals
import ApiExposure.Proofs.Text.Paths
import ApiExposure.Proofs.Http.Entities
import ApiExposure.Proofs.Http.Locations
import ApiExposure.Proofs.WriteBack.Forms
import ApiExposure.Proofs.WriteBack.Held
import ApiExposure.Proofs.WriteBack.Repeats
import ApiExposure.Proofs.WriteBack.Unchanged
import ApiExposure.Proofs.Invokers.Enrolled
import ApiExposure.Proofs.Security.Selection
import ApiExposure.Proofs.Publications.Remainder
import ApiExposure.Proofs.Providers.Departures
import ApiExposure.Proofs.Publications.Shares
import ApiExposure.Proofs.Publications.Isolation
import ApiExposure.Proofs.Invokers.Inquiries
import ApiExposure.Proofs.Invokers.Attended
import ApiExposure.Proofs.Invokers.Clients
import ApiExposure.Proofs.Registry.Table
import ApiExposure.Proofs.Publications.Fallout
import ApiExposure.Proofs.Providers.Dissolution
import ApiExposure.Proofs.Announcements.Withdrawals
import ApiExposure.Proofs.Revocation.Bulk
import ApiExposure.Proofs.Authorization.Granting
import ApiExposure.Proofs.Publications.Acceptance
import ApiExposure.Proofs.Publications.Patches
import ApiExposure.Proofs.Providers.Patches
import ApiExposure.Proofs.Invokers.Onboarding
import ApiExposure.Proofs.Invokers.GrantLists
import ApiExposure.Proofs.Security.Negotiation
import ApiExposure.Proofs.Security.Reading
import ApiExposure.Proofs.Discovery.Masks
