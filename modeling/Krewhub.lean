import Krewhub.Sandbox.Clean
import Krewhub.Sandbox.Resolution
import Krewhub.Routes.ReviewGate
import Krewhub.Routes.Acyclicity
import Krewhub.Routes.LinkAcyclicity
import Krewhub.Routes.CascadeClosure
import Krewhub.Routes.Callbacks
import Krewhub.Services.AttachOnce
import Krewhub.Services.GraphAttachmentService
import Krewhub.Services.ExclusiveClaims
import Krewhub.Services.OneSession
import Krewhub.Controllers.Dispatch
import Krewhub.Controllers.Loop
import Krewhub.Controllers.Planner
import Krewhub.Controllers.OrchMarkers
import Krewhub.Controllers.OrchRecovery
import Krewhub.Controllers.RespawnBudget
import Krewhub.Controllers.Appends
import Krewhub.Controllers.DispatchPass
import Krewhub.Controllers.FiredOnce
import Krewhub.Controllers.PipeOrder
import Krewhub.Controllers.Narration
import Krewhub.Graph.DepFailed
import Krewhub.Graph.Retry
import Krewhub.Graph.Runner
import Krewhub.Graph.Verdict
import Krewhub.Graph.Reservations
import Krewhub.Invocations.Stream
import Krewhub.Watch.Stream
import Krewhub.Store.Migrations
import Krewhub.Server
import Krewhub.Server.Handover
import Krewhub.Server.Reopened
import Krewhub.Server.Authority
import Krewhub.Server.Coherence
import Krewhub.Server.Versions
import Krewhub.Base.Paging
import Krewhub.Routes.EventFeed
import Krewhub.Invocations.Service
import Krewhub.Invocations.Shape
import Krewhub.Invocations.Accepted
import Krewhub.Invocations.Answers
import Krewhub.Invocations.Create
import Krewhub.Invocations.CreatedOnce
import Krewhub.Invocations.Graceful
import Krewhub.Invocations.Schema
import Krewhub.Base.Connection
import Krewhub.Invocations.Dense
import Krewhub.Relay.Elicits
import Krewhub.Relay.Fencing
import Krewhub.A2A.HubClients
import Krewhub.A2A.Mailbox
import Krewhub.A2A.KeptAnswers
import Krewhub.A2A.RoundTrip
import Krewhub.Sandboxes.Replacement
import Krewhub.Sandboxes.Sweeper
import Krewhub.Services.RedactedTexts
import Krewhub.Graph.AgentChoice
import Krewhub.Store.BundleEvents
import Krewhub.Routes.LinkRoundTrip
import Krewhub.Base.Collapse
import Krewhub.Sandbox.Renderer
import Krewhub.Sandbox.Rendering
import Krewhub.Services.BatchIngestion
import Krewhub.Routes.DanglingDeps
import Krewhub.Routes.LastReply
import Krewhub.Graph.Collection
import Krewhub.Routes.CascadeReport
import Krewhub.Server.Finished
import Krewhub.Workers.Tail
import Krewhub.Base.Among
import Krewhub.Base.Base64
import Krewhub.Python.Value
import Krewhub.Python.Loads
import Krewhub.Base.Framing
import Krewhub.E2b.ConnectStream
import Krewhub.E2b.Tolerance
import Krewhub.E2b.EndOfStream
import Krewhub.Workers.Consume
import Krewhub.E2b.ProcessOutput
import Krewhub.Workers.FileOps
import Krewhub.Tape.Store
import Krewhub.Base.Like
import Krewhub.Tape.Fork
import Krewhub.Sandbox.Flowchart
import Krewhub.Workers.SandboxHand
import Krewhub.Services.CycleSearch
import Krewhub.Base.Dict
import Krewhub.Services.Credentials
import Krewhub.Python.Pathlib
import Krewhub.Git.Transport
import Krewhub.Python.Datetime
import Krewhub.Store.RepoGrants
import Krewhub.A2A.Admission
import Krewhub.Base.Statements
import Krewhub.Git.Indexer
import Krewhub.Git.IndexFailure
import Krewhub.Routes.Agents
import Krewhub.Controllers.PresenceLog
import Krewhub.Controllers.PresenceRelease
import Krewhub.Services.RedactedJson
import Krewhub.Base.Stages
import Krewhub.Routes.CookbookSharing
import Krewhub.Routes.SharingAuthority
import Krewhub.Routes.SharingRevocation
import Krewhub.Base.Atomic
import Krewhub.Services.Vault
import Krewhub.Services.VaultAtomic
import Krewhub.Base.CrashPoints
import Krewhub.Store.SqlTables
import Krewhub.Store.SchemaMigrations
import Krewhub.Store.MigrationCrashes
import Krewhub.Store.BootSurvival
import Krewhub.Base.Guarded
import Krewhub.Routes.InitWorkspace
