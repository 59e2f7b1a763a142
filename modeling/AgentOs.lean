import AgentOs.Cli.Chat
import AgentOs.Cli.Resume
import AgentOs.Cli.StreamPass
import AgentOs.CliBackends.Commands
import AgentOs.CliBackends.Payloads
import AgentOs.CliBackends.Redaction
import AgentOs.CliBackends.StreamJson
import AgentOs.CliBackends.StrictSchema
import AgentOs.Concierge.Sessions
import AgentOs.Concierge.Turns
import AgentOs.Connectors.Frontmatter
import AgentOs.Connectors.MarkdownVault
import AgentOs.Connectors.VaultConfinement
import AgentOs.Connectors.VaultIndex
import AgentOs.Connectors.VaultNotes
import AgentOs.Connectors.VaultRebuild
import AgentOs.Connectors.VaultSearch
import AgentOs.Connectors.VaultStatus
import AgentOs.Context.Hot
import AgentOs.Context.Injected
import AgentOs.Context.Planner
import AgentOs.Graph.AgentGraph
import AgentOs.Graph.Budget
import AgentOs.Graph.Conversation
import AgentOs.Graph.HumanGate
import AgentOs.Graph.Inputs
import AgentOs.Graph.Nodes
import AgentOs.Graph.Parallel
import AgentOs.Graph.Review
import AgentOs.Graph.Routing
import AgentOs.Graph.SelfCheck
import AgentOs.Graph.Stage
import AgentOs.Graph.State
import AgentOs.Graph.ToolDispatcher
import AgentOs.Lib.Bytes
import AgentOs.Lib.Calendar
import AgentOs.Lib.Compaction
import AgentOs.Lib.Cutting
import AgentOs.Lib.Decoding
import AgentOs.Lib.Desk
import AgentOs.Lib.Dictionary
import AgentOs.Lib.Directories
import AgentOs.Lib.Erasure
import AgentOs.Lib.FileTree
import AgentOs.Lib.Framing
import AgentOs.Lib.Freshness
import AgentOs.Lib.Gathering
import AgentOs.Lib.History
import AgentOs.Lib.IpAddress
import AgentOs.Lib.Json
import AgentOs.Lib.JsonBrackets
import AgentOs.Lib.JsonMembers
import AgentOs.Lib.JsonPretty
import AgentOs.Lib.LazySearch
import AgentOs.Lib.Lines
import AgentOs.Lib.Links
import AgentOs.Lib.Lowering
import AgentOs.Lib.Machine
import AgentOs.Lib.Marks
import AgentOs.Lib.Numbering
import AgentOs.Lib.Pass
import AgentOs.Lib.Path
import AgentOs.Lib.Purge
import AgentOs.Lib.Ranking
import AgentOs.Lib.Refresh
import AgentOs.Lib.Regex
import AgentOs.Lib.RegexGroups
import AgentOs.Lib.RegexLanguage
import AgentOs.Lib.Replacing
import AgentOs.Lib.Session
import AgentOs.Lib.SlidingWindow
import AgentOs.Lib.Slots
import AgentOs.Lib.Sqlite.Database
import AgentOs.Lib.Sqlite.Statements
import AgentOs.Lib.Sqlite.Tokens
import AgentOs.Lib.TaskPool
import AgentOs.Lib.Text
import AgentOs.Lib.Timestamps
import AgentOs.Lib.Toml.Document
import AgentOs.Lib.Toml.JsonTexts
import AgentOs.Lib.Toml.Reader
import AgentOs.Lib.Toml.Scalars
import AgentOs.Lib.Transaction
import AgentOs.Lib.Url
import AgentOs.Lib.Workflow
import AgentOs.Lib.WriteAheadLog
import AgentOs.Observations.Advisory
import AgentOs.Observations.Balance
import AgentOs.Observations.Records
import AgentOs.Observations.SkillCandidates
import AgentOs.Observations.Store
import AgentOs.Observations.TaskSignature
import AgentOs.Observations.Workspaces
import AgentOs.Policy.Authority
import AgentOs.Policy.BuiltinFolders
import AgentOs.Policy.Composite
import AgentOs.Policy.Effects
import AgentOs.Policy.Engine
import AgentOs.Policy.KeyFormat
import AgentOs.Policy.MemoryGate
import AgentOs.Policy.Permission
import AgentOs.Policy.PermissionStore
import AgentOs.Policy.Shown
import AgentOs.Policy.Spellings
import AgentOs.Policy.StoresAgree
import AgentOs.Profiles
import AgentOs.Runs.Database
import AgentOs.Runs.Ledger
import AgentOs.Schedules.Claims
import AgentOs.Schedules.Creation
import AgentOs.Schedules.Rebuild
import AgentOs.Schedules.Recurrence
import AgentOs.Schedules.Service
import AgentOs.Schedules.Store
import AgentOs.Schedules.StoredTimes
import AgentOs.Schemas
import AgentOs.Server.Approvals
import AgentOs.Server.ChatSocket
import AgentOs.Server.EventStream
import AgentOs.Server.Handover
import AgentOs.Server.Leftover
import AgentOs.Server.NoteGraph
import AgentOs.Server.Outcome
import AgentOs.Server.PrivateApi
import AgentOs.Server.RateLimit
import AgentOs.Server.RunExecutor
import AgentOs.Server.RunTasks
import AgentOs.Server.SharedThreads
import AgentOs.Server.SilentCheck
import AgentOs.Server.Statuses
import AgentOs.Server.ToolFailure
import AgentOs.Sessions
import AgentOs.SkillAuthoring.Confirmation
import AgentOs.SkillAuthoring.Decisions
import AgentOs.SkillAuthoring.Drafts
import AgentOs.SkillAuthoring.Promotion
import AgentOs.SkillAuthoring.RegisteredSkills
import AgentOs.SkillAuthoring.Registration
import AgentOs.SkillAuthoring.SkillsList
import AgentOs.SkillAuthoring.WorkspaceToml
import AgentOs.Stores.AddedColumn
import AgentOs.Stores.AdditiveGuard
import AgentOs.Stores.Backup
import AgentOs.Stores.GuardSoundness
import AgentOs.Stores.MigrationRunner
import AgentOs.Stores.Migrations
import AgentOs.Stores.RepeatedColumn
import AgentOs.Strategies.Selection
import AgentOs.Tools.DefaultRegistry
import AgentOs.Tools.OutputLimits
import AgentOs.Tools.Sandbox
import AgentOs.Tools.SkillRegistration
import AgentOs.Tools.Skills
import AgentOs.Tools.Truncation
import AgentOs.Validation
import AgentOs.Webhooks.Delivery
import AgentOs.Webhooks.Shutdown
