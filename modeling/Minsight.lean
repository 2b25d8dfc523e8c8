import Minsight.Agent.Accounting
import Minsight.Agent.Bounds
import Minsight.Agent.Closure
import Minsight.Agent.Conclusion
import Minsight.Agent.Conversation
import Minsight.Agent.Effects
import Minsight.Agent.Grounding
import Minsight.Agent.Loop
import Minsight.Agent.Orchestrator
import Minsight.Agent.SkillFailures
import Minsight.Agent.Steps
import Minsight.Agent.Supervisor
import Minsight.Aggregation.Columns
import Minsight.Aggregation.Effects
import Minsight.Aggregation.IsoDates
import Minsight.Aggregation.Key
import Minsight.Aggregation.Separation
import Minsight.Aggregation.Service
import Minsight.Aggregation.Statistics
import Minsight.Aggregation.Windows
import Minsight.Assets.Atomicity
import Minsight.Assets.Builders
import Minsight.Assets.Meaning
import Minsight.Assets.Pipeline
import Minsight.Assets.Selection
import Minsight.Assets.Settlement
import Minsight.Assets.Simulator
import Minsight.Assets.Suggestions
import Minsight.Assets.Survival
import Minsight.Concurrency.Counters
import Minsight.Concurrency.Jobs
import Minsight.Concurrency.Knowledge
import Minsight.Concurrency.Locks
import Minsight.Concurrency.Lookback
import Minsight.Concurrency.Promotion
import Minsight.Concurrency.Replies
import Minsight.Concurrency.SentOnce
import Minsight.Concurrency.Verdicts
import Minsight.Config.Seeds
import Minsight.Config.Settings
import Minsight.Config.Startup
import Minsight.Console.EventList
import Minsight.Console.NoisyRules
import Minsight.Console.RuleNoise
import Minsight.Entity.Graph
import Minsight.Entity.GraphCompleteness
import Minsight.Entity.GraphEdges
import Minsight.Entity.GraphSearch
import Minsight.Entity.NaiveUtc
import Minsight.Entity.Neighbours
import Minsight.Entity.RelationFile
import Minsight.Entity.RelationImport
import Minsight.Eval.Alongside
import Minsight.Eval.CaseFile
import Minsight.Eval.HealthCheck
import Minsight.Eval.HealthReport
import Minsight.Eval.Probe
import Minsight.Eval.RealModel
import Minsight.Eval.Regression
import Minsight.Eval.Runner
import Minsight.Foundation.Agreement
import Minsight.Foundation.Arithmetic
import Minsight.Foundation.Backlog
import Minsight.Foundation.Batch
import Minsight.Foundation.Cache
import Minsight.Foundation.Codec
import Minsight.Foundation.Conflicts
import Minsight.Foundation.Connections
import Minsight.Foundation.Decimal
import Minsight.Foundation.Digits
import Minsight.Foundation.Extrema
import Minsight.Foundation.Groups
import Minsight.Foundation.IpAddress
import Minsight.Foundation.IsoTime
import Minsight.Foundation.Joined
import Minsight.Foundation.Json
import Minsight.Foundation.JsonLex
import Minsight.Foundation.JsonText
import Minsight.Foundation.KeyOrder
import Minsight.Foundation.Leases
import Minsight.Foundation.Lines
import Minsight.Foundation.Overlay
import Minsight.Foundation.Pages
import Minsight.Foundation.Paging
import Minsight.Foundation.Quota
import Minsight.Foundation.Ranks
import Minsight.Foundation.Repeats
import Minsight.Foundation.Rows
import Minsight.Foundation.SortedSet
import Minsight.Foundation.Spans
import Minsight.Foundation.System
import Minsight.Foundation.Tally
import Minsight.Foundation.Text
import Minsight.Foundation.Tracks
import Minsight.Foundation.Trimmed
import Minsight.Foundation.Tx
import Minsight.Foundation.Worklist
import Minsight.Ingestion.Accounting
import Minsight.Ingestion.Batch
import Minsight.Ingestion.Blocking
import Minsight.Ingestion.Confinement
import Minsight.Ingestion.Cursor
import Minsight.Ingestion.Diagnostics
import Minsight.Ingestion.DiagnosticsLaws
import Minsight.Ingestion.Isolation
import Minsight.Ingestion.Mapper
import Minsight.Ingestion.Pagination
import Minsight.Ingestion.Service
import Minsight.Ingestion.Wazuh
import Minsight.Ingestion.Window
import Minsight.License.Format
import Minsight.License.Grace
import Minsight.License.Import
import Minsight.License.Manager
import Minsight.License.Refinement
import Minsight.Lifecycle.Docket
import Minsight.Lifecycle.Invariants
import Minsight.Lifecycle.Refinement
import Minsight.Lifecycle.ReviewSteps
import Minsight.Lifecycle.SettlementSteps
import Minsight.Lifecycle.Turns
import Minsight.Model.Database
import Minsight.Model.Enums
import Minsight.Model.Footprint
import Minsight.Model.World
import Minsight.Review.AuditSampler
import Minsight.Review.Delivery
import Minsight.Review.Message
import Minsight.Review.RoundTrip
import Minsight.Review.Service
import Minsight.Review.Stale
import Minsight.Review.Starvation
import Minsight.Review.Tags
import Minsight.Review.Webhook
import Minsight.Skills.HistoryAlerts
import Minsight.Skills.QueryAsset
import Minsight.System.AlertFinality
import Minsight.System.AlertLifecycle
import Minsight.System.AnswerLaw
import Minsight.System.BatchIsolation
import Minsight.System.Budget
import Minsight.System.ClosingLaw
import Minsight.System.Drain
import Minsight.System.Finality
import Minsight.System.Frames
import Minsight.System.Ledger
import Minsight.System.Outcomes
import Minsight.System.ProbeIsolation
import Minsight.System.Reinvestigation
import Minsight.System.ResendAllowance
import Minsight.System.ReviewLaw
import Minsight.System.Simulation
import Minsight.System.Step
import Minsight.ThreatIntel.Lookup
import Minsight.ThreatIntel.Merge
import Minsight.ThreatIntel.Sync
import Minsight.Triage.Assist
import Minsight.Triage.Context
import Minsight.Triage.Dedup
import Minsight.Triage.Duplicates
import Minsight.Triage.Effects
import Minsight.Triage.Frequency
import Minsight.Triage.Handlers
import Minsight.Triage.Hints
import Minsight.Triage.Lifecycle
import Minsight.Triage.Pattern
import Minsight.Triage.PatternLaws
import Minsight.Triage.RiskOrder
import Minsight.Triage.Routing
import Minsight.Triage.Service
