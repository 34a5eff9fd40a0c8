import Roadstead.Lib.Dict
import Roadstead.Lib.Run
import Roadstead.Lib.Binary64
import Roadstead.Config
import Roadstead.CostModel
import Roadstead.CostModel.Faults
import Roadstead.AgentBudget
import Roadstead.AgentBudget.Rates
import Roadstead.AgentBudget.Eviction
import Roadstead.Request
import Roadstead.EndpointQueue
import Roadstead.Scheduler
import Roadstead.Scheduler.State
import Roadstead.Scheduler.Moves
import Roadstead.Scheduler.Pass
import Roadstead.Scheduler.Operations
import Roadstead.Scheduler.Queues
import Roadstead.Scheduler.Live
import Roadstead.Scheduler.World
import Roadstead.Scheduler.Safety
import Roadstead.Scheduler.Reserve
import Roadstead.Scheduler.Bands
import Roadstead.Scheduler.Expiry
import Roadstead.Scheduler.SpillCap
import Roadstead.Scheduler.Accounting
import Roadstead.Dispatch
import Roadstead.Dispatch.Exits
import Roadstead.Dispatch.Sync
import Roadstead.Dispatch.Stream
import Roadstead.Lifecycle
import Roadstead.Lifecycle.Steps
import Roadstead.Lifecycle.SlotLeak
import Roadstead.Lifecycle.Unsettled
import Roadstead.Lifecycle.Ownership
import Roadstead.Lifecycle.Routing
import Roadstead.Failover
import Roadstead.Store
import Roadstead.Store.Recovery
import Roadstead.Gateway
import Roadstead.Gateway.Steps
import Roadstead.Gateway.Deadline
import Roadstead.Gateway.Dwell
import Roadstead.Gateway.Identity
import Roadstead.Gateway.Cohort
import Roadstead.Gateway.Holds
import Roadstead.Gateway.Cache
import Roadstead.Lifecycle.Answers
import Roadstead.Store.Narrowing
import Roadstead.Spend
import Roadstead.Spend.Replay
import Roadstead.Savings
import Roadstead.Savings.Lifetime
import Roadstead.Lib.Json
import Roadstead.Lib.Text
import Roadstead.Lib.Scanner
import Roadstead.Lib.Json.Scan
import Roadstead.Lib.Json.Plain
import Roadstead.Lib.Json.Extend
import Roadstead.Lib.Json.Canonical
import Roadstead.ThinkBleed
import Roadstead.ThinkBleed.Stream
import Roadstead.Grammar
import Roadstead.Grammar.Admission
import Roadstead.Providers
import Roadstead.Grammar.Wire
import Roadstead.Sanitizer
import Roadstead.Sanitizer.Sound
import Roadstead.Sanitizer.Slots
import Roadstead.Sanitizer.Complete
import Roadstead.Replay
import Roadstead.Replay.Stream
import Roadstead.Replay.Cache
import Roadstead.Replay.Agreement
import Roadstead.ToolTurn
import Roadstead.Watched
import Roadstead.Watched.Frames
import Roadstead.Watched.Streamed
import Roadstead.Watched.Agreement
import Roadstead.Egress
import Roadstead.Egress.Contract
import Roadstead.Egress.Floor
import Roadstead.ModelCatalog
import Roadstead.ModelCatalog.Agreement
import Roadstead.Goodput
import Roadstead.Goodput.Blindness
import Roadstead.Goodput.Hold
import Roadstead.Identity
import Roadstead.Identity.Forwarded
import Roadstead.Identity.Keys
import Roadstead.Identity.Revoked
import Roadstead.Identity.Narrowing
import Roadstead.Management
import Roadstead.Management.Facts
import Roadstead.Management.Recorded
import Roadstead.Management.Restart
import Roadstead.Management.Handlers
import Roadstead.Management.Refused
import Roadstead.NoStore
import Roadstead.NoStore.Shapes
import Roadstead.NoStore.Noninterference
import Roadstead.TimeoutModel
import Roadstead.TimeoutModel.Monotone
import Roadstead.CostModel.Untyped
import Roadstead.CostModel.Charged
import Roadstead.Providers.Views
import Roadstead.Lib.Window
import Roadstead.Watched.BlankRun
import Roadstead.Egress.Structured
import Roadstead.Egress.ForcedTool
import Roadstead.NoStore.Attribution
import Roadstead.Replay.Split
import Roadstead.ReasoningLoop
import Roadstead.ThinkingSwitch
import Roadstead.ThinkingSwitch.Exact
import Roadstead.ThinkingSwitch.Renamed
import Roadstead.Lib.Objects
import Roadstead.ThinkingSwitch.Copies
import Roadstead.ReasoningEffort
import Roadstead.Providers.TemplateKwargs
import Roadstead.ReasoningEffort.Fold
import Roadstead.ReasoningEffort.Wire
import Roadstead.ReasoningEffort.OptIn
import Roadstead.ReasoningEffort.Efforts
import Roadstead.ReasoningEffort.Caller
import Roadstead.Rate
import Roadstead.Rate.Window
import Roadstead.Demotion
import Roadstead.Spend.Ledger
import Roadstead.Providers.Alternation
import Roadstead.Providers.InPlace
import Roadstead.Providers.FastPath
import Roadstead.Providers.Prepare
import Roadstead.Grammar.Source
import Roadstead.Grammar.Recover
import Roadstead.Lib.Turns
import Roadstead.Grammar.CharClass
import Roadstead.Grammar.Lexeme
import Roadstead.Grammar.Hyphens
import Roadstead.Grammar.Content
import Roadstead.Intent
import Roadstead.Intent.Fair
import Roadstead.Intent.Asked
import Roadstead.Lib.Recency
import Roadstead.Replay.Bounded
import Roadstead.PrefixKeepalive
import Roadstead.PrefixKeepalive.Accounting
import Roadstead.Breaker
import Roadstead.Breaker.Law
import Roadstead.Lib.Like
import Roadstead.Store.Stalls
import Roadstead.TimeoutModel.Aging
import Roadstead.AgentBudget.Restart
import Roadstead.Identity.Register
import Roadstead.Identity.HeaderLines
import Roadstead.Management.Rotation
import Roadstead.Management.Reports
import Roadstead.Management.Verdict
import Roadstead.Lib.Since
import Roadstead.AgentBudget.DebtClock
import Roadstead.CostModel.Curve
import Roadstead.Lib.Json.Longer
import Roadstead.CostModel.Enlarged
import Roadstead.CostModel.Monotone
import Roadstead.SSEHub
import Roadstead.SSEHub.Delivery
import Roadstead.Store.Writer
import Roadstead.Lib.Rotation
import Roadstead.RequestLogger
import Roadstead.Lib.Lines
import Roadstead.Lib.Json.Dump
import Roadstead.Lib.Json.Reread
import Roadstead.Lib.Json.OneLine
import Roadstead.Lib.Json.Loaded
import Roadstead.StreamWire
import Roadstead.StreamWire.Received
import Roadstead.StreamWire.Texts
import Roadstead.Scheduler.Raising
import Roadstead.Lifecycle.Raising
import Roadstead.Gateway.Raising
