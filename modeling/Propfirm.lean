import Propfirm.Core.Types
import Propfirm.Core.Market
import Propfirm.Config.Plan
import Propfirm.Core.Account
import Propfirm.Core.Violation
import Propfirm.Rules.Context
import Propfirm.Rules.Evaluators.Drawdown
import Propfirm.Rules.Evaluators.Progress
import Propfirm.Rules.Evaluators.Orders
import Propfirm.Rules.Evaluators.Timing
import Propfirm.Rules.Evaluators.Patterns
import Propfirm.Rules.Registry
import Propfirm.Engine.Decision
import Propfirm.Engine.State
import Propfirm.Payout
import Propfirm.Engine.Events
import Propfirm.Engine.Pipeline
import Propfirm.Engine.Lemmas.Decision
import Propfirm.Lib.Fallible
import Propfirm.Engine.Lemmas.Transition
import Propfirm.Engine.Lemmas.Passage
import Propfirm.Rules.Lemmas.Verdicts
import Propfirm.Rules.Lemmas.Registry
import Propfirm.Engine.Lemmas.Status
import Propfirm.Engine.Theorems.Breaches
import Propfirm.Engine.Lemmas.Targets
import Propfirm.Engine.Theorems.Promotion
import Propfirm.Engine.Lemmas.Days
import Propfirm.Engine.Theorems.Days
import Propfirm.Hashing
import Propfirm.Lemmas.Hashing
import Propfirm.Lib.Memo
import Propfirm.RegistryCache
import Propfirm.RegistryCache.Theorems
import Propfirm.Pure
import Propfirm.Pure.Lemmas.Fields
import Propfirm.Pure.Lemmas.Erasure
import Propfirm.Pure.Lemmas.Agreement
import Propfirm.Pure.Theorems
import Propfirm.Api.Evaluate
import Propfirm.Api.Lemmas.Evaluate
import Propfirm.Api.Theorems
import Propfirm.Api.Lemmas.Parity
import Propfirm.Engine.Theorems.NewPhase
import Propfirm.Engine.Theorems.Announcements
import Propfirm.Engine.Theorems.Fills
import Propfirm.Lib.Watermark
import Propfirm.Payout.Lemmas
import Propfirm.Payout.Theorems
import Propfirm.Lib.Trailing
import Propfirm.Payout.Drawdowns
import Propfirm.Events.Store
import Propfirm.Events.Lemmas
import Propfirm.Events.Theorems.Status
import Propfirm.Events.Theorems.Books
import Propfirm.Engine.Theorems.Rollovers
import Propfirm.Engine.Lemmas.Runs
import Propfirm.Engine.Theorems.Ticks
import Propfirm.Engine.Lemmas.Estimates
import Propfirm.Engine.Theorems.Estimates
import Propfirm.Engine.Theorems.Floors
import Propfirm.Engine.Theorems.Peaks
import Propfirm.Engine.Theorems.Targets
import Propfirm.Pure.Estimates
import Propfirm.Engine.Theorems.CatchUp
import Propfirm.Engine.Theorems.History
import Propfirm.Lib.Clock
import Propfirm.Config.Zones
import Propfirm.Config.Theorems
import Propfirm.Engine.Theorems.Safety
import Propfirm.Engine.Theorems.Arbitration
import Propfirm.Engine.Theorems.Faults
import Propfirm.Engine.Theorems.PlanRegistry
import Propfirm.Engine.Theorems.Ledger
import Propfirm.Engine.Lemmas.Positions
import Propfirm.Engine.Theorems.Volume
import Propfirm.Engine.Theorems.Caps
import Propfirm.Engine.Theorems.Rejections
import Propfirm.Api.Idempotency
import Propfirm.Api.Lemmas.Idempotency
import Propfirm.Api.Retries
import Propfirm.Api.EvaluateRetries
import Propfirm.Rules.Lemmas.Grades
import Propfirm.Api.Attribution
import Propfirm.Lib.Threshold
import Propfirm.Rules.Lemmas.Limits
import Propfirm.Rules.Theorems.Utilization
import Propfirm.Rules.Theorems.EarlyWarnings
import Propfirm.Rules.Theorems.Packs
import Propfirm.Engine.Theorems.Identity
import Propfirm.Engine.Theorems.Liquidations
import Propfirm.Rules.Lemmas.Failures
import Propfirm.Rules.Lemmas.Texts
import Propfirm.Rules.StoredPack
import Propfirm.Rules.Theorems.ContentHash
import Propfirm.Lib.Json
import Propfirm.Rules.PackJson
import Propfirm.Rules.Theorems.PackJson
import Propfirm.Rules.Theorems.MoneyLimits
import Propfirm.Rules.Theorems.Severity
import Propfirm.Api.FloorHints
import Propfirm.Engine.Theorems.EodLock
import Propfirm.Rules.Theorems.CopyTrading
import Propfirm.Lib.Timeline
import Propfirm.Rules.Theorems.Escalation
import Propfirm.Lib.Spread
import Propfirm.Rules.Theorems.GridShape
import Propfirm.Lib.Edits
import Propfirm.Rules.Theorems.Index
import Propfirm.Rules.Theorems.NewsWindow
import Propfirm.Rules.Theorems.OrderChecks
import Propfirm.Rules.Theorems.Exposure
import Propfirm.Engine.Theorems.HoldingBans
import Propfirm.Engine.Theorems.Pacing
import Propfirm.Api.Operations
import Propfirm.Lib.Recency
import Propfirm.Api.Eviction
import Propfirm.Lib.Curve
import Propfirm.Risk.Drawdown
import Propfirm.Risk.Theorems.Drawdowns
import Propfirm.Lib.Amounts
import Propfirm.Risk.Exposure
import Propfirm.Risk.Theorems.TradeStats
import Propfirm.Engine.Theorems.Consistency
import Propfirm.Risk.Theorems.Exposure
import Propfirm.Api.Lemmas.Service
import Propfirm.Api.Sessions
import Propfirm.Engine.Theorems.Reachable
import Propfirm.Engine.Theorems.OpenPositions
import Propfirm.Events.Theorems.Fleet
import Propfirm.Engine.Theorems.Settlement
import Propfirm.Payout.Requests
import Propfirm.Api.PackValidation
import Propfirm.Api.Repl
import Propfirm.Engine.Theorems.Stricter
