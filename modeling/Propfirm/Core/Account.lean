import Propfirm.Core.Market
import Propfirm.Config.Plan

/-!
# The account aggregate
-/

namespace Propfirm

inductive AccountType where
  | phase1
  | phase2
  | funded
  | demo
deriving DecidableEq

def AccountType.ofPhase : ChallengePhase → AccountType
  | .phase1 => .phase1
  | .phase2 => .phase2
  | .funded => .funded

inductive AccountStatus where
  | pending
  | active
  | targetHitPending
  | passed
  | failed
  | funded
  | payoutPending
  | closed
  | emergencyStopped
deriving DecidableEq

inductive EvaluationMode where
  | evaluate
  | skip
deriving DecidableEq

namespace AccountStatus

def debug : AccountStatus → String
  | .pending => "Pending"
  | .active => "Active"
  | .targetHitPending => "TargetHitPending"
  | .passed => "Passed"
  | .failed => "Failed"
  | .funded => "Funded"
  | .payoutPending => "PayoutPending"
  | .closed => "Closed"
  | .emergencyStopped => "EmergencyStopped"

def isBreachTerminal (s : AccountStatus) : Bool := s == .failed || s == .emergencyStopped

def evaluationMode : AccountStatus → EvaluationMode
  | .active | .funded | .targetHitPending | .payoutPending => .evaluate
  | .pending | .passed | .failed | .closed | .emergencyStopped => .skip

end AccountStatus

structure Account where
  id : AccountId
  accountType : AccountType
  status : AccountStatus
  challengeId : Option ChallengeId
  plan : ChallengePlan
  tenantId : TenantId
  initialBalance : Money
  balance : Money
  equity : Money
  estimatedEquity : Money
  estimatedBalance : Money
  peakEquity : Money
  peakBalance : Money
  startedAt : Option Timestamp
  deadline : Option Timestamp
  dayStartBalance : Money
  tradingDayIndex : ℕ
  activeTradingDays : ℕ
  dayCountedToday : Bool
  todayRealizedPnl : Money
  totalRealizedPnl : Money
  totalCommissions : Money
  totalSwaps : Money
  largestDayProfit : Money
  largestDayLoss : Money
  sumPositiveDaysProfit : Money
  dayStartEquity : Money
  intradayPeakEquity : Money
  profitableDaysCount : ℕ
  qualifyingTradingDaysCount : ℕ
  currentTradingDayStart : Option Timestamp
  targetReachedAt : Option Timestamp
  targetReachedOnDay : Option ℕ
  version : ℕ
  lastTickTs : Option Timestamp
  lastTradeAt : Option Timestamp
  payoutCount : ℕ
  balanceAtLastPayout : Money
  lastPayoutAt : Option Timestamp
  refundUsed : Bool
  statusBeforeBreach : Option AccountStatus
  openPositions : List Position
  todayTrades : List Trade

namespace Account

/-- A pending account bound to a plan, under the tenant drawn for it. -/
def new (id : AccountId) (tenantId : TenantId) (plan : ChallengePlan) : Account where
  id
  accountType := .ofPhase plan.phase
  status := .pending
  challengeId := some plan.id
  plan
  tenantId
  initialBalance := plan.initialBalance
  balance := plan.initialBalance
  equity := plan.initialBalance
  estimatedEquity := plan.initialBalance
  estimatedBalance := plan.initialBalance
  peakEquity := plan.initialBalance
  peakBalance := plan.initialBalance
  startedAt := none
  deadline := none
  dayStartBalance := plan.initialBalance
  tradingDayIndex := 0
  activeTradingDays := 0
  dayCountedToday := false
  todayRealizedPnl := 0
  totalRealizedPnl := 0
  totalCommissions := 0
  totalSwaps := 0
  largestDayProfit := 0
  largestDayLoss := 0
  sumPositiveDaysProfit := 0
  dayStartEquity := plan.initialBalance
  intradayPeakEquity := plan.initialBalance
  profitableDaysCount := 0
  qualifyingTradingDaysCount := 0
  currentTradingDayStart := none
  targetReachedAt := none
  targetReachedOnDay := none
  version := 0
  lastTickTs := none
  lastTradeAt := none
  payoutCount := 0
  balanceAtLastPayout := plan.initialBalance
  lastPayoutAt := none
  refundUsed := false
  statusBeforeBreach := none
  openPositions := []
  todayTrades := []

def start (a : Account) (at_ : Timestamp) : Outcome Account :=
  if a.status = .pending then do
    let dayStart ← a.plan.tradingDayStart at_
    pure
      { a with
        status := .active
        startedAt := some at_
        currentTradingDayStart := some dayStart
        deadline :=
          match a.plan.timeLimitDays with
          | some days => some (at_ + Duration.days days)
          | none => a.deadline }
  else
    raise (.invalidState
      [.lit "account ", .accountId a.id, .lit " is not pending (status = ", .lit a.status.debug,
        .lit ")"])

/-! ## Limits, drawdowns and targets -/

def dailyDdLimit (a : Account) : Money :=
  a.plan.maxDailyDrawdownPct *
    (if a.plan.drawdownOnBalance then a.dayStartBalance else a.dayStartEquity)

def maxDdLimitStatic (a : Account) : Money := a.plan.maxTotalDrawdownPct * a.initialBalance
def maxDdLimitTrailing (a : Account) : Money := a.plan.maxTotalDrawdownPct * a.peakBalance
def maxDdLimitEodTrailing (a : Account) : Money := a.plan.maxTotalDrawdownPct * a.dayStartBalance

def maxDdLimit (a : Account) : Money :=
  match a.plan.maxLossReference with
  | .static => a.maxDdLimitStatic
  | .trailing => a.maxDdLimitTrailing
  | .eodTrailing => a.maxDdLimitEodTrailing
  | .intradayTrail =>
      a.plan.maxTotalDrawdownPct * (if a.plan.drawdownOnBalance then a.peakBalance else a.peakEquity)

def totalDrawdown (a : Account) : Money :=
  let reference :=
    match a.plan.maxLossReference with
    | .static => a.initialBalance
    | .trailing => a.peakBalance
    | .eodTrailing => a.dayStartBalance
    | .intradayTrail => if a.plan.drawdownOnBalance then a.peakBalance else a.peakEquity
  let current := if a.plan.drawdownOnBalance then a.balance else a.equity
  max (reference - current) 0

def dailyDrawdown (a : Account) : Money :=
  if a.plan.drawdownOnBalance then max (a.dayStartBalance - a.balance) 0
  else max (a.dayStartEquity - a.equity) 0

def profitTarget (a : Account) : Money := a.plan.profitTargetPct * a.initialBalance
def netProfit (a : Account) : Money := a.balance - a.initialBalance
def reachedProfitTarget (a : Account) : Bool := decide (a.profitTarget ≤ a.netProfit)

def dailyDdUtilization (a : Account) : Pct :=
  if a.dailyDdLimit = 0 then 0 else a.dailyDrawdown / a.dailyDdLimit

def maxDdUtilization (a : Account) : Pct :=
  if a.maxDdLimit = 0 then 0 else a.totalDrawdown / a.maxDdLimit

end Account

/-! ## Snapshots -/

structure AccountSnapshot where
  id : AccountId
  accountType : AccountType
  status : AccountStatus
  initialBalance : Money
  balance : Money
  equity : Money
  estimatedEquity : Money
  estimatedBalance : Money
  peakEquity : Money
  peakBalance : Money
  dayStartBalance : Money
  netProfit : Money
  dailyDrawdown : Money
  totalDrawdown : Money
  dailyDdUtilization : Pct
  maxDdUtilization : Pct
  profitTarget : Money
  profitTargetUtilization : Pct
  activeTradingDays : ℕ
  tradingDayIndex : ℕ
  startedAt : Option Timestamp
  deadline : Option Timestamp
  challengeId : Option ChallengeId
  targetReachedAt : Option Timestamp
  maxLossReference : LossReference
  version : ℕ
  tenantId : TenantId
deriving DecidableEq

def AccountSnapshot.ofAccount (a : Account) : AccountSnapshot where
  id := a.id
  accountType := a.accountType
  status := a.status
  initialBalance := a.initialBalance
  balance := a.balance
  equity := a.equity
  estimatedEquity := a.estimatedEquity
  estimatedBalance := a.estimatedBalance
  peakEquity := a.peakEquity
  peakBalance := a.peakBalance
  dayStartBalance := a.dayStartBalance
  netProfit := a.netProfit
  dailyDrawdown := a.dailyDrawdown
  totalDrawdown := a.totalDrawdown
  dailyDdUtilization := a.dailyDdUtilization
  maxDdUtilization := a.maxDdUtilization
  profitTarget := a.profitTarget
  profitTargetUtilization := if a.profitTarget = 0 then 0 else max a.netProfit 0 / a.profitTarget
  activeTradingDays := a.activeTradingDays
  tradingDayIndex := a.tradingDayIndex
  startedAt := a.startedAt
  deadline := a.deadline
  challengeId := a.challengeId
  targetReachedAt := a.targetReachedAt
  maxLossReference := a.plan.maxLossReference
  version := a.version
  tenantId := a.tenantId

end Propfirm
