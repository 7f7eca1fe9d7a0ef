import Propfirm.Core.Account

/-!
# State transitions of an account

The engine's `AccountState` is a wrapper around the account; its transitions are functions on the
account here.
-/

namespace Propfirm

structure Override where
  accountId : AccountId
  clearsViolationId : ViolationId
  reason : String
  actorId : String
  «at» : Timestamp
deriving DecidableEq

def Override.validate (o : Override) : Outcome Unit :=
  if isBlank o.reason then
    raise (.invalidState
      [.lit ("override reason cannot be empty — must explain why the breach is a false positive")])
  else if isBlank o.actorId then
    raise (.invalidState
      [.lit "override actor_id cannot be empty — must identify the responsible human"])
  else .ok ()

namespace Account

/-! ## Balances -/

/-- Books a realized result; equity is set to the balance until the next tick. -/
def applyRealizedPnl (a : Account) (pnl commission swap : Money) (executedAt : Timestamp) :
    Account :=
  let net := pnl - commission - swap
  let balance := a.balance + net
  { a with
    balance
    equity := balance
    peakBalance := if a.peakBalance < balance then balance else a.peakBalance
    todayRealizedPnl := a.todayRealizedPnl + net
    totalRealizedPnl := a.totalRealizedPnl + net
    totalCommissions := a.totalCommissions + commission
    totalSwaps := a.totalSwaps + swap
    lastTradeAt := some executedAt }

def updateEquity (a : Account) (equity : Money) : Account :=
  { a with
    equity
    peakEquity := if a.peakEquity < equity then equity else a.peakEquity
    intradayPeakEquity := if a.intradayPeakEquity < equity then equity else a.intradayPeakEquity }

/-- Writes an estimate to its own track; the broker's figures are untouched. -/
def setEstimatedEquity (a : Account) (equity balance : Money) : Account :=
  { a with estimatedEquity := equity, estimatedBalance := balance }

def updateBalance (a : Account) (balance : Money) : Account :=
  { a with
    balance
    peakBalance := if a.peakBalance < balance then balance else a.peakBalance }

/-! ## Days -/

def dayQualifies (a : Account) : Bool :=
  let meets (threshold : Option Pct) : Bool :=
    match threshold with
    | some t => decide (t * a.initialBalance ≤ |a.todayRealizedPnl|)
    | none => true
  (a.plan.qualifyingDayThresholdPct.isSome || a.plan.qualifyingDayPnlBandPct.isSome) &&
    meets a.plan.qualifyingDayThresholdPct && meets a.plan.qualifyingDayPnlBandPct

def closeTradedDay (a : Account) : Account :=
  let todayNet := a.todayRealizedPnl
  { a with
    largestDayProfit := if a.largestDayProfit < todayNet then todayNet else a.largestDayProfit
    largestDayLoss := if todayNet < a.largestDayLoss then todayNet else a.largestDayLoss
    sumPositiveDaysProfit :=
      if 0 < todayNet then a.sumPositiveDaysProfit + todayNet else a.sumPositiveDaysProfit
    profitableDaysCount :=
      if 0 < todayNet then a.profitableDaysCount + 1 else a.profitableDaysCount
    qualifyingTradingDaysCount :=
      if a.dayQualifies then a.qualifyingTradingDaysCount + 1 else a.qualifyingTradingDaysCount
    activeTradingDays := if a.dayCountedToday then a.activeTradingDays else a.activeTradingDays + 1 }

def openNextDay (a : Account) (dayStart : Timestamp) : Account :=
  { a with
    tradingDayIndex := a.tradingDayIndex + 1
    dayStartBalance := a.balance
    dayStartEquity := a.equity
    intradayPeakEquity := a.equity
    todayRealizedPnl := 0
    todayTrades := []
    dayCountedToday := false
    currentTradingDayStart := some dayStart }

def dayStartOr (a : Account) (ts : Timestamp) : Outcome Timestamp :=
  match a.currentTradingDayStart with
  | some start => .ok start
  | none => a.plan.tradingDayStart ts

/-- Where a rollover moves the day boundary: to the day of the target time, or one day on. -/
def rolloverTarget (a : Account) (targetTs : Option Timestamp) (now : Timestamp) :
    Outcome Timestamp :=
  match targetTs with
  | some ts => a.plan.tradingDayStart ts
  | none => do
      let current ← a.dayStartOr now
      a.plan.nextTradingDayStart current

def rolloverDay (a : Account) (hadTradesToday : Bool) (targetTs : Option Timestamp)
    (now : Timestamp) : Outcome Account := do
  let dayStart ← a.rolloverTarget targetTs now
  pure ((if hadTradesToday then a.closeTradedDay else a).openNextDay dayStart)

def markActiveTradingDay (a : Account) : Account :=
  if a.dayCountedToday then a
  else { a with activeTradingDays := a.activeTradingDays + 1, dayCountedToday := true }

/-! ## Phases, targets and breaches -/

def upgradePhase (a : Account) (next : ChallengePhase) : Outcome Account :=
  match a.plan.phase, next with
  | .phase1, .phase2 | .phase2, .funded =>
      .ok { a with plan := a.plan.withPhase next, accountType := .ofPhase next }
  | current, next =>
      raise (.invalidState
        [.lit "invalid phase transition: ", .lit current.debug, .lit " -> ", .lit next.debug])

/-- Records the first time the target is reached; only an active account becomes pending. -/
def markTargetReached (a : Account) (reachedAt : Timestamp) : Account :=
  if a.targetReachedAt.isNone then
    { a with
      targetReachedAt := some reachedAt
      targetReachedOnDay := some a.tradingDayIndex
      status := if a.status = .active then .targetHitPending else a.status }
  else a

/-- Stops the account, remembering its status unless one is remembered already. -/
def emergencyStop (a : Account) : Account :=
  { a with
    statusBeforeBreach :=
      if a.statusBeforeBreach.isNone then some a.status else a.statusBeforeBreach
    status := .emergencyStopped }

def clearBreach (a : Account) : Outcome Account :=
  match a.status with
  | .failed | .emergencyStopped =>
      .ok
        { a with
          status := a.statusBeforeBreach.getD (if a.accountType = .funded then .funded else .active)
          statusBeforeBreach := none }
  | other =>
      raise (.invalidState
        [.lit "cannot clear breach from status ", .lit other.debug,
          .lit " — only Failed/EmergencyStopped are clearable"])

def markPayoutPending (a : Account) : Outcome Account :=
  match a.status with
  | .funded => .ok { a with status := .payoutPending }
  | .payoutPending => .ok a
  | other =>
      raise (.invalidState
        [.lit "cannot request a payout from status ", .lit other.debug,
          .lit " — only funded accounts can be paid"])

end Account

def equityAfterTick (balance : Money) (positions : List Position) (quote : Quote) : Money :=
  balance + ((positions.filter Position.isOpen).map fun p => p.unrealizedPnl quote).sum

end Propfirm
