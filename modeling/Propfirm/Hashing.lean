import Propfirm.Core.Account

/-!
# What is fed to a hasher

A hashed record is the list of the values fed to the hasher, one for each field that is hashed.
Identifiers of every kind are hashed alike, and an enumeration by the position of its case.
-/

namespace Propfirm

inductive FieldValue where
  | uuid (raw : ℕ)
  | text (s : String)
  | discriminant (index : ℕ)
  | flag (b : Bool)
  | count (n : ℕ)
  | decimal (d : Decimal)
  | time (t : Timestamp)
  | absent
  | present (v : FieldValue)
  | pair (a b : FieldValue)
deriving DecidableEq

def FieldValue.option {α : Type} (f : α → FieldValue) : Option α → FieldValue
  | none => .absent
  | some a => .present (f a)

namespace ChallengePlan

/-- The fields of a plan up to its phase, which every hash of a plan starts with. -/
def coreFields (p : ChallengePlan) : List FieldValue :=
  [.decimal p.initialBalanceMoney, .decimal p.profitTargetPct, .decimal p.maxDailyDrawdownPct,
    .decimal p.maxTotalDrawdownPct, .discriminant p.maxLossReference.ctorIdx,
    .flag p.drawdownOnBalance, .flag p.trailingDrawdownEnabled, .decimal p.trailingDrawdownPct,
    .count p.minTradingDays, .option .count p.timeLimitDays, .count p.dayResetTime,
    .option .decimal p.maxPositionLots, .option .decimal p.maxTotalLots,
    .option .count p.maxOpenPositions, .option .count p.maxDailyTrades, .flag p.newsTradingAllowed,
    .flag p.overnightHoldingAllowed, .flag p.weekendHoldingAllowed, .flag p.hedgingAllowed,
    .flag p.gridTradingAllowed, .flag p.copyTradingAllowed, .flag p.requireStopLoss,
    .flag p.requireTakeProfit, .option .decimal p.consistencyPct, .count p.cooldownSeconds,
    .count p.leverage, .option (fun hours => .pair (.count hours.1) (.count hours.2)) p.tradingHours,
    .option .decimal p.perTradeMaxLossPct, .option .decimal p.perTradeMaxLossMoney,
    .flag p.hftBanEnabled, .count p.hftMinRoundTripSeconds, .option .count p.inactivityDays,
    .discriminant p.phase.ctorIdx]

/-- The fields of a plan in the input hash of a verdict (`hash_plan_into`). -/
def hashedFields (p : ChallengePlan) : List FieldValue :=
  p.coreFields ++
    [.flag p.timezone.isSome, .flag p.refundable, .decimal p.refundFeeAmount,
      .flag p.payoutConfig.isSome]

/-- The fields of a plan in its cache key (`plan_cache_key`). -/
def cacheFields (p : ChallengePlan) : List FieldValue :=
  p.coreFields ++
    [.flag p.timezone.isSome, .flag p.payoutConfig.isSome, .flag p.refundable,
      .decimal p.refundFeeAmount]

end ChallengePlan

/-- The fields of an account in the input hash of a verdict, without those of its plan. -/
def Account.hashedFields (a : Account) : List FieldValue :=
  [.uuid a.id.raw, .uuid a.tenantId.raw, .discriminant a.accountType.ctorIdx, .decimal a.balance,
    .decimal a.equity, .decimal a.estimatedEquity, .decimal a.estimatedBalance,
    .decimal a.peakBalance, .decimal a.peakEquity, .decimal a.dayStartBalance,
    .decimal a.dayStartEquity, .decimal a.totalRealizedPnl, .decimal a.todayRealizedPnl,
    .decimal a.totalCommissions, .decimal a.totalSwaps, .decimal a.largestDayProfit,
    .decimal a.largestDayLoss, .decimal a.sumPositiveDaysProfit, .count a.activeTradingDays,
    .count a.tradingDayIndex, .flag a.dayCountedToday, .option .time a.targetReachedAt,
    .option .count a.targetReachedOnDay, .discriminant a.status.ctorIdx, .count a.version,
    .option .time a.lastTickTs, .option .time a.lastTradeAt]

end Propfirm
