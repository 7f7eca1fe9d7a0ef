import Propfirm.Core.Types

/-!
# Violation records
-/

namespace Propfirm

inductive RuleName where
  | dailyDrawdown
  | maxDrawdown
  | trailingDrawdown
  | profitTarget
  | minTradingDays
  | minProfitableDays
  | consistency
  | newsTrading
  | overnightHolding
  | weekendHolding
  | maxPositionSize
  | maxOpenPositions
  | maxDailyTrades
  | timeLimit
  | cooldown
  | hedging
  | gridTrading
  | copyTrading
  | slRequired
  | tpRequired
  | hftScalping
  | perTradeMaxLoss
  | inactivity
  | maxTotalLots
  | tradingHours
  | margin
  | crossAccountHedging
  | lowcapExposure
deriving DecidableEq

/-- A rule identifier: derived from a standard name (taken to be injective on those names), or any
other identifier of a custom rule. -/
inductive RuleId where
  | named (name : RuleName)
  | uuid (raw : ℕ)
deriving DecidableEq

inductive ViolationSeverity where
  | info
  | warning
  | hard
  | liquidate
deriving DecidableEq

/-- The declaration order, by which severities are compared. -/
def ViolationSeverity.rank : ViolationSeverity → ℕ
  | .info => 0
  | .warning => 1
  | .hard => 2
  | .liquidate => 3

inductive ViolationKind where
  | dailyDrawdown
  | maxDrawdown
  | trailingDrawdown
  | profitTargetMissed
  | minTradingDays
  | minProfitableDays
  | consistency
  | newsTrading
  | overnightHolding
  | weekendHolding
  | maxPositionSize
  | maxLotSize
  | maxOpenPositions
  | maxDailyTrades
  | timeLimit
  | cooldown
  | hedging
  | gridTrading
  | copyTrading
  | missingStopLoss
  | missingTakeProfit
  | crossAccountHedging
  | lowcapExposure
  | custom
deriving DecidableEq

structure Violation where
  id : ViolationId
  accountId : AccountId
  tenantId : TenantId
  ruleId : RuleId
  ruleName : String
  kind : ViolationKind
  severity : ViolationSeverity
  message : Text
  occurredAt : Timestamp
  breachValue : Option Money
  thresholdValue : Option Money
  utilization : Option Decimal
deriving DecidableEq

namespace Violation

def withBreach (v : Violation) (breach threshold : Money) : Violation :=
  { v with
    breachValue := some breach
    thresholdValue := some threshold
    utilization := if threshold = 0 then v.utilization else some (breach / threshold) }

end Violation

end Propfirm
