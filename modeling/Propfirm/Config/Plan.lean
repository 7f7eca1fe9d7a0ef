import Propfirm.Core.Types

/-!
# Challenge plans and the trading-day calendar
-/

namespace Propfirm

/-! ## Plan vocabulary -/

inductive ChallengePhase where
  | phase1
  | phase2
  | funded
deriving DecidableEq

def ChallengePhase.debug : ChallengePhase → String
  | .phase1 => "Phase1"
  | .phase2 => "Phase2"
  | .funded => "Funded"

inductive LossReference where
  | static
  | trailing
  | eodTrailing
  | intradayTrail
deriving DecidableEq

def LossReference.debug : LossReference → String
  | .static => "Static"
  | .trailing => "Trailing"
  | .eodTrailing => "EodTrailing"
  | .intradayTrail => "IntradayTrail"

inductive DailyLossType where
  | none
  | pctInitial
  | pctPriorDay
  | trailingIntradayHigh
deriving DecidableEq

def DailyLossType.display : DailyLossType → String
  | .none => "none"
  | .pctInitial => "pct_initial"
  | .pctPriorDay => "pct_prior_day"
  | .trailingIntradayHigh => "trailing_intraday_high"

inductive ConsistencyType where
  | none
  | bestDayPctOfTotal
  | bestDayPctOfPositiveDays
deriving DecidableEq

structure PlanMeta where
  firmName : String
  programName : String
  version : String
  currency : String
  description : String
deriving DecidableEq

def PlanMeta.default : PlanMeta where
  firmName := "Generic Prop Firm"
  programName := "Standard Evaluation"
  version := "1.0.0"
  currency := "USD"
  description := ""

/-! ## Payout configuration -/

inductive PayoutCycle where
  | onDemand
  | biWeekly
  | monthly
deriving DecidableEq

def PayoutCycle.minGap : PayoutCycle → Option Duration
  | .onDemand => none
  | .biWeekly => some (Duration.days 14)
  | .monthly => some (Duration.days 30)

structure SplitTier where
  traderShare : Decimal
deriving DecidableEq

structure QualifyingDaysConfig where
  minDays : ℕ
  minPnlPerDay : Money
deriving DecidableEq

structure PayoutConfig where
  minimumPayout : Money
  cycle : PayoutCycle
  tiers : List SplitTier
  qualifyingDays : Option QualifyingDaysConfig
deriving DecidableEq

namespace PayoutConfig

def default : PayoutConfig where
  minimumPayout := 100
  cycle := .onDemand
  tiers := [⟨80 / 100⟩, ⟨90 / 100⟩, ⟨1⟩]
  qualifyingDays := none

/-- The share of the `payoutCount`-th payout; the last tier repeats. -/
def traderShareFor (c : PayoutConfig) (payoutCount : ℕ) : Decimal :=
  ((c.tiers[min payoutCount (c.tiers.length - 1)]?).map SplitTier.traderShare).getD 0

end PayoutConfig

/-! ## Plans -/

/-- A time zone: its UTC offset at each instant, and the one instant a local time denotes, if it
denotes exactly one. -/
structure Tz where
  name : String
  offset : Timestamp → Duration
  fromLocal : ℤ → Option Timestamp

structure ChallengePlan where
  id : ChallengeId
  phase : ChallengePhase
  planMeta : PlanMeta
  initialBalanceMoney : Money
  profitTargetPct : Pct
  maxDailyDrawdownPct : Pct
  maxTotalDrawdownPct : Pct
  maxLossReference : LossReference
  drawdownOnBalance : Bool
  trailingDrawdownEnabled : Bool
  trailingDrawdownPct : Pct
  minTradingDays : ℕ
  timeLimitDays : Option ℕ
  maxPositionLots : Option Decimal
  maxTotalLots : Option Decimal
  maxOpenPositions : Option ℕ
  maxDailyTrades : Option ℕ
  newsTradingAllowed : Bool
  overnightHoldingAllowed : Bool
  weekendHoldingAllowed : Bool
  hedgingAllowed : Bool
  gridTradingAllowed : Bool
  requireStopLoss : Bool
  requireTakeProfit : Bool
  consistencyPct : Option Pct
  cooldownSeconds : ℕ
  copyTradingAllowed : Bool
  refundable : Bool
  leverage : ℕ
  tradingHours : Option (ℕ × ℕ)
  timezone : Option Tz
  dayResetTime : ℕ
  effectiveAt : Timestamp
  perTradeMaxLossPct : Option Pct
  perTradeMaxLossMoney : Option Money
  hftBanEnabled : Bool
  hftMinRoundTripSeconds : ℕ
  inactivityDays : Option ℕ
  refundFeeAmount : Money
  dailyLossType : DailyLossType
  dailyLossSoft : Bool
  consistencyType : ConsistencyType
  eodTrailLocksAtStart : Bool
  minProfitableDays : Option ℕ
  crossAccountHedgingProhibited : Bool
  lowcapExposureLimitPct : Option Pct
  consistencyAppliesOnFundedStage : Bool
  qualifyingDayThresholdPct : Option Pct
  qualifyingDayPnlBandPct : Option Pct
  payoutConfig : Option PayoutConfig

namespace ChallengePlan

def default (id : ChallengeId) (effectiveAt : Timestamp) : ChallengePlan where
  id
  phase := .phase1
  planMeta := .default
  initialBalanceMoney := 10000
  profitTargetPct := 8 / 100
  maxDailyDrawdownPct := 5 / 100
  maxTotalDrawdownPct := 10 / 100
  maxLossReference := .trailing
  drawdownOnBalance := false
  trailingDrawdownEnabled := false
  trailingDrawdownPct := 0
  minTradingDays := 3
  timeLimitDays := some 30
  maxPositionLots := some 5
  maxTotalLots := some 30
  maxOpenPositions := some 20
  maxDailyTrades := some 50
  newsTradingAllowed := false
  overnightHoldingAllowed := true
  weekendHoldingAllowed := false
  hedgingAllowed := true
  gridTradingAllowed := true
  requireStopLoss := false
  requireTakeProfit := false
  consistencyPct := some (50 / 100)
  cooldownSeconds := 0
  copyTradingAllowed := false
  refundable := true
  leverage := 100
  tradingHours := none
  timezone := none
  dayResetTime := 0
  effectiveAt
  perTradeMaxLossPct := none
  perTradeMaxLossMoney := none
  hftBanEnabled := false
  hftMinRoundTripSeconds := 60
  inactivityDays := none
  refundFeeAmount := 0
  dailyLossType := .pctPriorDay
  dailyLossSoft := false
  consistencyType := .bestDayPctOfPositiveDays
  eodTrailLocksAtStart := false
  minProfitableDays := none
  crossAccountHedgingProhibited := false
  lowcapExposureLimitPct := none
  consistencyAppliesOnFundedStage := false
  qualifyingDayThresholdPct := none
  qualifyingDayPnlBandPct := none
  payoutConfig := some .default

def initialBalance (p : ChallengePlan) : Money := p.initialBalanceMoney

def withPhase (p : ChallengePlan) (phase : ChallengePhase) : ChallengePlan := { p with phase }

def rejectIf (bad : Prop) [Decidable bad] (msg : String) : Outcome Unit :=
  if bad then raise (.invalidConfig [.lit msg]) else .ok ()

def validate (p : ChallengePlan) : Outcome Unit := do
  rejectIf (p.initialBalanceMoney ≤ 0) "initial_balance must be positive"
  rejectIf (p.profitTargetPct < 0) "profit_target_pct must be non-negative"
  rejectIf (p.maxDailyDrawdownPct < 0 ∨ 1 < p.maxDailyDrawdownPct)
    "max_daily_drawdown_pct must be in [0, 1]"
  rejectIf (p.maxTotalDrawdownPct < 0 ∨ 1 < p.maxTotalDrawdownPct)
    "max_total_drawdown_pct must be in [0, 1]"
  match p.consistencyPct with
  | some c => rejectIf (c < 0 ∨ 1 < c) "consistency_pct must be in [0, 1]"
  | none => pure ()
  match p.tradingHours with
  | some (s, e) => rejectIf (24 < s ∨ 24 < e) "trading_hours must be in [0, 24]"
  | none => pure ()

/-! ## The trading day -/

/-- The given hour of a date (`and_hms_opt(hour, 0, 0).expect("valid hour")`). -/
def atHour (date : ℤ) (hour : ℕ) : Outcome ℤ :=
  if hour < 24 then .ok (Duration.days date + Duration.hours hour) else panicWith "valid hour"

/-- The last daily reset at or before `now`. -/
def tradingDayStart (p : ChallengePlan) (now : Timestamp) : Outcome Timestamp :=
  match p.timezone with
  | some tz => do
      let resetLocal ← atHour (Timestamp.date (now + tz.offset now)) p.dayResetTime
      let resetToday ← expect "LocalResult::unwrap" (tz.fromLocal resetLocal)
      if resetToday ≤ now then pure resetToday else pure (resetToday - Duration.days 1)
  | none => do
      let resetToday ← atHour (Timestamp.date now) p.dayResetTime
      if resetToday ≤ now then pure resetToday else pure (resetToday - Duration.days 1)

/-- The reset on the date after that of `currentStart`. -/
def nextTradingDayStart (p : ChallengePlan) (currentStart : Timestamp) : Outcome Timestamp :=
  match p.timezone with
  | some tz => do
      let resetLocal ←
        atHour (Timestamp.date (currentStart + tz.offset currentStart) + 1) p.dayResetTime
      expect "LocalResult::unwrap" (tz.fromLocal resetLocal)
  | none => atHour (Timestamp.date currentStart + 1) p.dayResetTime

end ChallengePlan

end Propfirm
