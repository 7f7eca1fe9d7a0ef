import Propfirm.Rules.Context

/-!
# Drawdown rules
-/

namespace Propfirm

/-! ## Shared parts -/

def toleranceMoney (cents : ℤ) : Money := cents / 100

/-- A terminating rule needs a started account and broker-reported equity; otherwise it reports the
gap. -/
def withBrokerEquity (ctx : RuleContext) (k : Money → Outcome (Verdict Finding)) :
    Outcome (Verdict Finding) :=
  match ctx.requireStarted with
  | .error msg => .ok (.gapFlagged { severity := .info, message := [.lit msg] })
  | .ok () =>
      match ctx.requireBrokerEquity with
      | .error msg => .ok (.gapFlagged { severity := .info, message := [.lit msg] })
      | .ok equity => k equity

/-! ## Daily drawdown -/

namespace DailyDrawdownRule

def effectivePct (params : Option RuleParams) (ctx : RuleContext) : Decimal :=
  match params.bind RuleParams.value with
  | some v => v
  | none => ctx.account.plan.maxDailyDrawdownPct

def toleranceCents (params : Option RuleParams) : ℤ :=
  (params.bind RuleParams.toleranceCents).getD 1

def isEnabled (params : Option RuleParams) (ctx : RuleContext) : Bool :=
  (params.map RuleParams.enabled).getD true && decide (0 < effectivePct params ctx)

/-- The amount the limit is a fraction of, and the loss measured against it; none when the plan has
no daily loss rule. -/
def referenceAndLoss (a : Account) : Option (Money × Money) :=
  let current := if a.plan.drawdownOnBalance then a.balance else a.equity
  let dayStart := if a.plan.drawdownOnBalance then a.dayStartBalance else a.dayStartEquity
  match a.plan.dailyLossType with
  | .none => none
  | .pctInitial => some (a.initialBalance, max (dayStart - current) 0)
  | .pctPriorDay => some (dayStart, max (dayStart - current) 0)
  | .trailingIntradayHigh =>
      let intradayPeak := if a.plan.drawdownOnBalance then a.peakBalance else a.intradayPeakEquity
      some (intradayPeak, max (intradayPeak - current) 0)

def judge (params : Option RuleParams) (ctx : RuleContext) : Outcome (Verdict Finding) :=
  let planPct := effectivePct params ctx
  if planPct ≤ 0 then .ok .pass
  else
    withBrokerEquity ctx fun _ =>
      match referenceAndLoss ctx.account with
      | none => .ok .pass
      | some (reference, dd) =>
          let lossType := ctx.account.plan.dailyLossType
          let limit := planPct * reference
          let tolerance := toleranceMoney (toleranceCents params)
          let warnPct := (params.bind RuleParams.earlyWarningPct).getD (8 / 10)
          if limit + tolerance < dd then
            let finding : Finding :=
              { severity := if ctx.account.plan.dailyLossSoft then .warning else .liquidate
                message :=
                  [.lit "Daily drawdown breach (", .lit lossType.display, .lit "): ", .dec dd,
                    .lit " > ", .dec limit, .lit "+", .dec tolerance, .lit " (",
                    .dec (planPct * 100), .lit "%)"]
                breach := some (dd, limit) }
            .ok (if ctx.account.plan.dailyLossSoft then .earlyWarning finding else .liquidate finding)
          else if limit * warnPct ≤ dd then do
            -- a zero limit panics here
            let ratio ← dd.div limit
            pure (.earlyWarning
              { severity := .warning
                message :=
                  [.lit "Daily drawdown (", .lit lossType.display, .lit ") at ", .dec dd, .lit "/",
                    .dec limit, .lit "/", .dec reference, .lit " (", .rounded 2 (ratio * 100),
                    .lit "%)"]
                breach := some (dd, limit) })
          else .ok .pass

end DailyDrawdownRule

def dailyDrawdownRule (params : Option RuleParams) : StdRule where
  id := .dailyDrawdown
  name := "Daily Drawdown"
  kind := .dailyDrawdown
  scope := .onTick
  severity := .hard
  priority := (params.bind RuleParams.priority).getD 900
  params
  isEnabled := DailyDrawdownRule.isEnabled params
  judge := DailyDrawdownRule.judge params

/-! ## Maximum drawdown -/

namespace MaxDrawdownRule

def effectiveBasis (params : Option RuleParams) (ctx : RuleContext) : LossReference :=
  match params.bind RuleParams.basis with
  | some b => b
  | none => ctx.account.plan.maxLossReference

def peak (a : Account) : Money := if a.plan.drawdownOnBalance then a.peakBalance else a.peakEquity

def reference (basis : LossReference) (a : Account) : Money :=
  match basis with
  | .static => a.initialBalance
  | .trailing => a.peakBalance
  | .eodTrailing => a.dayStartBalance
  | .intradayTrail => peak a

def effectivePctWith (arith : Arithmetic) (params : Option RuleParams) (ctx : RuleContext) : Decimal :=
  match params with
  | none => ctx.account.plan.maxTotalDrawdownPct
  | some p =>
      match p.value with
      | none => ctx.account.plan.maxTotalDrawdownPct
      | some v =>
          if p.unit = some .money then
            let r := reference (effectiveBasis params ctx) ctx.account
            if r = 0 then v else arith.div v r
          else v

def effectivePct (params : Option RuleParams) (ctx : RuleContext) : Decimal :=
  effectivePctWith .exact params ctx

def toleranceCents (params : Option RuleParams) : ℤ :=
  (params.bind RuleParams.toleranceCents).getD 1

def isEnabledWith (arith : Arithmetic) (params : Option RuleParams) (ctx : RuleContext) : Bool :=
  (params.map RuleParams.enabled).getD true && decide (0 < effectivePctWith arith params ctx)

/-- The floor below which the account is liquidated. The end-of-day buffer is a fixed fraction of the
initial balance, and its floor may be locked at the initial balance. -/
def floorWith (arith : Arithmetic) (basis : LossReference) (pct : Decimal) (a : Account) : Money :=
  match basis with
  | .static => arith.sub a.initialBalance (arith.mul pct a.initialBalance)
  | .trailing => arith.sub a.peakBalance (arith.mul pct a.peakBalance)
  | .eodTrailing =>
      let unlocked := arith.sub a.dayStartBalance (arith.mul pct a.initialBalance)
      if a.plan.eodTrailLocksAtStart then min unlocked a.initialBalance else unlocked
  | .intradayTrail => arith.sub (peak a) (arith.mul pct (peak a))

def floor (basis : LossReference) (pct : Decimal) (a : Account) : Money := floorWith .exact basis pct a

theorem floor_eq (basis : LossReference) (pct : Decimal) (a : Account) :
    floor basis pct a =
      match basis with
      | .static => a.initialBalance - pct * a.initialBalance
      | .trailing => a.peakBalance - pct * a.peakBalance
      | .eodTrailing =>
          let unlocked := a.dayStartBalance - pct * a.initialBalance
          if a.plan.eodTrailLocksAtStart then min unlocked a.initialBalance else unlocked
      | .intradayTrail => peak a - pct * peak a := by
  cases basis <;> rfl

def judgeWith (arith : Arithmetic) (params : Option RuleParams) (ctx : RuleContext) :
    Outcome (Verdict Finding) :=
  let planPct := effectivePctWith arith params ctx
  if planPct ≤ 0 then .ok .pass
  else
    withBrokerEquity ctx fun equity =>
      let basis := effectiveBasis params ctx
      let current := if ctx.account.plan.drawdownOnBalance then ctx.account.balance else equity
      let floor := floorWith arith basis planPct ctx.account
      let reference := reference basis ctx.account
      let dd := max (arith.sub reference current) 0
      let limitDollars := max (arith.sub reference floor) 0
      let tolerance := toleranceMoney (toleranceCents params)
      let warnPct := (params.bind RuleParams.earlyWarningPct).getD (8 / 10)
      if current < arith.sub floor tolerance then
        .ok (.liquidate
          { severity := .liquidate
            message :=
              [.lit "Maximum drawdown breach (", .lit basis.debug, .lit " mode): current ",
                .dec current, .lit " < floor ", .dec floor, .lit "-tol ", .dec tolerance, .lit " (",
                .dec (arith.mul planPct 100), .lit "%)"]
            breach := some (dd, limitDollars) })
      else if current ≤ arith.add floor (arith.mul limitDollars warnPct) then
        .ok (.earlyWarning
          { severity := .warning
            message :=
              [.lit "Maximum drawdown at ", .dec dd, .lit "/", .dec limitDollars, .lit " (",
                .rounded 2 (arith.mul (arith.div dd (max limitDollars 1)) 100), .lit "%) [",
                .lit basis.debug, .lit "]"]
            breach := some (dd, limitDollars) })
      else .ok .pass

def judge (params : Option RuleParams) (ctx : RuleContext) : Outcome (Verdict Finding) :=
  judgeWith .exact params ctx

end MaxDrawdownRule

def maxDrawdownRuleWith (arith : Arithmetic) (params : Option RuleParams) : StdRule where
  id := .maxDrawdown
  name := "Maximum Drawdown"
  kind := .maxDrawdown
  scope := .onTick
  severity := .hard
  priority := (params.bind RuleParams.priority).getD 1000
  params
  isEnabled := MaxDrawdownRule.isEnabledWith arith params
  judge := MaxDrawdownRule.judgeWith arith params

def maxDrawdownRule (params : Option RuleParams) : StdRule := maxDrawdownRuleWith .exact params

/-! ## Trailing drawdown -/

namespace TrailingDrawdownRule

def effectiveTrailMoney (params : Option RuleParams) (ctx : RuleContext) : Option Money :=
  match params with
  | some p =>
      if p.enabled then
        match p.value with
        | none => none
        | some v => if p.unit = some .money then some v else some (v * ctx.account.peakEquity)
      else none
  | none =>
      if ctx.account.plan.trailingDrawdownEnabled then
        some (ctx.account.plan.trailingDrawdownPct * ctx.account.peakEquity)
      else none

def isEnabled (params : Option RuleParams) (ctx : RuleContext) : Bool :=
  match params with
  | some p => p.enabled && p.value.isSome
  | none =>
      ctx.account.plan.trailingDrawdownEnabled && decide (0 < ctx.account.plan.trailingDrawdownPct)

def judge (params : Option RuleParams) (ctx : RuleContext) : Outcome (Verdict Finding) :=
  match effectiveTrailMoney params ctx with
  | none => .ok .pass
  | some trail =>
      withBrokerEquity ctx fun equity =>
        let floor := ctx.account.peakEquity - trail
        let warnFloor := floor + trail * (2 / 10)
        if equity < floor then
          .ok (.liquidate
            { severity := .liquidate
              message :=
                [.lit "Trailing drawdown breach: equity ", .dec equity, .lit " below floor ",
                  .dec floor, .lit " (trail=", .dec trail, .lit ")"]
              breach := some (floor - equity, trail) })
        else if equity < warnFloor then
          .ok (.earlyWarning
            { severity := .warning
              message :=
                [.lit "Equity approaching trailing drawdown floor: ", .dec equity,
                  .lit " vs floor ", .dec floor]
              breach := some (warnFloor - equity, trail) })
        else .ok .pass

end TrailingDrawdownRule

def trailingDrawdownRule (params : Option RuleParams) : StdRule where
  id := .trailingDrawdown
  name := "Trailing Drawdown"
  kind := .trailingDrawdown
  scope := .onTick
  severity := .hard
  params
  isEnabled := TrailingDrawdownRule.isEnabled params
  judge := TrailingDrawdownRule.judge params

end Propfirm
