import Propfirm.Rules.Context

/-!
# Targets, day counts and time limits
-/

namespace Propfirm

/-! ## Enablement and counts from a pack entry -/

def packEnabled (params : Option RuleParams) (plan : Bool) : Bool :=
  match params with
  | some p => p.enabled
  | none => plan

def packValueEnabled (params : Option RuleParams) (plan : Bool) : Bool :=
  match params with
  | some p => p.enabled && p.value.isSome
  | none => plan

/-- The pack value as a 32-bit count, in the error text of the rule `rule`. -/
def packCount (rule noun : String) (params : Option RuleParams) (plan : Option ℕ) :
    Outcome (Option ℕ) :=
  match params with
  | none => .ok plan
  | some p =>
      if p.enabled then
        match p.value with
        | none => .ok none
        | some v =>
            match v.toU32? with
            | some n => .ok (some n)
            | none =>
                raise (.ruleEval (.lit rule :: .lit ": " ::
                  (Error.invalidConfig
                    [.lit rule, .lit ": pack value ", .dec v, .lit " is not a valid ",
                      .lit noun]).display))
      else .ok none

/-! ## Profit target -/

namespace ProfitTargetRule

def isEnabled (params : Option RuleParams) (ctx : RuleContext) : Bool :=
  packEnabled params (decide (0 < ctx.account.plan.profitTargetPct))

def target (params : Option RuleParams) (a : Account) : Option Money :=
  match params with
  | none => some a.profitTarget
  | some p =>
      if p.enabled then
        match p.value with
        | some v => some (if p.unit = some .money then v else v * a.initialBalance)
        | none => some a.profitTarget
      else none

def judge (params : Option RuleParams) (ctx : RuleContext) : Outcome (Verdict Finding) :=
  match target params ctx.account with
  | none => .ok .pass
  | some target =>
      let net := ctx.account.netProfit
      if target ≤ 0 then .ok .pass
      else if ctx.account.targetReachedAt.isNone ∧ target ≤ net then
        .ok (.targetHit
          { severity := .info
            message :=
              [.lit "Profit target reached: net ", .dec net, .lit " >= target ", .dec target,
                .lit " — pending min trading days"]
            breach := some (max net 0, target) })
      else if ctx.account.targetReachedAt.isSome then .ok .pass
      else
        match ctx.account.deadline with
        | none => .ok .pass
        | some deadline =>
            if deadline < ctx.serverTime then
              .ok (.fail
                { severity := .hard
                  message :=
                    [.lit "Time limit expired without reaching profit target: net ", .dec net,
                      .lit " < target ", .dec target]
                  breach := some (target, target) })
            else .ok .pass

end ProfitTargetRule

def profitTargetRule (params : Option RuleParams) : StdRule where
  id := .profitTarget
  name := "Profit Target"
  kind := .profitTargetMissed
  scope := .onTick
  severity := .info
  priority := 100
  params
  isEnabled := ProfitTargetRule.isEnabled params
  judge := ProfitTargetRule.judge params

/-! ## Minimum day counts -/

/-- A required number of days: unmet it is a warning, and a failure once the deadline has passed. -/
def judgeMinDays (required : Outcome (Option ℕ)) (actual : ℕ) (deadlineText warnText : String)
    (ctx : RuleContext) : Outcome (Verdict Finding) := do
  match ← required with
  | none => pure .pass
  | some required =>
      if required = 0 then pure .pass
      else if required ≤ actual then pure .pass
      else
        let late : Bool :=
          match ctx.account.deadline with
          | some deadline => decide (deadline < ctx.serverTime)
          | none => false
        if late then
          pure (.fail
            { severity := .hard
              message :=
                [.lit "Deadline reached with only ", .int actual, .lit "/", .int required,
                  .lit deadlineText] })
        else
          pure (.warn
            { severity := .warning
              message :=
                [.lit warnText, .int actual, .lit "/", .int required,
                  .lit " – phase not yet complete"] })

namespace MinTradingDaysRule

def isEnabled (params : Option RuleParams) (ctx : RuleContext) : Bool :=
  packValueEnabled params (decide (0 < ctx.account.plan.minTradingDays))

def effectiveDays (params : Option RuleParams) (ctx : RuleContext) : Outcome (Option ℕ) :=
  packCount "min_trading_days" "day count" params (some ctx.account.plan.minTradingDays)

/-- Qualifying days when the plan sets a threshold for them, otherwise any day with a trade. -/
def actual (a : Account) : ℕ :=
  if a.plan.qualifyingDayThresholdPct.isSome || a.plan.qualifyingDayPnlBandPct.isSome then
    a.qualifyingTradingDaysCount
  else a.activeTradingDays

def judge (params : Option RuleParams) (ctx : RuleContext) : Outcome (Verdict Finding) :=
  judgeMinDays (effectiveDays params ctx) (actual ctx.account) " active trading days"
    "Active trading days " ctx

end MinTradingDaysRule

def minTradingDaysRule (params : Option RuleParams) : StdRule where
  id := .minTradingDays
  name := "Minimum Trading Days"
  kind := .minTradingDays
  scope := .periodic
  severity := .warning
  params
  isEnabled := MinTradingDaysRule.isEnabled params
  judge := MinTradingDaysRule.judge params

namespace MinProfitableDaysRule

def isEnabled (params : Option RuleParams) (ctx : RuleContext) : Bool :=
  packValueEnabled params ctx.account.plan.minProfitableDays.isSome

def effectiveDays (params : Option RuleParams) (ctx : RuleContext) : Outcome (Option ℕ) :=
  packCount "min_profitable_days" "day count" params ctx.account.plan.minProfitableDays

def judge (params : Option RuleParams) (ctx : RuleContext) : Outcome (Verdict Finding) :=
  judgeMinDays (effectiveDays params ctx) ctx.account.profitableDaysCount
    " profitable trading days" "Profitable trading days " ctx

end MinProfitableDaysRule

def minProfitableDaysRule (params : Option RuleParams) : StdRule where
  id := .minProfitableDays
  name := "Minimum Profitable Trading Days"
  kind := .minProfitableDays
  scope := .periodic
  severity := .warning
  params
  isEnabled := MinProfitableDaysRule.isEnabled params
  judge := MinProfitableDaysRule.judge params

/-! ## Consistency -/

namespace ConsistencyRule

def effectiveCapWith (arith : Arithmetic) (params : Option RuleParams) (ctx : RuleContext) :
    Outcome (Option Decimal) :=
  match params with
  | none => .ok ctx.account.plan.consistencyPct
  | some p =>
      if p.enabled && p.value.isSome then
        if ctx.account.sumPositiveDaysProfit = 0 then .ok none
        else
          match p.effectivePctWith arith "consistency" ctx.account.sumPositiveDaysProfit with
          | .ok cap => .ok (some cap)
          | .error (.error e) => raise (.ruleEval (.lit "consistency: " :: e.display))
          | .error f => .error f
      else .ok none

def effectiveCap (params : Option RuleParams) (ctx : RuleContext) : Outcome (Option Decimal) :=
  effectiveCapWith .exact params ctx

def effectiveSeverity (params : Option RuleParams) : ViolationSeverity :=
  match params.bind RuleParams.severity with
  | some s => if s = "hard" ∨ s = "liquidate" then .hard else .warning
  | none => .warning

def isEnabled (params : Option RuleParams) (ctx : RuleContext) : Bool :=
  match params with
  | some p => p.enabled && p.value.isSome
  | none =>
      if ctx.account.plan.phase = .funded ∧ ¬ctx.account.plan.consistencyAppliesOnFundedStage then
        false
      else ctx.account.plan.consistencyPct.isSome

/-- The total the best day is compared with, and its name in the message; none switches the rule
off. -/
def denominator (a : Account) : Option (Money × String) :=
  match a.plan.consistencyType with
  | .none => none
  | .bestDayPctOfTotal => some (a.totalRealizedPnl, "total_realized_pnl")
  | .bestDayPctOfPositiveDays => some (a.sumPositiveDaysProfit, "sum_positive_days_profit")

def judgeWith (arith : Arithmetic) (params : Option RuleParams) (ctx : RuleContext) :
    Outcome (Verdict Finding) :=
  match denominator ctx.account with
  | none => .ok .pass
  | some (totalProfit, label) => do
      match ← effectiveCapWith arith params ctx with
      | none => pure .pass
      | some capPct =>
          let largestDay := ctx.account.largestDayProfit
          let cap := arith.mul capPct totalProfit
          if totalProfit ≤ 0 then pure .pass
          else if largestDay ≤ 0 then pure .pass
          else if cap < largestDay then
            pure (.warn
              { severity := .warning
                message :=
                  [.lit "Largest single-day profit ", .dec largestDay, .lit " exceeds ",
                    .dec (arith.mul capPct 100), .lit "% of ", .lit label, .lit " (", .dec cap,
                    .lit ")"]
                breach := some (largestDay, cap) })
          else pure .pass

def judge (params : Option RuleParams) (ctx : RuleContext) : Outcome (Verdict Finding) :=
  judgeWith .exact params ctx

end ConsistencyRule

def consistencyRuleWith (arith : Arithmetic) (params : Option RuleParams) : StdRule where
  id := .consistency
  name := "Consistency"
  kind := .consistency
  scope := .periodic
  severity := ConsistencyRule.effectiveSeverity params
  params
  isEnabled := ConsistencyRule.isEnabled params
  judge := ConsistencyRule.judgeWith arith params

def consistencyRule (params : Option RuleParams) : StdRule := consistencyRuleWith .exact params

/-! ## Time limit -/

namespace TimeLimitRule

def isEnabled (params : Option RuleParams) (ctx : RuleContext) : Bool :=
  packEnabled params (ctx.account.plan.timeLimitDays.isSome || ctx.account.deadline.isSome)

def planDeadline (a : Account) : Outcome (Option Timestamp) :=
  match a.deadline with
  | some deadline => .ok (some deadline)
  | none =>
      match a.plan.timeLimitDays with
      | none => .ok none
      | some days =>
          match a.startedAt with
          | some start => do
              let deadline ← start.plus (← Duration.tryDays days)
              pure (some deadline)
          | none =>
              raise (.invalidState
                [.lit ("time_limit: plan has a time limit but the account was never started " ++
                  "(no started_at) — cannot derive a deadline")])

def effectiveDeadline (params : Option RuleParams) (ctx : RuleContext) :
    Outcome (Option Timestamp) :=
  match params with
  | none => planDeadline ctx.account
  | some p =>
      if p.enabled then
        match p.value with
        | none => planDeadline ctx.account
        | some days =>
            match days.toI64? with
            | some n => do
                let start := ctx.account.startedAt.getD ctx.wallClock
                let deadline ← start.plus (← Duration.tryDays n)
                pure (some deadline)
            | none =>
                raise (.invalidConfig [.lit "time_limit: pack value is not a valid day count"])
      else .ok none

/-- Whether more than nine tenths of the time have passed. The source compares the quotient of the
two whole-second counts as floats, which agrees on every span below 10^14 seconds. -/
def nearlyOver (start deadline now : Timestamp) : Bool :=
  decide (9 * max (Duration.numSeconds (deadline - start)) 1 <
    10 * Duration.numSeconds (now - start))

def judge (params : Option RuleParams) (ctx : RuleContext) : Outcome (Verdict Finding) := do
  match ← effectiveDeadline params ctx with
  | none => pure .pass
  | some deadline =>
      if deadline < ctx.serverTime then
        pure (.fail
          { severity := .hard
            message := [.lit "Account time limit exceeded: deadline was ", .time deadline] })
      else
        match ctx.account.startedAt with
        | none => pure .pass
        | some start =>
            if nearlyOver start deadline ctx.serverTime then
              pure (.warn
                { severity := .warning
                  message := [.lit "Time limit approaching: deadline ", .time deadline] })
            else pure .pass

end TimeLimitRule

def timeLimitRule (params : Option RuleParams) : StdRule where
  id := .timeLimit
  name := "Time Limit"
  kind := .timeLimit
  scope := .onTick
  severity := .hard
  params
  isEnabled := TimeLimitRule.isEnabled params
  judge := TimeLimitRule.judge params

/-! ## Inactivity -/

namespace InactivityRule

def isEnabled (params : Option RuleParams) (ctx : RuleContext) : Bool :=
  packEnabled params ctx.account.plan.inactivityDays.isSome

def effectiveDays (params : Option RuleParams) (ctx : RuleContext) : Outcome (Option ℕ) :=
  match params with
  | none => .ok ctx.account.plan.inactivityDays
  | some p => do
      let v ← p.effectiveCount "inactivity"
      match v.toU32? with
      | some days => pure (some days)
      | none =>
          raise (.invalidConfig
            [.lit "inactivity: pack value ", .dec v, .lit " is not a valid day count"])

def judge (params : Option RuleParams) (ctx : RuleContext) : Outcome (Verdict Finding) := do
  match ← effectiveDays params ctx with
  | none => pure .pass
  | some days =>
      if days = 0 then pure .pass
      else
        match ctx.account.lastTradeAt with
        | none =>
            match ctx.account.startedAt with
            | none => pure .pass
            | some started =>
                if days ≤ Duration.numDays (ctx.serverTime - started) then
                  pure (.fail
                    { severity := .hard
                      message :=
                        [.lit "Account never traded for ", .int days,
                          .lit " days since start (inactivity termination)"] })
                else pure .pass
        | some lastActivity =>
            let idleDays := Duration.numDays (ctx.serverTime - lastActivity)
            if days ≤ idleDays then
              pure (.fail
                { severity := .hard
                  message :=
                    [.lit "No trading activity for ", .int idleDays, .lit " days (limit ", .int days,
                      .lit ") — inactivity termination"] })
            else if ((days - 1 : ℕ) : ℤ) ≤ idleDays then
              pure (.warn
                { severity := .warning
                  message :=
                    [.lit "Inactivity warning: ", .int idleDays,
                      .lit " days without a trade (termination at ", .int days, .lit ")"] })
            else pure .pass

end InactivityRule

def inactivityRule (params : Option RuleParams) : StdRule where
  id := .inactivity
  name := "Inactivity Termination"
  kind := .custom
  scope := .periodic
  severity := .hard
  priority := (params.bind RuleParams.priority).getD 500
  params
  isEnabled := InactivityRule.isEnabled params
  judge := InactivityRule.judge params

end Propfirm
