import Propfirm.Rules.Evaluators.Orders

/-!
# Rules about when positions are opened and held
-/

namespace Propfirm

/-! ## News windows -/

structure NewsEvent where
  name : String
  /-- Days from Monday. -/
  weekday : ℕ
  hour : ℕ
  minute : ℕ
deriving DecidableEq

def builtinEvents : List NewsEvent :=
  [⟨"NFP", 4, 12, 30⟩, ⟨"CPI", 2, 12, 30⟩, ⟨"FOMC", 2, 18, 0⟩, ⟨"ECB Rate", 3, 11, 45⟩,
    ⟨"BOE Rate", 3, 11, 0⟩]

/-- The next instance of an event, on the day of `ts` or within six days after it. -/
def NewsEvent.instanceAt (e : NewsEvent) (ts : Timestamp) : Timestamp :=
  let dayDiff := ((e.weekday : ℤ) - ts.weekday) % 7
  Duration.days (Timestamp.date (ts + Duration.days dayDiff)) + Duration.hours e.hour +
    Duration.minutes e.minute

def withinNewsWindow (ts : Timestamp) (windowMinutes : ℤ) : Option NewsEvent :=
  builtinEvents.find? fun e =>
    decide (|Duration.numMinutes (ts - e.instanceAt ts)| ≤ windowMinutes)

namespace NewsTradingRule

def judge (ctx : RuleContext) : Outcome (Verdict Finding) :=
  if ctx.account.plan.newsTradingAllowed then .ok .pass
  else
    match ctx.pendingOrder with
    | none => .ok .pass
    | some order =>
        let window : ℤ :=
          match ctx.ruleConfig.newsTrading with
          | some c => c.windowMinutes
          | none => 2
        match withinNewsWindow order.submittedAt window with
        | some event =>
            .ok (.fail
              { severity := .hard
                message :=
                  [.lit "Order submitted within ", .int window, .lit "min of ", .lit event.name,
                    .lit " news event"] })
        | none => .ok .pass

end NewsTradingRule

def newsTradingRule (params : Option RuleParams) : StdRule where
  id := .newsTrading
  name := "News Trading"
  kind := .newsTrading
  scope := .preTrade
  severity := .hard
  params
  isEnabled := fun ctx => packProhibits params ctx.account.plan.newsTradingAllowed
  judge := NewsTradingRule.judge

/-! ## Overnight -/

def hourInWindow (start stop hour : ℕ) : Bool :=
  if start < stop then decide (start ≤ hour ∧ hour < stop) else decide (start ≤ hour ∨ hour < stop)

namespace OvernightHoldingRule

def hoursText (c : OvernightConfig) : Text :=
  [.lit " during forbidden overnight hours (", .int c.forbiddenFromHour, .lit ":00–",
    .int c.forbiddenToHour, .lit ":00)"]

def judge (ctx : RuleContext) : Outcome (Verdict Finding) :=
  if ctx.account.plan.overnightHoldingAllowed then .ok .pass
  else
    match ctx.ruleConfig.overnightHolding with
    | none => .ok .pass
    | some cfg =>
        if !hourInWindow cfg.forbiddenFromHour cfg.forbiddenToHour ctx.serverTime.hour then .ok .pass
        else if ctx.pendingOrder.isSome then
          .ok (.fail { severity := .hard, message := .lit "Opening a position" :: hoursText cfg })
        else if !ctx.openPositions.isEmpty then
          .ok (.warn { severity := .warning, message := .lit "Position held" :: hoursText cfg })
        else .ok .pass

end OvernightHoldingRule

def overnightHoldingRule (params : Option RuleParams) : StdRule where
  id := .overnightHolding
  name := "Overnight Holding"
  kind := .overnightHolding
  scope := .onTick
  severity := .hard
  params
  isEnabled := fun ctx => packProhibits params ctx.account.plan.overnightHoldingAllowed
  judge := OvernightHoldingRule.judge

/-! ## Weekend -/

namespace WeekendHoldingRule

def inWeekend (cfg : WeekendConfig) (now : Timestamp) : Bool :=
  decide (now.weekday = 4 ∧ cfg.forbiddenFromHour ≤ now.hour) ||
    decide (now.weekday = 5 ∨ now.weekday = 6)

def judge (ctx : RuleContext) : Outcome (Verdict Finding) :=
  if ctx.account.plan.weekendHoldingAllowed then .ok .pass
  else
    match ctx.ruleConfig.weekendHolding with
    | none => .ok .pass
    | some cfg =>
        if !inWeekend cfg ctx.serverTime then .ok .pass
        else if ctx.pendingOrder.isSome then
          .ok (.fail
            { severity := .hard, message := [.lit "Order submitted during weekend hold window"] })
        else if !ctx.openPositions.isEmpty then
          .ok (.warn
            { severity := .warning, message := [.lit "Open positions held during weekend window"] })
        else .ok .pass

end WeekendHoldingRule

def weekendHoldingRule (params : Option RuleParams) : StdRule where
  id := .weekendHolding
  name := "Weekend Holding"
  kind := .weekendHolding
  scope := .onTick
  severity := .hard
  params
  isEnabled := fun ctx => packProhibits params ctx.account.plan.weekendHoldingAllowed
  judge := WeekendHoldingRule.judge

/-! ## Cooldown -/

namespace CooldownRule

def isEnabled (params : Option RuleParams) (ctx : RuleContext) : Bool :=
  packValueEnabled params (decide (0 < ctx.account.plan.cooldownSeconds))

def effectiveSeconds (params : Option RuleParams) (ctx : RuleContext) : Outcome ℕ :=
  match params with
  | none => .ok ctx.account.plan.cooldownSeconds
  | some p =>
      if p.enabled then
        match p.value with
        | none => .ok 0
        | some v =>
            match v.toU64? with
            | some secs => .ok secs
            | none =>
                raise (.ruleEval (.lit "cooldown: " ::
                  (Error.invalidConfig
                    [.lit "cooldown: pack value ", .dec v,
                      .lit " is not a valid seconds count"]).display))
      else .ok 0

def judge (params : Option RuleParams) (ctx : RuleContext) : Outcome (Verdict Finding) := do
  let cooldown ← effectiveSeconds params ctx
  if cooldown = 0 then pure .pass
  else
    match ctx.pendingOrder, ctx.todayTrades.getLast? with
    | some order, some lastTrade =>
        let elapsed := Duration.numSeconds (order.submittedAt - lastTrade.executedAt)
        if elapsed < asI64 cooldown then
          pure (.warn
            { severity := .warning
              message :=
                [.lit "Cooldown violated: only ", .int elapsed, .lit "s since last trade (need ",
                  .int cooldown, .lit "s); ", .int (asI64 cooldown - elapsed),
                  .lit "s remaining"] })
        else pure .pass
    | _, _ => pure .pass

end CooldownRule

def cooldownRule (params : Option RuleParams) : StdRule where
  id := .cooldown
  name := "Cooldown"
  kind := .cooldown
  scope := .preTrade
  severity := .warning
  params
  isEnabled := CooldownRule.isEnabled params
  judge := CooldownRule.judge params

/-! ## Trading hours -/

namespace TradingHoursRule

def localHour (plan : ChallengePlan) (t : Timestamp) : ℕ :=
  match plan.timezone with
  | some tz => Timestamp.hour (t + tz.offset t)
  | none => t.hour

/-- Unlike the overnight window, equal bounds leave an empty window here. -/
def inHours (start stop hour : ℕ) : Bool :=
  if start ≤ stop then decide (start ≤ hour ∧ hour < stop) else decide (start ≤ hour ∨ hour < stop)

def judge (ctx : RuleContext) : Outcome (Verdict Finding) :=
  match ctx.account.plan.tradingHours, ctx.pendingOrder with
  | some (startHour, endHour), some order =>
      let hour := localHour ctx.account.plan order.submittedAt
      if inHours startHour endHour hour then .ok .pass
      else
        .ok (.fail
          { severity := .hard
            message :=
              [.lit "Order submitted at local hour ", .int hour, .lit ", outside allowed window ",
                .int startHour, .lit ":00-", .int endHour, .lit ":00"] })
  | _, _ => .ok .pass

end TradingHoursRule

def tradingHoursRule : StdRule where
  id := .tradingHours
  name := "Trading Hours"
  kind := .custom
  scope := .preTrade
  severity := .hard
  params := none
  isEnabled := fun ctx => ctx.account.plan.tradingHours.isSome
  judge := TradingHoursRule.judge

end Propfirm
