import Propfirm.Rules.Evaluators.Progress

/-!
# Pre-trade rules
-/

namespace Propfirm

/-- A prohibition holds unless the plan allows the behaviour; a pack entry can only lift it. -/
def packProhibits (params : Option RuleParams) (allowed : Bool) : Bool :=
  match params with
  | some p => p.enabled && !allowed
  | none => !allowed

def packValue (params : Option RuleParams) (plan : Option Decimal) : Option Decimal :=
  match params with
  | none => plan
  | some p => if p.enabled then p.value else none

/-! ## Order size -/

namespace MaxPositionSizeRule

def isEnabled (params : Option RuleParams) (ctx : RuleContext) : Bool :=
  packValueEnabled params ctx.account.plan.maxPositionLots.isSome

def judge (params : Option RuleParams) (ctx : RuleContext) : Outcome (Verdict Finding) :=
  match packValue params ctx.account.plan.maxPositionLots, ctx.pendingOrder with
  | some maxLots, some order => do
      let orderLots ← (ctx.instruments.get order.symbol).unitsToLots order.quantity
      if maxLots < orderLots then
        pure (.fail
          { severity := .hard
            message :=
              [.lit "Order size ", .dec order.quantity, .lit " units (", .dec orderLots,
                .lit " lots) exceeds per-order limit ", .dec maxLots, .lit " lots"] })
      else if maxLots * (8 / 10) < orderLots then
        pure (.warn
          { severity := .warning
            message :=
              [.lit "Order lot size ", .dec orderLots, .lit " approaching limit ", .dec maxLots] })
      else pure .pass
  | _, _ => .ok .pass

end MaxPositionSizeRule

def maxPositionSizeRule (params : Option RuleParams) : StdRule where
  id := .maxPositionSize
  name := "Max Position Size"
  kind := .maxPositionSize
  scope := .preTrade
  severity := .hard
  params
  isEnabled := MaxPositionSizeRule.isEnabled params
  judge := MaxPositionSizeRule.judge params

/-! ## Counts that a further order must not exceed -/

/-- A new order, unless it closes a position, must keep the count within the limit. -/
def judgeCountCap (limit : Outcome (Option ℕ)) (count : ℕ) (label : String) (ctx : RuleContext) :
    Outcome (Verdict Finding) := do
  match ← limit with
  | none => pure .pass
  | some max =>
      match ctx.pendingOrder with
      | none => pure .pass
      | some order =>
          match order.kind with
          | .close _ _ => pure .pass
          | .open | .reverse =>
              if max < count + 1 then
                pure (.fail
                  { severity := .hard
                    message :=
                      [.lit label, .int count, .lit "+1 would exceed limit ", .int max] })
              else pure .pass

namespace MaxOpenPositionsRule

def isEnabled (params : Option RuleParams) (ctx : RuleContext) : Bool :=
  packValueEnabled params ctx.account.plan.maxOpenPositions.isSome

def effectiveMax (params : Option RuleParams) (ctx : RuleContext) : Outcome (Option ℕ) :=
  packCount "max_open_positions" "count" params ctx.account.plan.maxOpenPositions

def judge (params : Option RuleParams) (ctx : RuleContext) : Outcome (Verdict Finding) :=
  judgeCountCap (effectiveMax params ctx) (ctx.openPositions.filter Position.isOpen).length
    "Open positions " ctx

end MaxOpenPositionsRule

def maxOpenPositionsRule (params : Option RuleParams) : StdRule where
  id := .maxOpenPositions
  name := "Max Open Positions"
  kind := .maxOpenPositions
  scope := .preTrade
  severity := .hard
  params
  isEnabled := MaxOpenPositionsRule.isEnabled params
  judge := MaxOpenPositionsRule.judge params

namespace MaxDailyTradesRule

def isEnabled (params : Option RuleParams) (ctx : RuleContext) : Bool :=
  packValueEnabled params ctx.account.plan.maxDailyTrades.isSome

def effectiveMax (params : Option RuleParams) (ctx : RuleContext) : Outcome (Option ℕ) :=
  packCount "max_daily_trades" "count" params ctx.account.plan.maxDailyTrades

def judge (params : Option RuleParams) (ctx : RuleContext) : Outcome (Verdict Finding) :=
  judgeCountCap (effectiveMax params ctx) ctx.todayTrades.length "Daily trade count " ctx

end MaxDailyTradesRule

def maxDailyTradesRule (params : Option RuleParams) : StdRule where
  id := .maxDailyTrades
  name := "Max Daily Trades"
  kind := .maxDailyTrades
  scope := .preTrade
  severity := .hard
  params
  isEnabled := MaxDailyTradesRule.isEnabled params
  judge := MaxDailyTradesRule.judge params

/-! ## Total exposure -/

namespace MaxTotalLotsRule

def isEnabled (params : Option RuleParams) (ctx : RuleContext) : Bool :=
  packValueEnabled params ctx.account.plan.maxTotalLots.isSome

def openLots (instruments : InstrumentRegistry) (acc : Lots) : List Position → Outcome Lots
  | [] => .ok acc
  | p :: ps => do
      let lots ← (instruments.get p.symbol).unitsToLots p.openQuantity
      openLots instruments (acc + lots) ps

def judge (params : Option RuleParams) (ctx : RuleContext) : Outcome (Verdict Finding) :=
  match packValue params ctx.account.plan.maxTotalLots with
  | none => .ok .pass
  | some maxLots => do
      let held ← openLots ctx.instruments 0 (ctx.openPositions.filter Position.isOpen)
      let ordered ←
        match ctx.pendingOrder with
        | some o => (ctx.instruments.get o.symbol).unitsToLots o.quantity
        | none => pure 0
      if maxLots < held + ordered then
        pure (.fail
          { severity := .hard
            message :=
              [.lit "Total exposure ", .dec (held + ordered), .lit " lots exceeds account limit ",
                .dec maxLots, .lit " lots"] })
      else pure .pass

end MaxTotalLotsRule

def maxTotalLotsRule (params : Option RuleParams) : StdRule where
  id := .maxTotalLots
  name := "Max Total Lots"
  kind := .maxLotSize
  scope := .preTrade
  severity := .hard
  params
  isEnabled := MaxTotalLotsRule.isEnabled params
  judge := MaxTotalLotsRule.judge params

/-! ## Margin -/

namespace MarginRule

def usedMargin (instruments : InstrumentRegistry) (leverage : ℕ) (acc : Money) :
    List Position → Outcome Money
  | [] => .ok acc
  | p :: ps => do
      let spec := instruments.get p.symbol
      let lots ← spec.unitsToLots p.openQuantity
      let margin ← (spec.notional lots p.avgEntryPrice).div leverage
      usedMargin instruments leverage (acc + margin) ps

def freeMargin (ctx : RuleContext) : Outcome Money := do
  let used ← usedMargin ctx.instruments ctx.account.plan.leverage 0
    (ctx.openPositions.filter Position.isOpen)
  pure (ctx.account.equity - used)

def referencePrice (o : Order) : Option Price :=
  match o.avgFillPrice with
  | some price => some price
  | none =>
      match o.orderType with
      | .limit price => some price
      | .market | .stop _ | .stopLimit _ _ => none

def judge (ctx : RuleContext) : Outcome (Verdict Finding) :=
  match ctx.pendingOrder with
  | none => .ok .pass
  | some order =>
      if order.quantity ≤ 0 then .ok .pass
      else
        match referencePrice order with
        | none => .ok .pass
        | some price => do
            let spec := ctx.instruments.get order.symbol
            let lots ← spec.unitsToLots order.quantity
            let notional := spec.notional lots price
            let requiredMargin ← notional.div ctx.account.plan.leverage
            let free ← freeMargin ctx
            if free < requiredMargin then
              pure (.fail
                { severity := .hard
                  message :=
                    [.lit "Insufficient margin: order requires ", .dec requiredMargin,
                      .lit " (notional ", .dec notional, .lit " at 1:",
                      .int ctx.account.plan.leverage, .lit "), free margin ", .dec free] })
            else pure .pass

end MarginRule

def marginRule : StdRule where
  id := .margin
  name := "Margin"
  kind := .custom
  scope := .preTrade
  severity := .hard
  params := none
  isEnabled := fun _ => true
  judge := MarginRule.judge

/-! ## Stop-loss and take-profit -/

/-- An opening order must carry an attachment the plan requires. -/
def judgeRequired (required missing : Bool) (verdict : Verdict Finding) :
    Option Order → Outcome (Verdict Finding)
  | none => .ok .pass
  | some order =>
      if required && decide (order.kind = .open) && missing then .ok verdict else .ok .pass

namespace StopLossRequiredRule

def judge (ctx : RuleContext) : Outcome (Verdict Finding) :=
  judgeRequired ctx.account.plan.requireStopLoss
    (ctx.pendingOrder.elim false fun o => o.stopLoss.isNone)
    (.fail { severity := .hard, message := [.lit "Stop-loss not set on opening order"] })
    ctx.pendingOrder

end StopLossRequiredRule

def stopLossRequiredRule (params : Option RuleParams) : StdRule where
  id := .slRequired
  name := "Stop-Loss Required"
  kind := .missingStopLoss
  scope := .preTrade
  severity := .hard
  params
  isEnabled := fun ctx => packEnabled params ctx.account.plan.requireStopLoss
  judge := StopLossRequiredRule.judge

namespace TakeProfitRequiredRule

def judge (ctx : RuleContext) : Outcome (Verdict Finding) :=
  judgeRequired ctx.account.plan.requireTakeProfit
    (ctx.pendingOrder.elim false fun o => o.takeProfit.isNone)
    (.warn { severity := .warning, message := [.lit "Take-profit not set on opening order"] })
    ctx.pendingOrder

end TakeProfitRequiredRule

def takeProfitRequiredRule (params : Option RuleParams) : StdRule where
  id := .tpRequired
  name := "Take-Profit Required"
  kind := .missingTakeProfit
  scope := .preTrade
  severity := .warning
  params
  isEnabled := fun ctx => packEnabled params ctx.account.plan.requireTakeProfit
  judge := TakeProfitRequiredRule.judge

/-! ## Hedging -/

namespace HedgingRule

def judge (ctx : RuleContext) : Outcome (Verdict Finding) :=
  if ctx.account.plan.hedgingAllowed then .ok .pass
  else
    match ctx.pendingOrder with
    | none => .ok .pass
    | some order =>
        if order.kind ≠ .open then .ok .pass
        else if ctx.openPositions.any fun p =>
            p.isOpen && decide (p.symbol = order.symbol) &&
              decide (p.side ≠ PositionSide.fromOrder order.side) then
          .ok (.fail
            { severity := .hard
              message :=
                [.lit "Hedging detected: opposing position exists on ", .lit order.symbol.text] })
        else .ok .pass

end HedgingRule

def hedgingRule (params : Option RuleParams) : StdRule where
  id := .hedging
  name := "Hedging"
  kind := .hedging
  scope := .preTrade
  severity := .hard
  params
  isEnabled := fun ctx => packProhibits params ctx.account.plan.hedgingAllowed
  judge := HedgingRule.judge

end Propfirm
