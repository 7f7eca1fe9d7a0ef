import Mathlib.Algebra.Field.Rat
import Mathlib.Data.List.Sort
import Propfirm.Rules.Evaluators.Drawdown
import Propfirm.Rules.Evaluators.Orders

/-!
# Trading patterns, fills and other accounts
-/

namespace Propfirm

/-- Trades by execution time; trades at the same time keep their order. -/
def sortByTime (ts : List Trade) : List Trade :=
  ts.insertionSort fun a b => a.executedAt ≤ b.executedAt

/-! ## Grid and martingale -/

namespace GridTradingRule

def effectiveMinEntries (params : Option RuleParams) : Outcome ℕ :=
  match params with
  | none => .ok 3
  | some p => do
      let n ← p.effectiveCount "grid_trading"
      match n.toI64? with
      | some v => pure (asUsize v)
      | none =>
          raise (.invalidConfig [.lit "grid_trading: pack value is not a valid entry count"])

def knob (params : Option RuleParams) (key : String) (default : Decimal) : Decimal :=
  (params.bind fun p => p.paramsJson.decimal key).getD default

def effectiveCvThreshold (params : Option RuleParams) : Decimal :=
  knob params "cv_threshold" (5 / 100)

def effectiveMaxWindowMinutes (params : Option RuleParams) : ℤ :=
  (knob params "max_window_minutes" 120).toI64?.getD 120

def effectiveEscalationLosses (params : Option RuleParams) : ℕ :=
  match (knob params "escalation_losses" 2).toI64? with
  | some v => (max v 1).toNat
  | none => 2

def effectiveEscalationMultiplier (params : Option RuleParams) : Decimal :=
  knob params "escalation_multiplier" (15 / 10)

def effectiveSeverity (params : Option RuleParams) : ViolationSeverity :=
  match params with
  | none => .warning
  | some p =>
      match p.severity with
      | some s =>
          if s ≠ "" then if s.toLower = "hard" then .hard else .warning
          else if (p.paramsJson.decimal "severity_hard").any fun v => 1 ≤ v then .hard
          else .warning
      | none =>
          if (p.paramsJson.decimal "severity_hard").any fun v => 1 ≤ v then .hard else .warning

def priceGaps (prices : List Price) : List Decimal :=
  List.zipWith (fun a b => |b - a|) prices prices.tail

def recentEntries (params : Option RuleParams) (ctx : RuleContext) (symbol : Symbol) : List Trade :=
  sortByTime (ctx.todayTrades.filter fun t =>
    decide (t.symbol = symbol) && decide (t.tradeSide = .entry) &&
      decide (ctx.serverTime - t.executedAt ≤ Duration.minutes (effectiveMaxWindowMinutes params)))

section Grid

variable {R : Type} [Field R] [LinearOrder R]

/-- The gaps and their coefficient of variation, when the last five of the entries are evenly spaced. -/
def gridOf (sqrt : Decimal → Option R) (threshold : Decimal) (minEntries : ℕ) (entries : List Trade) :
    Option (List Decimal × R) :=
  if entries.length < minEntries then none
  else
    let gaps := priceGaps ((entries.drop (entries.length - 5)).map Trade.price)
    let mean := gaps.sum / gaps.length
    if gaps = [] then none
    else if mean = 0 then none
    else
      let var := (gaps.map fun g => (g - mean) * (g - mean)).sum / gaps.length
      let cv := (sqrt var).getD 0 / (mean : R)
      if cv < threshold then some (gaps, cv) else none

/-- The square root is that of another library, so it is a parameter. -/
def detectGrid (sqrt : Decimal → Option R) (params : Option RuleParams) (ctx : RuleContext)
    (symbol : Symbol) (minEntries : ℕ) : Outcome (Option (List Decimal × R)) := do
  let _ ← Duration.tryMinutes (effectiveMaxWindowMinutes params)
  pure (gridOf sqrt (effectiveCvThreshold params) minEntries (recentEntries params ctx symbol))

end Grid

/-- The sizes of the latest unbroken run of losing exits, newest first. -/
def lossRun (ctx : RuleContext) (symbol : Symbol) : List Quantity :=
  let exits := sortByTime (ctx.todayTrades.filter fun t =>
    decide (t.symbol = symbol) && decide (t.tradeSide = .exit))
  (exits.reverse.takeWhile fun t => decide (t.netPnl < 0)).map Trade.quantity

/-- The number of losses and the size ratio, when an entry is much larger than the first loss. -/
def detectEscalation (params : Option RuleParams) (ctx : RuleContext) (symbol : Symbol) :
    Option (ℕ × Decimal) :=
  let lossSizes := lossRun ctx symbol
  if lossSizes.length < effectiveEscalationLosses params then none
  else
    match lossSizes.getLast? with
    | none => none
    | some firstLossSize =>
        let newestEntrySize :=
          ((ctx.todayTrades.filter fun t =>
            decide (t.symbol = symbol) && decide (t.tradeSide = .entry)).map Trade.quantity).foldl
              max 0
        if firstLossSize * effectiveEscalationMultiplier params ≤ newestEntrySize then
          some (lossSizes.length, newestEntrySize / max firstLossSize (1 / 10000))
        else none

def judge (params : Option RuleParams) (ctx : RuleContext) : Outcome (Verdict Finding) :=
  if ctx.account.plan.gridTradingAllowed then .ok .pass
  else do
    let minEntries ← effectiveMinEntries params
    match ctx.pendingOrder with
    | none => pure .pass
    | some order =>
        match ← detectGrid Decimal.sqrt? params ctx order.symbol minEntries with
        | some (gaps, cv) =>
            pure (.warn
              { severity := effectiveSeverity params
                message :=
                  [.lit "Potential grid trading detected on ", .lit order.symbol.text,
                    .lit ": uniform entry spacing over ", .int (gaps.length + 1),
                    .lit " entries (CV=", .dec cv, .lit ", mean gap ",
                    .dec (gaps.sum / gaps.length), .lit ")"] })
        | none =>
            match detectEscalation params ctx order.symbol with
            | some (losses, ratio) =>
                pure (.warn
                  { severity := effectiveSeverity params
                    message :=
                      [.lit "Martingale pattern detected on ", .lit order.symbol.text, .lit ": ",
                        .int losses, .lit " consecutive losses followed by an escalated entry (",
                        .rounded 2 ratio, .lit "× the first loss size)"] })
            | none => pure .pass

end GridTradingRule

def gridTradingRule (params : Option RuleParams) : StdRule where
  id := .gridTrading
  name := "Grid Trading"
  kind := .gridTrading
  scope := .preTrade
  severity := GridTradingRule.effectiveSeverity params
  params
  isEnabled := fun ctx => packProhibits params ctx.account.plan.gridTradingAllowed
  judge := GridTradingRule.judge params

/-! ## Copy trading -/

namespace CopyTradingRule

def effectiveFailThreshold (params : Option RuleParams) : Outcome ℕ :=
  match params with
  | none => .ok 3
  | some p => do
      let n ← p.effectiveCount "copy_trading"
      match n.toI64? with
      | some v => pure (asUsize v)
      | none =>
          raise (.invalidConfig [.lit "copy_trading: pack value is not a valid trade count"])

def effectiveWindowSeconds (params : Option RuleParams) : ℤ :=
  ((params.bind fun p => p.paramsJson.decimal "window_seconds").bind Decimal.toI64?).getD 5

/-- Whether a trade of another account mirrors this one: same symbol and side, close in time, and a
quantity within ten percent. -/
def correlated (window : ℤ) (trade reference : Trade) : Bool :=
  decide (reference.accountId ≠ trade.accountId) && decide (reference.symbol = trade.symbol) &&
    decide (reference.side = trade.side) &&
    decide (|Duration.numSeconds (reference.executedAt - trade.executedAt)| ≤ window) &&
    decide (reference.quantity * (1 - 10 / 100) ≤ trade.quantity ∧
      trade.quantity ≤ reference.quantity * (1 + 10 / 100))

def judge (params : Option RuleParams) (ctx : RuleContext) : Outcome (Verdict Finding) :=
  if ctx.account.plan.copyTradingAllowed then .ok .pass
  else do
    let failThreshold ← effectiveFailThreshold params
    let window := effectiveWindowSeconds params
    match ctx.latestTrade with
    | none => pure .pass
    | some trade =>
        let hits := (ctx.crossReferenceTrades.filter (correlated window trade)).length
        if failThreshold ≤ hits then
          pure (.fail
            { severity := .hard
              message :=
                [.lit "Copy-trading pattern detected: ", .int hits,
                  .lit " correlated trades from other accounts within ", .int window,
                  .lit "s window"] })
        else if 1 ≤ hits then
          pure (.warn
            { severity := .warning
              message :=
                [.lit "Suspicious trade correlation: ", .int hits,
                  .lit " reference trades from other accounts within ", .int window,
                  .lit "s window"] })
        else pure .pass

end CopyTradingRule

def copyTradingRule (params : Option RuleParams) : StdRule where
  id := .copyTrading
  name := "Copy Trading"
  kind := .copyTrading
  scope := .postTrade
  severity := .hard
  params
  isEnabled := fun ctx => packProhibits params ctx.account.plan.copyTradingAllowed
  judge := CopyTradingRule.judge params

/-! ## Scalping -/

namespace HftScalpingRule

def effectiveMinRoundTripSeconds (params : Option RuleParams) (ctx : RuleContext) : ℤ :=
  match (params.bind RuleParams.value).bind Decimal.toI64? with
  | some secs => secs
  | none =>
      if ctx.account.plan.hftMinRoundTripSeconds < 2 ^ 63 then
        ctx.account.plan.hftMinRoundTripSeconds
      else 60

def effectiveMaxClosesPerMinute (params : Option RuleParams) : ℕ :=
  match params.bind fun p => p.paramsJson.u64 "max_closes_per_minute" with
  | some n => n % 2 ^ 32
  | none => 10

def fastRoundTrips (minRoundTrip : ℤ) (trade : Trade) (today : List Trade) : ℕ :=
  (today.filter fun t =>
    decide (t.symbol = trade.symbol) &&
      decide (trade.executedAt - Duration.seconds minRoundTrip ≤ t.executedAt ∧
        t.executedAt ≤ trade.executedAt) &&
      decide (t.tradeSide = .entry)).length

def recentCloses (trade : Trade) (today : List Trade) : ℕ :=
  (today.filter fun t =>
    decide (trade.executedAt - Duration.minutes 1 ≤ t.executedAt ∧
        t.executedAt ≤ trade.executedAt) &&
      decide (t.tradeSide = .exit)).length

/-- Only an exit closes a round trip. -/
def countedFast (minRoundTrip : ℤ) (trade : Trade) (today : List Trade) : Outcome ℕ :=
  if trade.tradeSide = .exit then do
    let _ ← trade.executedAt.minus (← Duration.trySeconds minRoundTrip)
    pure (fastRoundTrips minRoundTrip trade today)
  else pure 0

def judge (params : Option RuleParams) (ctx : RuleContext) : Outcome (Verdict Finding) :=
  match ctx.latestTrade with
  | none => .ok .pass
  | some trade => do
      let minRoundTrip := effectiveMinRoundTripSeconds params ctx
      let maxCloses := effectiveMaxClosesPerMinute params
      let fast ← countedFast minRoundTrip trade ctx.todayTrades
      if 0 < fast then
        pure (.warn
          { severity := .warning
            message :=
              [.lit "HFT pattern: round-trip on ", .lit trade.symbol.text, .lit " faster than ",
                .int minRoundTrip, .lit "s (", .int fast, .lit " entries in window)"] })
      else
        let _ ← trade.executedAt.minus (Duration.minutes 1)
        let closes := recentCloses trade ctx.todayTrades
        if maxCloses < closes then
          pure (.warn
            { severity := .warning
              message :=
                [.lit "Scalping pattern: ", .int closes, .lit " closes in the last minute (cap ",
                  .int maxCloses, .lit ")"] })
        else pure .pass

end HftScalpingRule

def hftScalpingRule (params : Option RuleParams) : StdRule where
  id := .hftScalping
  name := "HFT / Scalping"
  kind := .custom
  scope := .postTrade
  severity := .warning
  priority := (params.bind RuleParams.priority).getD 100
  params
  isEnabled := fun ctx => packEnabled params ctx.account.plan.hftBanEnabled
  judge := HftScalpingRule.judge params

/-! ## Loss of a single trade -/

namespace PerTradeMaxLossRule

def isEnabled (params : Option RuleParams) (ctx : RuleContext) : Bool :=
  packValueEnabled params
    (ctx.account.plan.perTradeMaxLossPct.isSome || ctx.account.plan.perTradeMaxLossMoney.isSome)

/-- The tighter of the fraction of the balance and the absolute cap. -/
def planLimit (a : Account) : Option Money :=
  match a.plan.perTradeMaxLossPct, a.plan.perTradeMaxLossMoney with
  | some pct, some cap => some (min (pct * a.balance) cap)
  | some pct, none => some (pct * a.balance)
  | none, some cap => some cap
  | none, none => none

def effectiveLimitMoney (params : Option RuleParams) (ctx : RuleContext) : Option Money :=
  match params with
  | some p =>
      match p.unit with
      | some .money => some (p.value.getD 0)
      | some .percent | none => p.effectiveMoney ctx.account.balance
  | none => planLimit ctx.account

def exitLoss (trade : Trade) : Option Money :=
  if trade.tradeSide = .exit then
    match trade.exitInfo with
    | some info => if 0 ≤ info.realizedPnl then none else some |info.realizedPnl|
    | none => none
  else none

def judge (params : Option RuleParams) (ctx : RuleContext) : Outcome (Verdict Finding) :=
  match ctx.latestTrade.bind exitLoss with
  | none => .ok .pass
  | some loss =>
      match effectiveLimitMoney params ctx with
      | none => .ok .pass
      | some maxLoss =>
          let tolerance := toleranceMoney ((params.bind RuleParams.toleranceCents).getD 1)
          if maxLoss + tolerance < loss then
            let message : Text :=
              [.lit "Per-trade max loss breach: trade lost ", .dec loss, .lit " > max ",
                .dec maxLoss]
            if ctx.equityIsBrokerReported then
              .ok (.liquidate { severity := .liquidate, message })
            else .ok (.warn { severity := .warning, message })
          else if maxLoss * (8 / 10) ≤ loss then
            .ok (.earlyWarning
              { severity := .warning
                message :=
                  [.lit "Per-trade loss approaching limit: ", .dec loss, .lit "/", .dec maxLoss] })
          else .ok .pass

end PerTradeMaxLossRule

def perTradeMaxLossRule (params : Option RuleParams) : StdRule where
  id := .perTradeMaxLoss
  name := "Per-Trade Max Loss"
  kind := .custom
  scope := .postTrade
  severity := .hard
  priority := (params.bind RuleParams.priority).getD 800
  params
  isEnabled := PerTradeMaxLossRule.isEnabled params
  judge := PerTradeMaxLossRule.judge params

/-! ## Hedges across accounts -/

namespace CrossAccountHedgingRule

def isEnabled (params : Option RuleParams) (ctx : RuleContext) : Bool :=
  (params.map RuleParams.enabled).getD true && ctx.account.plan.crossAccountHedgingProhibited

def hedgedSymbols (positions : List Position) (references : List Trade) : List String :=
  (positions.filter fun p =>
    references.any fun t =>
      decide (p.symbol = t.symbol) && decide (p.side ≠ PositionSide.fromOrder t.side)).map
        fun p => p.symbol.text

def judge (ctx : RuleContext) : Outcome (Verdict Finding) :=
  let hedged := hedgedSymbols ctx.account.openPositions ctx.crossReferenceTrades
  if hedged = [] then .ok .pass
  else
    .ok (.warn
      { severity := .warning
        message :=
          [.lit "Cross-account hedging detected on ", .int hedged.length, .lit " symbol(s): ",
            .lit (", ".intercalate hedged),
            .lit (" (open position on this account hedged by opposing fill on a " ++
              "sibling account under the same tenant)")] })

end CrossAccountHedgingRule

def crossAccountHedgingRule (params : Option RuleParams) : StdRule where
  id := .crossAccountHedging
  name := "Cross-Account Hedging"
  kind := .crossAccountHedging
  scope := .onTick
  severity := .warning
  params
  isEnabled := CrossAccountHedgingRule.isEnabled params
  judge := CrossAccountHedgingRule.judge

/-! ## Low-capitalisation exposure -/

namespace LowcapExposureRule

def isEnabled (params : Option RuleParams) (ctx : RuleContext) : Bool :=
  (params.map RuleParams.enabled).getD true && ctx.account.plan.lowcapExposureLimitPct.isSome

def lowcapNotional (instruments : InstrumentRegistry) (positions : List Position) : Money :=
  (positions.map fun p =>
    let spec := instruments.get p.symbol
    if spec.isLowcap then p.openedQuantity * spec.contractSize * p.avgEntryPrice else 0).sum

def judge (ctx : RuleContext) : Outcome (Verdict Finding) :=
  match ctx.account.plan.lowcapExposureLimitPct with
  | none => .ok .pass
  | some limitPct =>
      let notional := lowcapNotional ctx.instruments ctx.account.openPositions
      let balance := ctx.account.balance
      let limitDollars := limitPct * balance
      if balance ≤ 0 then .ok .pass
      else if limitDollars < notional then
        .ok (.warn
          { severity := .warning
            message :=
              [.lit "Low-cap exposure $", .rounded 2 notional, .lit " exceeds ",
                .dec (limitPct * 100), .lit "% of balance $", .rounded 2 balance, .lit " (cap $",
                .rounded 2 limitDollars, .lit ")"] })
      else .ok .pass

end LowcapExposureRule

def lowcapExposureRule (params : Option RuleParams) : StdRule where
  id := .lowcapExposure
  name := "Low-Capitalisation Asset Exposure"
  kind := .lowcapExposure
  scope := .onTick
  severity := .warning
  params
  isEnabled := LowcapExposureRule.isEnabled params
  judge := LowcapExposureRule.judge

end Propfirm
