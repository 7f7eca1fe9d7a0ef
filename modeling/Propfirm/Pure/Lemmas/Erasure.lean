import Propfirm.Lib.Timeline
import Propfirm.Rules.Registry

/-!
# What the rules do not read

Erasure blanks every part of a context that no rule of the default library reads. The rules judge an
erased context as they judge the context itself.
-/

namespace Propfirm

/-! ## Erased records -/

def ChallengePlan.erase (p : ChallengePlan) : ChallengePlan :=
  { p with id := ⟨0⟩, planMeta := .default, effectiveAt := 0, payoutConfig := none }

def Account.erase (a : Account) : Account :=
  { a with
    plan := a.plan.erase
    challengeId := none
    currentTradingDayStart := none
    payoutCount := 0
    balanceAtLastPayout := 0
    lastPayoutAt := none
    refundUsed := false
    statusBeforeBreach := none
    todayTrades := [] }

def Position.erase (p : Position) : Position :=
  { p with
    accountId := ⟨0⟩
    openedAt := 0
    closedAt := none
    openedQuantity := 0
    realizedPnl := 0
    commission := 0
    swap := 0 }

def Order.erase (o : Order) : Order := { o with accountId := ⟨0⟩ }

def Trade.eraseToday (t : Trade) : Trade := { t with orderId := ⟨0⟩, accountId := ⟨0⟩ }

def Trade.eraseReference (t : Trade) : Trade :=
  { t with orderId := ⟨0⟩, tradeSide := .entry, commission := 0, swap := 0, exitInfo := none }

def Trade.eraseLatest (t : Trade) : Trade :=
  { t with orderId := ⟨0⟩, price := 0, commission := 0, swap := 0 }

def RuleContext.erase (ctx : RuleContext) : RuleContext :=
  { ctx with
    account := ctx.account.erase
    openPositions := ctx.openPositions.map Position.erase
    todayTrades := ctx.todayTrades.map Trade.eraseToday
    pendingOrder := ctx.pendingOrder.map Order.erase
    latestTrade := ctx.latestTrade.map Trade.eraseLatest
    crossReferenceTrades := ctx.crossReferenceTrades.map Trade.eraseReference
    violationId := fun _ => ⟨0⟩
    wallClock := 0 }

/-! ## Lists -/

theorem filter_isOpen_erase (ps : List Position) :
    (ps.map Position.erase).filter Position.isOpen = (ps.filter Position.isOpen).map Position.erase :=
  List.filter_map

theorem MaxTotalLotsRule.openLots_erase (instruments : InstrumentRegistry) (acc : Lots)
    (ps : List Position) :
    openLots instruments acc (ps.map Position.erase) = openLots instruments acc ps := by
  induction ps generalizing acc with
  | nil => rfl
  | cons p ps ih => simp only [List.map_cons, openLots, ih]; rfl

theorem MarginRule.usedMargin_erase (instruments : InstrumentRegistry) (leverage : ℕ) (acc : Money)
    (ps : List Position) :
    usedMargin instruments leverage acc (ps.map Position.erase) =
      usedMargin instruments leverage acc ps := by
  induction ps generalizing acc with
  | nil => rfl
  | cons p ps ih => simp only [List.map_cons, usedMargin, ih]; rfl

theorem sortByTime_erase (ts : List Trade) :
    sortByTime (ts.map Trade.eraseToday) = (sortByTime ts).map Trade.eraseToday :=
  Timeline.chronological_map fun _ => rfl

/-! ## Rules -/

section Rules

variable (ctx : RuleContext)

theorem newsTrading_erase : NewsTradingRule.judge ctx.erase = NewsTradingRule.judge ctx := by
  simp only [NewsTradingRule.judge, RuleContext.erase]
  cases ctx.pendingOrder <;> rfl

theorem overnightHolding_erase :
    OvernightHoldingRule.judge ctx.erase = OvernightHoldingRule.judge ctx := by
  simp only [OvernightHoldingRule.judge, RuleContext.erase, Option.isSome_map, List.isEmpty_map]
  rfl

theorem weekendHolding_erase :
    WeekendHoldingRule.judge ctx.erase = WeekendHoldingRule.judge ctx := by
  simp only [WeekendHoldingRule.judge, RuleContext.erase, Option.isSome_map, List.isEmpty_map]
  rfl

theorem maxPositionSize_erase :
    MaxPositionSizeRule.judge none ctx.erase = MaxPositionSizeRule.judge none ctx := by
  simp only [MaxPositionSizeRule.judge, RuleContext.erase, Account.erase, ChallengePlan.erase]
  cases ctx.account.plan.maxPositionLots <;> cases ctx.pendingOrder <;> rfl

theorem judgeCountCap_erase (limit : Outcome (Option ℕ)) (count : ℕ) (label : String) :
    judgeCountCap limit count label ctx.erase = judgeCountCap limit count label ctx := by
  simp only [judgeCountCap, RuleContext.erase]
  cases ctx.pendingOrder <;> rfl

theorem maxOpenPositions_erase :
    MaxOpenPositionsRule.judge none ctx.erase = MaxOpenPositionsRule.judge none ctx := by
  simp only [MaxOpenPositionsRule.judge, judgeCountCap_erase]
  simp only [RuleContext.erase, filter_isOpen_erase, List.length_map]
  rfl

theorem maxDailyTrades_erase :
    MaxDailyTradesRule.judge none ctx.erase = MaxDailyTradesRule.judge none ctx := by
  simp only [MaxDailyTradesRule.judge, judgeCountCap_erase]
  simp only [RuleContext.erase, List.length_map]
  rfl

theorem maxTotalLots_erase :
    MaxTotalLotsRule.judge none ctx.erase = MaxTotalLotsRule.judge none ctx := by
  simp only [MaxTotalLotsRule.judge, RuleContext.erase, filter_isOpen_erase,
    MaxTotalLotsRule.openLots_erase]
  cases ctx.pendingOrder <;> rfl

theorem margin_erase : MarginRule.judge ctx.erase = MarginRule.judge ctx := by
  have hfree : MarginRule.freeMargin ctx.erase = MarginRule.freeMargin ctx := by
    simp only [MarginRule.freeMargin, RuleContext.erase, filter_isOpen_erase,
      MarginRule.usedMargin_erase]
    rfl
  simp only [MarginRule.judge, hfree]
  simp only [RuleContext.erase]
  cases ctx.pendingOrder <;> rfl

theorem hedging_erase : HedgingRule.judge ctx.erase = HedgingRule.judge ctx := by
  simp only [HedgingRule.judge, RuleContext.erase, List.any_map]
  cases ctx.pendingOrder <;> rfl

theorem stopLossRequired_erase :
    StopLossRequiredRule.judge ctx.erase = StopLossRequiredRule.judge ctx := by
  simp only [StopLossRequiredRule.judge, RuleContext.erase]
  cases ctx.pendingOrder <;> rfl

theorem takeProfitRequired_erase :
    TakeProfitRequiredRule.judge ctx.erase = TakeProfitRequiredRule.judge ctx := by
  simp only [TakeProfitRequiredRule.judge, RuleContext.erase]
  cases ctx.pendingOrder <;> rfl

theorem cooldown_erase : CooldownRule.judge none ctx.erase = CooldownRule.judge none ctx := by
  simp only [CooldownRule.judge, RuleContext.erase, List.getLast?_map]
  cases ctx.pendingOrder <;> cases ctx.todayTrades.getLast? <;> rfl

theorem tradingHours_erase : TradingHoursRule.judge ctx.erase = TradingHoursRule.judge ctx := by
  simp only [TradingHoursRule.judge, RuleContext.erase, Account.erase, ChallengePlan.erase]
  cases ctx.account.plan.tradingHours <;> cases ctx.pendingOrder <;> rfl

theorem detectGrid_erase (sqrt : Decimal → Option Decimal) (symbol : Symbol) (minEntries : ℕ) :
    GridTradingRule.detectGrid sqrt none ctx.erase symbol minEntries =
      GridTradingRule.detectGrid sqrt none ctx symbol minEntries := by
  have hentries : GridTradingRule.recentEntries none ctx.erase symbol =
      (GridTradingRule.recentEntries none ctx symbol).map Trade.eraseToday := by
    simp only [GridTradingRule.recentEntries, RuleContext.erase, List.filter_map, sortByTime_erase]
    rfl
  simp only [GridTradingRule.detectGrid, GridTradingRule.gridOf, hentries, List.length_map,
    ← List.map_drop, List.map_map]
  rfl

theorem lossRun_erase (symbol : Symbol) :
    GridTradingRule.lossRun ctx.erase symbol = GridTradingRule.lossRun ctx symbol := by
  simp only [GridTradingRule.lossRun, RuleContext.erase, List.filter_map, sortByTime_erase,
    ← List.map_reverse, List.takeWhile_map, List.map_map]
  rfl

theorem detectEscalation_erase (symbol : Symbol) :
    GridTradingRule.detectEscalation none ctx.erase symbol =
      GridTradingRule.detectEscalation none ctx symbol := by
  simp only [GridTradingRule.detectEscalation, lossRun_erase]
  simp only [RuleContext.erase, List.filter_map, List.map_map]
  rfl

theorem gridTrading_erase : GridTradingRule.judge none ctx.erase = GridTradingRule.judge none ctx := by
  simp only [GridTradingRule.judge, detectGrid_erase, detectEscalation_erase]
  simp only [RuleContext.erase]
  cases ctx.pendingOrder <;> rfl

theorem copyTrading_erase : CopyTradingRule.judge none ctx.erase = CopyTradingRule.judge none ctx := by
  simp only [CopyTradingRule.judge, RuleContext.erase, List.filter_map, List.length_map]
  cases ctx.latestTrade <;> rfl

theorem hftScalping_erase : HftScalpingRule.judge none ctx.erase = HftScalpingRule.judge none ctx := by
  simp only [HftScalpingRule.judge, HftScalpingRule.countedFast, HftScalpingRule.fastRoundTrips,
    HftScalpingRule.recentCloses, RuleContext.erase, List.filter_map, List.length_map]
  cases ctx.latestTrade <;> rfl

theorem perTradeMaxLoss_erase :
    PerTradeMaxLossRule.judge none ctx.erase = PerTradeMaxLossRule.judge none ctx := by
  simp only [PerTradeMaxLossRule.judge, RuleContext.erase]
  cases ctx.latestTrade <;> rfl

theorem crossAccountHedging_erase :
    CrossAccountHedgingRule.judge ctx.erase = CrossAccountHedgingRule.judge ctx := by
  simp only [CrossAccountHedgingRule.judge, CrossAccountHedgingRule.hedgedSymbols, RuleContext.erase,
    List.any_map]
  rfl

end Rules

/-- No rule of the default library reads an erased part. -/
theorem judge_erase {r : StdRule} (hr : r ∈ defaultRules) (ctx : RuleContext) :
    r.judge ctx.erase = r.judge ctx := by
  have hall : ∀ r ∈ defaultRules, r.judge ctx.erase = r.judge ctx := by
    simp only [defaultRules, List.forall_mem_cons, List.not_mem_nil, false_imp_iff, implies_true,
      and_true]
    exact ⟨rfl, rfl, rfl, rfl, rfl, rfl, rfl, newsTrading_erase ctx, overnightHolding_erase ctx,
      weekendHolding_erase ctx, maxPositionSize_erase ctx, maxOpenPositions_erase ctx,
      maxDailyTrades_erase ctx, rfl, cooldown_erase ctx, hedging_erase ctx, gridTrading_erase ctx,
      copyTrading_erase ctx, stopLossRequired_erase ctx, takeProfitRequired_erase ctx,
      hftScalping_erase ctx, perTradeMaxLoss_erase ctx, rfl, maxTotalLots_erase ctx,
      tradingHours_erase ctx, margin_erase ctx, crossAccountHedging_erase ctx, rfl⟩
  exact hall r hr

/-- A rule is enabled by the plan and the deadline alone. -/
theorem isEnabled_erase {r : StdRule} (hr : r ∈ defaultRules) (ctx : RuleContext) :
    r.isEnabled ctx.erase = r.isEnabled ctx := by
  have hall : ∀ r ∈ defaultRules, r.isEnabled ctx.erase = r.isEnabled ctx := by
    simp only [defaultRules, List.forall_mem_cons, List.not_mem_nil, false_imp_iff, implies_true,
      and_true]
    refine ⟨?_, ?_, ?_, ?_, ?_, ?_, ?_, ?_, ?_, ?_, ?_, ?_, ?_, ?_, ?_, ?_, ?_, ?_, ?_, ?_, ?_, ?_, ?_,
      ?_, ?_, ?_, ?_, ?_⟩ <;> rfl
  exact hall r hr

end Propfirm
