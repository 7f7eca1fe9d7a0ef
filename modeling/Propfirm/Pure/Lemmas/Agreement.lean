import Propfirm.Pure.Lemmas.Erasure
import Propfirm.Pure.Lemmas.Fields
import Propfirm.Rules.Lemmas.Registry

/-!
# Fields that rules read and the input hash leaves out
-/

namespace Propfirm

open Records

namespace Pure

/-- The arguments of a stateless evaluation, without the registry. -/
structure Call where
  account : Account
  pack : RulePack
  ctxKind : RuleContextKind
  serverTime : Timestamp
  inputs : EvaluateInputs

namespace Call

def fields (c : Call) : List FieldValue :=
  inputFields c.account c.pack c.ctxKind c.serverTime c.inputs

def evaluate (digest : List FieldValue → String) (draws : EvaluateDraws) (registry : RuleRegistry)
    (c : Call) : PureVerdict :=
  Pure.evaluate digest draws c.account c.pack registry c.ctxKind c.serverTime c.inputs

def context (draws : EvaluateDraws) (c : Call) : RuleContext :=
  Pure.context draws c.account c.ctxKind c.serverTime c.inputs

end Call

/-- The fields of the account, of its plan, of the positions, of the trades of the day and of other
accounts, of the order and of the fill that are read but not hashed. -/
inductive MissingField where
  | initialBalance
  | intradayPeakEquity
  | startedAt
  | deadline
  | profitableDaysCount
  | qualifyingTradingDaysCount
  | openPositions
  | dailyLossType
  | dailyLossSoft
  | consistencyType
  | eodTrailLocksAtStart
  | minProfitableDays
  | crossAccountHedgingProhibited
  | lowcapExposureLimitPct
  | consistencyAppliesOnFundedStage
  | qualifyingDayThresholdPct
  | qualifyingDayPnlBandPct
  | timezone
  | positionStatus
  | todayTradeSide
  | todayExitInfo
  | todayCommission
  | todaySwap
  | referenceSide
  | referenceExecutedAt
  | orderKind
  | orderType
  | orderStopLoss
  | orderTakeProfit
  | orderAvgFillPrice
  | latestAccountId
  | latestSymbol
  | latestSide
  | latestQuantity
  | latestTradeSide
  | latestExitInfo
deriving DecidableEq

def MissingField.Agree : MissingField → Call → Call → Prop
  | .initialBalance => InvImage Eq fun c => c.account.initialBalance
  | .intradayPeakEquity => InvImage Eq fun c => c.account.intradayPeakEquity
  | .startedAt => InvImage Eq fun c => c.account.startedAt
  | .deadline => InvImage Eq fun c => c.account.deadline
  | .profitableDaysCount => InvImage Eq fun c => c.account.profitableDaysCount
  | .qualifyingTradingDaysCount => InvImage Eq fun c => c.account.qualifyingTradingDaysCount
  | .openPositions => InvImage Eq fun c => c.account.openPositions
  | .dailyLossType => InvImage Eq fun c => c.account.plan.dailyLossType
  | .dailyLossSoft => InvImage Eq fun c => c.account.plan.dailyLossSoft
  | .consistencyType => InvImage Eq fun c => c.account.plan.consistencyType
  | .eodTrailLocksAtStart => InvImage Eq fun c => c.account.plan.eodTrailLocksAtStart
  | .minProfitableDays => InvImage Eq fun c => c.account.plan.minProfitableDays
  | .crossAccountHedgingProhibited =>
      InvImage Eq fun c => c.account.plan.crossAccountHedgingProhibited
  | .lowcapExposureLimitPct => InvImage Eq fun c => c.account.plan.lowcapExposureLimitPct
  | .consistencyAppliesOnFundedStage =>
      InvImage Eq fun c => c.account.plan.consistencyAppliesOnFundedStage
  | .qualifyingDayThresholdPct => InvImage Eq fun c => c.account.plan.qualifyingDayThresholdPct
  | .qualifyingDayPnlBandPct => InvImage Eq fun c => c.account.plan.qualifyingDayPnlBandPct
  | .timezone => InvImage Eq fun c => c.account.plan.timezone
  | .positionStatus => InvImage Eq fun c => c.inputs.openPositions.map Position.status
  | .todayTradeSide => InvImage Eq fun c => c.inputs.todayTrades.map Trade.tradeSide
  | .todayExitInfo => InvImage Eq fun c => c.inputs.todayTrades.map Trade.exitInfo
  | .todayCommission => InvImage Eq fun c => c.inputs.todayTrades.map Trade.commission
  | .todaySwap => InvImage Eq fun c => c.inputs.todayTrades.map Trade.swap
  | .referenceSide => InvImage Eq fun c => c.inputs.crossReferenceTrades.map Trade.side
  | .referenceExecutedAt =>
      InvImage Eq fun c => c.inputs.crossReferenceTrades.map Trade.executedAt
  | .orderKind => InvImage Eq fun c => c.inputs.pendingOrder.map Order.kind
  | .orderType => InvImage Eq fun c => c.inputs.pendingOrder.map Order.orderType
  | .orderStopLoss => InvImage Eq fun c => c.inputs.pendingOrder.map Order.stopLoss
  | .orderTakeProfit => InvImage Eq fun c => c.inputs.pendingOrder.map Order.takeProfit
  | .orderAvgFillPrice => InvImage Eq fun c => c.inputs.pendingOrder.map Order.avgFillPrice
  | .latestAccountId => InvImage Eq fun c => c.inputs.latestTrade.map Trade.accountId
  | .latestSymbol => InvImage Eq fun c => c.inputs.latestTrade.map Trade.symbol
  | .latestSide => InvImage Eq fun c => c.inputs.latestTrade.map Trade.side
  | .latestQuantity => InvImage Eq fun c => c.inputs.latestTrade.map Trade.quantity
  | .latestTradeSide => InvImage Eq fun c => c.inputs.latestTrade.map Trade.tradeSide
  | .latestExitInfo => InvImage Eq fun c => c.inputs.latestTrade.map Trade.exitInfo

/-! ## Agreement determines the erased context -/

section Determined

variable {c d : Call}

theorem erase_plan_eq (hplan : c.account.plan.hashedFields = d.account.plan.hashedFields)
    (h : ∀ f : MissingField, f.Agree c d) : c.account.plan.erase = d.account.plan.erase := by
  obtain ⟨hcore, htail⟩ := List.append_inj hplan rfl
  simp only [List.cons.injEq, FieldValue.flag.injEq, FieldValue.decimal.injEq] at htail
  calc c.account.plan.erase
      = (d.account.plan.withUnhashed c.account.plan).erase :=
        congrArg ChallengePlan.erase (ChallengePlan.eq_withUnhashed hcore)
    _ = d.account.plan.erase := by
        simp only [ChallengePlan.withUnhashed, ChallengePlan.erase, htail.2.1, htail.2.2.1,
          show c.account.plan.dailyLossType = _ from h .dailyLossType,
          show c.account.plan.dailyLossSoft = _ from h .dailyLossSoft,
          show c.account.plan.consistencyType = _ from h .consistencyType,
          show c.account.plan.eodTrailLocksAtStart = _ from h .eodTrailLocksAtStart,
          show c.account.plan.minProfitableDays = _ from h .minProfitableDays,
          show c.account.plan.crossAccountHedgingProhibited = _ from h .crossAccountHedgingProhibited,
          show c.account.plan.lowcapExposureLimitPct = _ from h .lowcapExposureLimitPct,
          show c.account.plan.consistencyAppliesOnFundedStage = _ from
            h .consistencyAppliesOnFundedStage,
          show c.account.plan.qualifyingDayThresholdPct = _ from h .qualifyingDayThresholdPct,
          show c.account.plan.qualifyingDayPnlBandPct = _ from h .qualifyingDayPnlBandPct,
          show c.account.plan.timezone = _ from h .timezone]

theorem erase_account_eq (haccount : c.account.hashedFields = d.account.hashedFields)
    (hplan : c.account.plan.erase = d.account.plan.erase)
    (h : ∀ f : MissingField, f.Agree c d) : c.account.erase = d.account.erase := by
  calc c.account.erase
      = (d.account.withUnhashed c.account).erase :=
        congrArg Account.erase (Account.eq_withUnhashed haccount)
    _ = d.account.erase := by
        simp only [Account.withUnhashed, Account.erase, hplan,
          show c.account.initialBalance = _ from h .initialBalance,
          show c.account.startedAt = _ from h .startedAt,
          show c.account.deadline = _ from h .deadline,
          show c.account.intradayPeakEquity = _ from h .intradayPeakEquity,
          show c.account.profitableDaysCount = _ from h .profitableDaysCount,
          show c.account.qualifyingTradingDaysCount = _ from h .qualifyingTradingDaysCount,
          show c.account.openPositions = _ from h .openPositions]

theorem erase_openPositions_eq (hi : c.inputs.SameHashed d.inputs)
    (h : ∀ f : MissingField, f.Agree c d) :
    c.inputs.openPositions.map Position.erase = d.inputs.openPositions.map Position.erase := by
  refine map_eq_of_map_eq ?_ (map_pair_eq hi.openPositions (h .positionStatus))
  rintro ⟨⟨_⟩, _, ⟨_⟩⟩ ⟨⟨_⟩, _, ⟨_⟩⟩ hview
  simp only [Position.hashedFields, Prod.mk.injEq, List.cons.injEq, FieldValue.uuid.injEq,
    FieldValue.text.injEq, FieldValue.discriminant.injEq, FieldValue.decimal.injEq,
    PositionSide.ctorIdx_inj] at hview
  simp [Position.erase, hview]

theorem erase_todayTrades_eq (hi : c.inputs.SameHashed d.inputs)
    (h : ∀ f : MissingField, f.Agree c d) :
    c.inputs.todayTrades.map Trade.eraseToday = d.inputs.todayTrades.map Trade.eraseToday := by
  refine map_eq_of_map_eq ?_ (map_pair_eq hi.todayTrades (map_pair_eq
    (map_pair_eq (h .todayTradeSide) (h .todayExitInfo))
    (map_pair_eq (h .todayCommission) (h .todaySwap))))
  rintro ⟨⟨_⟩, _, _, ⟨_⟩⟩ ⟨⟨_⟩, _, _, ⟨_⟩⟩ hview
  simp only [Trade.todayFields, Prod.mk.injEq, List.cons.injEq, FieldValue.uuid.injEq,
    FieldValue.text.injEq, FieldValue.discriminant.injEq, FieldValue.decimal.injEq,
    FieldValue.time.injEq, OrderSide.ctorIdx_inj] at hview
  simp [Trade.eraseToday, hview]

theorem erase_crossReferenceTrades_eq (hi : c.inputs.SameHashed d.inputs)
    (h : ∀ f : MissingField, f.Agree c d) :
    c.inputs.crossReferenceTrades.map Trade.eraseReference =
      d.inputs.crossReferenceTrades.map Trade.eraseReference := by
  refine map_eq_of_map_eq ?_ (map_pair_eq hi.crossReferenceTrades
    (map_pair_eq (h .referenceSide) (h .referenceExecutedAt)))
  rintro ⟨⟨_⟩, _, ⟨_⟩, ⟨_⟩⟩ ⟨⟨_⟩, _, ⟨_⟩, ⟨_⟩⟩ hview
  simp only [Trade.referenceFields, Prod.mk.injEq, List.cons.injEq, FieldValue.uuid.injEq,
    FieldValue.text.injEq, FieldValue.decimal.injEq] at hview
  simp [Trade.eraseReference, hview]

theorem erase_pendingOrder_eq (hi : c.inputs.SameHashed d.inputs)
    (h : ∀ f : MissingField, f.Agree c d) :
    c.inputs.pendingOrder.map Order.erase = d.inputs.pendingOrder.map Order.erase := by
  refine optionMap_eq_of_map_eq ?_ (optionMap_pair_eq hi.pendingOrder (optionMap_pair_eq
    (optionMap_pair_eq (h .orderKind) (h .orderType)) (optionMap_pair_eq (h .orderStopLoss)
      (optionMap_pair_eq (h .orderTakeProfit) (h .orderAvgFillPrice)))))
  rintro ⟨⟨_⟩, _, ⟨_⟩⟩ ⟨⟨_⟩, _, ⟨_⟩⟩ hview
  simp only [Order.hashedFields, Prod.mk.injEq, List.cons.injEq, FieldValue.uuid.injEq,
    FieldValue.text.injEq, FieldValue.discriminant.injEq, FieldValue.decimal.injEq,
    FieldValue.time.injEq, OrderSide.ctorIdx_inj] at hview
  simp [Order.erase, hview]

theorem erase_latestTrade_eq (hi : c.inputs.SameHashed d.inputs)
    (h : ∀ f : MissingField, f.Agree c d) :
    c.inputs.latestTrade.map Trade.eraseLatest = d.inputs.latestTrade.map Trade.eraseLatest := by
  refine optionMap_eq_of_map_eq ?_ (optionMap_pair_eq hi.latestTrade (optionMap_pair_eq
    (optionMap_pair_eq (h .latestAccountId) (h .latestSymbol)) (optionMap_pair_eq
      (optionMap_pair_eq (h .latestSide) (h .latestQuantity))
      (optionMap_pair_eq (h .latestTradeSide) (h .latestExitInfo)))))
  rintro ⟨⟨_⟩⟩ ⟨⟨_⟩⟩ hview
  simp only [Trade.latestFields, Prod.mk.injEq, List.cons.injEq, FieldValue.uuid.injEq,
    FieldValue.time.injEq] at hview
  simp [Trade.eraseLatest, hview]

/-- The context of a call, up to what no rule reads, is determined by the values fed to the hasher
and the missing fields. -/
theorem erase_context_eq (hfields : c.fields = d.fields) (h : ∀ f : MissingField, f.Agree c d)
    (draws draws' : EvaluateDraws) : (c.context draws).erase = (d.context draws').erase := by
  obtain ⟨haccount, hplan, hkind, htime, hi⟩ := inputFields_inj hfields
  have herase := erase_account_eq haccount (erase_plan_eq hplan h) h
  have hinput : (c.context draws).equityInput = (d.context draws').equityInput := by
    have hequity := congrArg Account.equity herase
    have hbalance := congrArg Account.balance herase
    simp only [Account.erase] at hequity hbalance
    simp only [Call.context, Pure.context, hi.equitySource, hequity, hbalance]
  simp only [RuleContext.erase, hinput]
  simp only [Call.context, Pure.context, RuleContext.new, herase, hkind, htime,
    erase_openPositions_eq hi h, erase_todayTrades_eq hi h, erase_crossReferenceTrades_eq hi h,
    erase_pendingOrder_eq hi h, erase_latestTrade_eq hi h]
  rfl

end Determined

/-! ## Agreement determines the decision -/

/-- The reports of two contexts of one erasure differ in their texts only. -/
theorem shape_of_erase_eq {ctx ctx' : RuleContext} (h : ctx.erase = ctx'.erase)
    (plan : ChallengePlan) (now now' : Timestamp) :
    ((RuleRegistry.withDefaultRulesForPlan plan).evaluate ctx now).map RuleReport.shape =
      ((RuleRegistry.withDefaultRulesForPlan plan).evaluate ctx' now').map RuleReport.shape := by
  have hkind := congrArg RuleContext.kind h
  simp only [RuleContext.erase] at hkind
  have hruns : ∀ r ∈ defaultRules, plan.runs ctx r = plan.runs ctx' r := by
    intro r hr
    have henabled : r.isEnabled ctx = r.isEnabled ctx' := by
      rw [← isEnabled_erase hr ctx, h, isEnabled_erase hr ctx']
    simp [ChallengePlan.runs, Rule.runsIn, StdRule.toRule, henabled, hkind]
  have hshape : ∀ r ∈ defaultRules,
      (r.toRule.report ctx now).shape = (r.toRule.report ctx' now').shape := by
    intro r hr
    have houtcome : r.outcome ctx = r.outcome ctx' := by
      rw [StdRule.outcome, ← judge_erase hr ctx, h, judge_erase hr ctx', StdRule.outcome]
    simp only [RuleReport.shape, Rule.report, toRule_verdict_outcome (defaultRules_params hr),
      houtcome]
  rw [withDefaultRulesForPlan_evaluate, withDefaultRulesForPlan_evaluate, List.filter_congr hruns,
    List.map_map, List.map_map]
  exact List.map_congr_left fun r hr => hshape r (List.mem_of_mem_filter hr)

end Pure

end Propfirm
