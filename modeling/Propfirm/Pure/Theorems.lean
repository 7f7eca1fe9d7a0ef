import Propfirm.Pure.Lemmas.Agreement

/-!
# What the input hash of a verdict covers
-/

namespace Propfirm

/-! ## The variable part -/

/-- What is fed to the hasher once the kind of the context is. -/
def fieldsAfterKind (account : Account) (pack : RulePack) (ctxKind : RuleContextKind)
    (serverTime : Timestamp) (inputs : EvaluateInputs) : List FieldValue :=
  (inputFields account pack ctxKind serverTime inputs).drop
    (account.hashedFields.length + account.plan.hashedFields.length + 3)

theorem fieldsAfterKind_eq {a : Account} {p : RulePack} {k : RuleContextKind} {s : Timestamp}
    {i : EvaluateInputs} : fieldsAfterKind a p k s i = i.hashedFields := by
  refine List.drop_left' ?_
  simp only [List.length_append, List.length_cons, List.length_nil]

/-- Without lengths and tags, what follows the kind of the context is still read back part by part. -/
theorem fields_after_kind_decode {a b : Account} {p q : RulePack} {k l : RuleContextKind} {s t : Timestamp}
    {i j : EvaluateInputs} (h : fieldsAfterKind a p k s i = fieldsAfterKind b q l t j) :
    i.SameHashed j := by
  rw [fieldsAfterKind_eq, fieldsAfterKind_eq] at h
  exact EvaluateInputs.sameHashed h

/-- A position as it is hashed does not show when it was opened. -/
theorem fields_after_kind_decode_positions :
    EvaluateInputs.SameHashed
      { EvaluateInputs.default with
        openPositions := [.open ⟨1⟩ ⟨1⟩ ⟨"EURUSD"⟩ .long 1 1 0 0, .open ⟨2⟩ ⟨1⟩ ⟨"EURUSD"⟩ .long 1 1 0 0] }
      { EvaluateInputs.default with
        openPositions := [.open ⟨1⟩ ⟨1⟩ ⟨"EURUSD"⟩ .long 1 1 5 0, .open ⟨2⟩ ⟨1⟩ ⟨"EURUSD"⟩ .long 1 1 5 0] } :=
  fields_after_kind_decode (a := .new ⟨1⟩ ⟨1⟩ (.default ⟨1⟩ 0)) (b := .new ⟨1⟩ ⟨1⟩ (.default ⟨1⟩ 0))
    (p := ⟨"plan", 1, ""⟩) (q := ⟨"plan", 1, ""⟩) (k := .onDemand) (l := .onDemand) (s := 0) (t := 0)
    (by decide +kernel)

end Propfirm

namespace Propfirm.Pure

/-! ## What is left out -/

/-- Whatever identifiers and clock readings they draw, two calls decide alike: the same kind, the same
winning priority and violations of the same rules. -/
def DecideAlike (registry : RuleRegistry) (c d : Call) : Prop :=
  ∀ digest draws draws', (c.evaluate digest draws registry).decision.shape =
    (d.evaluate digest draws' registry).decision.shape

theorem decideAlike_of_agree {c d : Call} (hfields : c.fields = d.fields)
    (h : ∀ f : MissingField, f.Agree c d) (plan : ChallengePlan) :
    DecideAlike (.withDefaultRulesForPlan plan) c d := fun _ draws draws' =>
  Decision.shape_congr (shape_of_erase_eq (erase_context_eq hfields h draws draws') plan _ _)

/-! ## One pair of calls for each missing field -/

namespace Sample

def plan : ChallengePlan := .default ⟨1⟩ 0

def account (plan : ChallengePlan) : Account :=
  { Account.new ⟨1⟩ ⟨1⟩ plan with status := .active, startedAt := some 0 }

def inputs : EvaluateInputs := { EvaluateInputs.default with equitySource := .brokerReported }

def call (account : Account) (inputs : EvaluateInputs) : Call :=
  ⟨account, ⟨"plan", 1, ""⟩, .onDemand, 0, inputs⟩

def order : Order where
  id := ⟨1⟩
  accountId := ⟨1⟩
  symbol := ⟨"EURUSD"⟩
  side := .buy
  kind := .open
  orderType := .market
  quantity := 1
  stopLoss := none
  takeProfit := none
  submittedAt := 0
  avgFillPrice := none

def fill (accountId : AccountId) (tradeSide : TradeSide) (quantity : Quantity) : Trade where
  id := ⟨1⟩
  orderId := ⟨1⟩
  accountId
  symbol := ⟨"EURUSD"⟩
  side := .buy
  tradeSide
  price := 1
  quantity
  commission := 0
  swap := 0
  executedAt := 0
  exitInfo := none

def lostExit (loss : Money) : TradeExit := ⟨⟨1⟩, -loss, 1, 1, 1⟩

def position : Position := .open ⟨1⟩ ⟨1⟩ ⟨"EURUSD"⟩ .long 1 1 0 0

def zone (offset : Duration) : Tz where
  name := "fixed"
  offset := fun _ => offset
  fromLocal := fun local_ => some (local_ - offset)

def afterTwoExits (exit : Trade) : EvaluateInputs :=
  { inputs with
    pendingOrder := some order
    todayTrades := [exit, exit, fill ⟨1⟩ .entry 2] }

def mirrored : EvaluateInputs :=
  { inputs with
    latestTrade := some (fill ⟨1⟩ .entry 1)
    crossReferenceTrades := [fill ⟨2⟩ .entry 1] }

def hedged : Call :=
  call
    { account { plan with crossAccountHedgingProhibited := true } with openPositions := [position] }
    { inputs with crossReferenceTrades := [{ fill ⟨2⟩ .entry 1 with side := .sell }] }

def cappedLoss : Call :=
  call (account { plan with perTradeMaxLossMoney := some 10 })
    { inputs with latestTrade := some { fill ⟨1⟩ .exit 1 with exitInfo := some (lostExit 100) } }

end Sample

open Sample

/-- A call whose decision depends on the field. -/
def MissingField.sample : MissingField → Call
  | .initialBalance | .deadline | .startedAt => call (account plan) inputs
  | .intradayPeakEquity =>
      call (account { plan with dailyLossType := .trailingIntradayHigh }) inputs
  | .profitableDaysCount | .minProfitableDays =>
      call (account { plan with minProfitableDays := some 3 }) inputs
  | .qualifyingTradingDaysCount =>
      call (account { plan with qualifyingDayThresholdPct := some (1 / 100) }) inputs
  | .qualifyingDayThresholdPct | .qualifyingDayPnlBandPct =>
      call { account plan with activeTradingDays := 3 } inputs
  | .openPositions | .crossAccountHedgingProhibited | .referenceSide => hedged
  | .dailyLossType | .dailyLossSoft => call { account plan with equity := 9000 } inputs
  | .consistencyType =>
      call
        { account plan with
          largestDayProfit := 100, sumPositiveDaysProfit := 150, totalRealizedPnl := 1000 } inputs
  | .consistencyAppliesOnFundedStage =>
      call
        { account { plan with phase := .funded, consistencyAppliesOnFundedStage := true } with
          largestDayProfit := 100, sumPositiveDaysProfit := 150 } inputs
  | .eodTrailLocksAtStart =>
      call
        { account { plan with maxLossReference := .eodTrailing } with
          dayStartBalance := 12000, equity := 10500 } inputs
  | .lowcapExposureLimitPct =>
      call (account { plan with lowcapExposureLimitPct := some (-1) }) inputs
  | .timezone =>
      call (account { plan with tradingHours := some (0, 2), timezone := some (zone 0) })
        { inputs with pendingOrder := some order }
  | .positionStatus =>
      call (account { plan with maxOpenPositions := some 1 })
        { inputs with pendingOrder := some order, openPositions := [position] }
  | .todayTradeSide =>
      call (account { plan with hftBanEnabled := true })
        { inputs with
          latestTrade := some (fill ⟨1⟩ .exit 1), todayTrades := [fill ⟨1⟩ .entry 1] }
  | .todayExitInfo =>
      call (account { plan with gridTradingAllowed := false })
        (afterTwoExits { fill ⟨1⟩ .exit 1 with exitInfo := some (lostExit 1) })
  | .todayCommission =>
      call (account { plan with gridTradingAllowed := false })
        (afterTwoExits { fill ⟨1⟩ .exit 1 with commission := 1 })
  | .todaySwap =>
      call (account { plan with gridTradingAllowed := false })
        (afterTwoExits { fill ⟨1⟩ .exit 1 with swap := 1 })
  | .orderKind | .orderStopLoss =>
      call (account { plan with requireStopLoss := true }) { inputs with pendingOrder := some order }
  | .orderTakeProfit =>
      call (account { plan with requireTakeProfit := true })
        { inputs with pendingOrder := some order }
  | .orderType | .orderAvgFillPrice =>
      call (account plan) { inputs with pendingOrder := some order }
  | .referenceExecutedAt | .latestAccountId | .latestSymbol | .latestSide | .latestQuantity =>
      call (account plan) mirrored
  | .latestTradeSide | .latestExitInfo => cappedLoss

namespace Call

def onAccount (f : Account → Account) (c : Call) : Call := { c with account := f c.account }

def onPlan (f : ChallengePlan → ChallengePlan) : Call → Call :=
  onAccount fun a => { a with plan := f a.plan }

def onInputs (f : EvaluateInputs → EvaluateInputs) (c : Call) : Call := { c with inputs := f c.inputs }

def onToday (f : Trade → Trade) : Call → Call :=
  onInputs fun i => { i with todayTrades := i.todayTrades.map f }

def onReferences (f : Trade → Trade) : Call → Call :=
  onInputs fun i => { i with crossReferenceTrades := i.crossReferenceTrades.map f }

def onOrder (f : Order → Order) : Call → Call :=
  onInputs fun i => { i with pendingOrder := i.pendingOrder.map f }

def onLatest (f : Trade → Trade) : Call → Call :=
  onInputs fun i => { i with latestTrade := i.latestTrade.map f }

end Call

/-- Another value for the field, and for no other. -/
def MissingField.alter : MissingField → Call → Call
  | .initialBalance => .onAccount fun a => { a with initialBalance := 9000 }
  | .intradayPeakEquity => .onAccount fun a => { a with intradayPeakEquity := 11000 }
  | .startedAt => .onAccount fun a => { a with startedAt := none }
  | .deadline => .onAccount fun a => { a with deadline := some (-1) }
  | .profitableDaysCount => .onAccount fun a => { a with profitableDaysCount := 3 }
  | .qualifyingTradingDaysCount => .onAccount fun a => { a with qualifyingTradingDaysCount := 3 }
  | .openPositions => .onAccount fun a => { a with openPositions := [] }
  | .dailyLossType => .onPlan fun p => { p with dailyLossType := .none }
  | .dailyLossSoft => .onPlan fun p => { p with dailyLossSoft := true }
  | .consistencyType => .onPlan fun p => { p with consistencyType := .bestDayPctOfTotal }
  | .eodTrailLocksAtStart => .onPlan fun p => { p with eodTrailLocksAtStart := true }
  | .minProfitableDays => .onPlan fun p => { p with minProfitableDays := none }
  | .crossAccountHedgingProhibited =>
      .onPlan fun p => { p with crossAccountHedgingProhibited := false }
  | .lowcapExposureLimitPct => .onPlan fun p => { p with lowcapExposureLimitPct := none }
  | .consistencyAppliesOnFundedStage =>
      .onPlan fun p => { p with consistencyAppliesOnFundedStage := false }
  | .qualifyingDayThresholdPct =>
      .onPlan fun p => { p with qualifyingDayThresholdPct := some (1 / 100) }
  | .qualifyingDayPnlBandPct => .onPlan fun p => { p with qualifyingDayPnlBandPct := some (1 / 100) }
  | .timezone => .onPlan fun p => { p with timezone := some (zone (Duration.hours 5)) }
  | .positionStatus =>
      .onInputs fun i =>
        { i with openPositions := i.openPositions.map fun p => { p with status := .closed } }
  | .todayTradeSide => .onToday fun t => { t with tradeSide := .exit }
  | .todayExitInfo => .onToday fun t => { t with exitInfo := none }
  | .todayCommission => .onToday fun t => { t with commission := 0 }
  | .todaySwap => .onToday fun t => { t with swap := 0 }
  | .referenceSide => .onReferences fun t => { t with side := .buy }
  | .referenceExecutedAt => .onReferences fun t => { t with executedAt := Duration.hours 1 }
  | .orderKind => .onOrder fun o => { o with kind := .reverse }
  | .orderType => .onOrder fun o => { o with orderType := .limit 10000000 }
  | .orderStopLoss => .onOrder fun o => { o with stopLoss := some 1 }
  | .orderTakeProfit => .onOrder fun o => { o with takeProfit := some 1 }
  | .orderAvgFillPrice => .onOrder fun o => { o with avgFillPrice := some 10000000 }
  | .latestAccountId => .onLatest fun t => { t with accountId := ⟨2⟩ }
  | .latestSymbol => .onLatest fun t => { t with symbol := ⟨"GBPUSD"⟩ }
  | .latestSide => .onLatest fun t => { t with side := .sell }
  | .latestQuantity => .onLatest fun t => { t with quantity := 5 }
  | .latestTradeSide => .onLatest fun t => { t with tradeSide := .entry }
  | .latestExitInfo => .onLatest fun t => { t with exitInfo := none }

theorem alter_fields (f : MissingField) : (f.alter f.sample).fields = f.sample.fields := by
  cases f <;> rfl

theorem alter_agree {f g : MissingField} (h : g ≠ f) : g.Agree (f.alter f.sample) f.sample := by
  cases f <;> cases g <;> first | exact absurd rfl h | rfl

def fixedDraws : EvaluateDraws := ⟨fun _ => ⟨0⟩, 0, 0⟩

theorem alter_decides (f : MissingField) :
    ((f.alter f.sample).evaluate (fun _ => "") fixedDraws
        (.withDefaultRulesForPlan f.sample.account.plan)).decision.shape ≠
      (f.sample.evaluate (fun _ => "") fixedDraws
        (.withDefaultRulesForPlan f.sample.account.plan)).decision.shape := by
  cases f <;> decide +kernel

/-! ## Coverage -/

/-- Calls of one input hash that agree on a set of the missing fields decide alike exactly when the
set holds all of them: together they are enough, and none can be left out. -/
theorem input_hash_covers_iff (s : Set MissingField) :
    (∀ (plan : ChallengePlan) (c d : Call), c.fields = d.fields → (∀ f ∈ s, f.Agree c d) →
      DecideAlike (.withDefaultRulesForPlan plan) c d) ↔ ∀ f, f ∈ s := by
  constructor
  · intro h f
    by_contra hf
    have hagree : ∀ g ∈ s, g.Agree (f.alter f.sample) f.sample := fun g hg =>
      alter_agree fun he => hf (he ▸ hg)
    exact alter_decides f (h f.sample.account.plan _ _ (alter_fields f) hagree _ _ _)
  · intro hall plan c d hfields hagree
    exact decideAlike_of_agree hfields (fun f => hagree f (hall f)) plan

/-- An account ten percent down on the day: under one input hash it is liquidated or only warned,
by whether its plan's daily limit is soft. -/
theorem input_hash_misses_soft_limit :
    (∀ digest, ((MissingField.dailyLossSoft.alter MissingField.dailyLossSoft.sample).evaluate digest
        fixedDraws (.withDefaultRulesForPlan plan)).inputHash =
      (MissingField.dailyLossSoft.sample.evaluate digest fixedDraws
        (.withDefaultRulesForPlan plan)).inputHash) ∧
    (MissingField.dailyLossSoft.sample.evaluate (fun _ => "") fixedDraws
      (.withDefaultRulesForPlan plan)).decision.kind = .liquidate ∧
    ((MissingField.dailyLossSoft.alter MissingField.dailyLossSoft.sample).evaluate (fun _ => "")
      fixedDraws (.withDefaultRulesForPlan plan)).decision.kind = .earlyWarning := by
  refine ⟨fun digest => congrArg digest (alter_fields .dailyLossSoft), ?_, ?_⟩
  · decide +kernel
  · decide +kernel

end Propfirm.Pure
