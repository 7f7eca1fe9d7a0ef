import Propfirm.Rules.Lemmas.Registry

/-!
# When the loss rules find a breach

Each loss rule compares an amount with a limit, in two steps: past the limit and its tolerance it
liquidates, and near the limit it gives an early warning.
-/

namespace Propfirm

open Fallible

variable {params : Option RuleParams} {ctx : RuleContext} {equity balance : Money}

/-! ## Verdicts of a rule -/

def StdRule.Liquidates (rule : StdRule) (ctx : RuleContext) : Prop :=
  (rule.evaluate ctx).map Verdict.decisionKind = .ok .liquidate

def StdRule.WarnsEarly (rule : StdRule) (ctx : RuleContext) : Prop :=
  (rule.evaluate ctx).map Verdict.decisionKind = .ok .earlyWarning

def StdRule.Fails (rule : StdRule) (ctx : RuleContext) : Prop :=
  (rule.evaluate ctx).map Verdict.decisionKind = .ok .fail

theorem StdRule.liquidates_iff_judge {rule : StdRule} :
    rule.Liquidates ctx ↔ ∃ f, rule.judge ctx = .ok (.liquidate f) := by
  rw [Liquidates, evaluate_decisionKind, map_eq_ok]
  constructor
  · rintro ⟨verdict, hjudge, hkind⟩
    cases verdict with
    | liquidate f => exact ⟨f, hjudge⟩
    | _ => cases hkind
  · rintro ⟨f, hjudge⟩
    exact ⟨_, hjudge, rfl⟩

theorem StdRule.fails_iff_judge {rule : StdRule} : rule.Fails ctx ↔ ∃ f, rule.judge ctx = .ok (.fail f) := by
  rw [Fails, evaluate_decisionKind, map_eq_ok]
  constructor
  · rintro ⟨verdict, hjudge, hkind⟩
    cases verdict with
    | fail f => exact ⟨f, hjudge⟩
    | _ => cases hkind
  · rintro ⟨f, hjudge⟩
    exact ⟨_, hjudge, rfl⟩

/-- The class of the verdict of a rule with a limit. -/
def limitKind (breach near : Prop) [Decidable breach] [Decidable near] : DecisionKind :=
  if breach then .liquidate else if near then .earlyWarning else .pass

section LimitKind

variable {breach near : Prop} [Decidable breach] [Decidable near] {f g : Finding}

theorem limitKind_eq_liquidate : limitKind breach near = .liquidate ↔ breach := by
  unfold limitKind
  by_cases hbreach : breach
  · simp [hbreach]
  · by_cases hnear : near <;> simp [hbreach, hnear]

theorem limitKind_ne_warn : limitKind breach near ≠ .warn := by
  unfold limitKind
  by_cases hbreach : breach
  · simp [hbreach]
  · by_cases hnear : near <;> simp [hbreach, hnear]

theorem map_decisionKind_ite :
    (if breach then .ok (.liquidate f) else if near then .ok (.earlyWarning g) else .ok .pass :
      Outcome (Verdict Finding)).map Verdict.decisionKind = .ok (limitKind breach near) := by
  unfold limitKind
  by_cases hbreach : breach
  · simp [hbreach, Except.map, Verdict.decisionKind]
  · by_cases hnear : near <;> simp [hbreach, hnear, Except.map, Verdict.decisionKind]

end LimitKind

/-- Both classes are on the ladder, and the second is no lower. -/
def NoMilder (ladder : List DecisionKind) (kind kind' : DecisionKind) : Prop :=
  kind ∈ ladder ∧ kind' ∈ ladder ∧ ladder.idxOf kind ≤ ladder.idxOf kind'

instance (ladder : List DecisionKind) (kind kind' : DecisionKind) : Decidable (NoMilder ladder kind kind') :=
  inferInstanceAs (Decidable (_ ∧ _ ∧ _))

/-- Of two judgements on a ladder of three, the one that takes every step the other takes is no lower. -/
theorem ladder_noMilder {low mid high : DecisionKind} (hdistinct : [low, mid, high].Nodup)
    {top step top' step' : Prop} [Decidable top] [Decidable step] [Decidable top'] [Decidable step']
    (htop : top → top') (hstep : step → step') :
    NoMilder [low, mid, high] (if top then high else if step then mid else low)
      (if top' then high else if step' then mid else low) := by
  simp only [List.nodup_cons, List.mem_cons, List.not_mem_nil, or_false, not_or, not_false_eq_true,
    and_true, List.nodup_nil] at hdistinct
  obtain ⟨⟨hmid, hhigh⟩, hhigh'⟩ := hdistinct
  have hone : [low, mid, high].idxOf mid = 1 := by simp [hmid]
  have htwo : [low, mid, high].idxOf high = 2 := by simp [hhigh, hhigh']
  by_cases ht : top
  · rw [if_pos ht, if_pos (htop ht)]
    simp [NoMilder]
  · rw [if_neg ht]
    by_cases hs : step
    · rw [if_pos hs, if_pos (hstep hs)]
      split <;> simp [NoMilder, hone, htwo]
    · rw [if_neg hs]
      split
      · simp [NoMilder]
      · split <;> simp [NoMilder]

theorem limitKind_noMilder {breach near breach' near' : Prop} [Decidable breach] [Decidable near]
    [Decidable breach'] [Decidable near'] (hbreach : breach → breach') (hnear : near → near') :
    NoMilder [.pass, .earlyWarning, .liquidate] (limitKind breach near) (limitKind breach' near') :=
  ladder_noMilder (by decide) hbreach hnear

/-- The rule judges both contexts, and the second no milder than the first. -/
def StdRule.NoMilder (rule : StdRule) (ladder : List DecisionKind) (ctx ctx' : RuleContext) : Prop :=
  ∃ kind kind', (rule.evaluate ctx).map Verdict.decisionKind = .ok kind ∧
    (rule.evaluate ctx').map Verdict.decisionKind = .ok kind' ∧ Propfirm.NoMilder ladder kind kind'

/-! ## Accounts whose equity the broker vouches for -/

/-- A started account, with the equity that the broker reports. -/
structure RuleContext.Reports (ctx : RuleContext) (equity : Money) : Prop where
  started : ctx.account.startedAt.isSome
  brokerEquity : ctx.requireBrokerEquity = .ok equity

theorem RuleContext.Reports.of_input (hstarted : ctx.account.startedAt.isSome)
    (hinput : ctx.equityInput = .brokerReported equity balance) : ctx.Reports equity :=
  ⟨hstarted, by simp [RuleContext.requireBrokerEquity, hinput, EquityInput.brokerEquity]⟩

theorem withBrokerEquity_eq {k : Money → Outcome (Verdict Finding)} (h : ctx.Reports equity) :
    withBrokerEquity ctx k = k equity := by
  simp only [withBrokerEquity, RuleContext.requireStarted, h.started, if_true, h.brokerEquity]

/-- Without a start there is nothing but the report of the gap. -/
theorem withBrokerEquity_not_started {k : Money → Outcome (Verdict Finding)}
    (h : ¬ctx.account.startedAt.isSome) :
    (withBrokerEquity ctx k).map Verdict.decisionKind = .ok .gapFlagged := by
  simp only [withBrokerEquity, RuleContext.requireStarted, h]
  rfl

theorem RuleContext.Reports.equityInput_eq (h : ctx.Reports equity) :
    ctx.equityInput.brokerEquity = some equity := by
  have hequity := h.brokerEquity
  unfold RuleContext.requireBrokerEquity at hequity
  cases hinput : ctx.equityInput.brokerEquity with
  | none => rw [hinput] at hequity; cases hequity
  | some x => rw [hinput] at hequity; rw [Except.ok.inj hequity]

/-- A finding other than the gap has the broker's equity behind it. -/
theorem withBrokerEquity_reports {k : Money → Outcome (Verdict Finding)} {kind : DecisionKind}
    (h : (withBrokerEquity ctx k).map Verdict.decisionKind = .ok kind) (hkind : kind ≠ .gapFlagged) :
    ∃ equity, ctx.Reports equity := by
  by_cases hstarted : ctx.account.startedAt.isSome
  · cases hequity : ctx.requireBrokerEquity with
    | ok equity => exact ⟨equity, hstarted, hequity⟩
    | error msg =>
        simp only [withBrokerEquity, RuleContext.requireStarted, hstarted, if_true, hequity] at h
        exact absurd (Except.ok.inj h).symm hkind
  · rw [withBrokerEquity_not_started hstarted] at h
    exact absurd (Except.ok.inj h).symm hkind

/-- So has one of a rule that passes when its percentage is not positive. -/
theorem gated_reports {k : Money → Outcome (Verdict Finding)} {kind : DecisionKind} {pct : Decimal}
    (h : (if pct ≤ 0 then .ok .pass else withBrokerEquity ctx k).map Verdict.decisionKind = .ok kind)
    (hkind : kind ≠ .pass ∧ kind ≠ .gapFlagged) : 0 < pct ∧ ∃ equity, ctx.Reports equity := by
  by_cases hpct : pct ≤ 0
  · rw [if_pos hpct] at h
    exact absurd (Except.ok.inj h).symm hkind.1
  · rw [if_neg hpct] at h
    exact ⟨not_le.mp hpct, withBrokerEquity_reports h hkind.2⟩

theorem gated_off {k : Money → Outcome (Verdict Finding)} {pct : Decimal} (hpct : pct ≤ 0) :
    (if pct ≤ 0 then .ok .pass else withBrokerEquity ctx k).map Verdict.decisionKind = .ok .pass := by
  rw [if_pos hpct]
  rfl

/-- What a drawdown is measured on, under a plan that looks at balances or at equity. -/
def Account.measured (a : Account) (equity : Money) : Money :=
  if a.plan.drawdownOnBalance then a.balance else equity

/-- The value drawdowns are taken of. -/
def Account.current (a : Account) : Money := if a.plan.drawdownOnBalance then a.balance else a.equity

def Account.dayStart (a : Account) : Money :=
  if a.plan.drawdownOnBalance then a.dayStartBalance else a.dayStartEquity

def Account.intradayPeak (a : Account) : Money :=
  if a.plan.drawdownOnBalance then a.peakBalance else a.intradayPeakEquity

/-- The share of a limit at which an early warning is due. -/
def warnFraction (params : Option RuleParams) : Decimal :=
  (params.bind RuleParams.earlyWarningPct).getD (8 / 10)

/-- The context with another equity, which the broker reports. -/
def RuleContext.atEquity (ctx : RuleContext) (equity balance : Money) : RuleContext :=
  { ctx with account := { ctx.account with equity }, equityInput := .brokerReported equity balance }

theorem RuleContext.atEquity_reports (h : ctx.account.startedAt.isSome) :
    (ctx.atEquity equity balance).Reports equity :=
  .of_input h rfl

/-! ## Maximum drawdown -/

namespace MaxDrawdownRule

def effectiveFloorWith (arith : Arithmetic) (params : Option RuleParams) (ctx : RuleContext) : Money :=
  floorWith arith (effectiveBasis params ctx) (effectivePctWith arith params ctx) ctx.account

def effectiveFloor (params : Option RuleParams) (ctx : RuleContext) : Money :=
  floor (effectiveBasis params ctx) (effectivePct params ctx) ctx.account

def effectiveReference (params : Option RuleParams) (ctx : RuleContext) : Money :=
  reference (effectiveBasis params ctx) ctx.account

variable {arith : Arithmetic}

theorem evaluateWith_kind (h : ctx.Reports equity) (hpct : 0 < effectivePctWith arith params ctx) :
    ((maxDrawdownRuleWith arith params).evaluate ctx).map Verdict.decisionKind =
      .ok (limitKind
        (ctx.account.measured equity <
          arith.sub (effectiveFloorWith arith params ctx) (toleranceMoney (toleranceCents params)))
        (ctx.account.measured equity ≤ arith.add (effectiveFloorWith arith params ctx)
          (arith.mul (max (arith.sub (effectiveReference params ctx) (effectiveFloorWith arith params ctx)) 0)
            (warnFraction params)))) := by
  rw [StdRule.evaluate_decisionKind]
  change (judgeWith arith params ctx).map _ = _
  unfold judgeWith
  dsimp only
  rw [if_neg (not_le.mpr hpct), withBrokerEquity_eq h]
  exact map_decisionKind_ite

theorem liquidatesWith_iff (h : ctx.Reports equity) :
    (maxDrawdownRuleWith arith params).Liquidates ctx ↔
      0 < effectivePctWith arith params ctx ∧
        ctx.account.measured equity <
          arith.sub (effectiveFloorWith arith params ctx) (toleranceMoney (toleranceCents params)) := by
  by_cases hpct : 0 < effectivePctWith arith params ctx
  · rw [StdRule.Liquidates, evaluateWith_kind h hpct, Except.ok.injEq, and_iff_right hpct]
    exact limitKind_eq_liquidate
  · refine iff_of_false (fun hl => ?_) fun hc => hpct hc.1
    rw [StdRule.Liquidates, StdRule.evaluate_decisionKind] at hl
    cases hl.symm.trans (gated_off (not_lt.mp hpct))

theorem evaluate_kind (h : ctx.Reports equity) (hpct : 0 < effectivePct params ctx) :
    ((maxDrawdownRule params).evaluate ctx).map Verdict.decisionKind =
      .ok (limitKind
        (ctx.account.measured equity <
          effectiveFloor params ctx - toleranceMoney (toleranceCents params))
        (ctx.account.measured equity ≤ effectiveFloor params ctx +
          max (effectiveReference params ctx - effectiveFloor params ctx) 0 * warnFraction params)) :=
  evaluateWith_kind h hpct

/-- A rule without a limit passes. -/
theorem evaluate_kind_off (hpct : effectivePct params ctx ≤ 0) :
    ((maxDrawdownRule params).evaluate ctx).map Verdict.decisionKind = .ok .pass := by
  rw [StdRule.evaluate_decisionKind]
  exact gated_off hpct

theorem reports_of_kind {kind : DecisionKind}
    (h : ((maxDrawdownRule params).evaluate ctx).map Verdict.decisionKind = .ok kind)
    (hkind : kind ≠ .pass ∧ kind ≠ .gapFlagged) :
    0 < effectivePct params ctx ∧ ∃ equity, ctx.Reports equity := by
  rw [StdRule.evaluate_decisionKind] at h
  exact gated_reports h hkind

theorem liquidates_iff (h : ctx.Reports equity) (hpct : 0 < effectivePct params ctx) :
    (maxDrawdownRule params).Liquidates ctx ↔
      ctx.account.measured equity <
        effectiveFloor params ctx - toleranceMoney (toleranceCents params) := by
  rw [StdRule.Liquidates, evaluate_kind h hpct, Except.ok.injEq]
  exact limitKind_eq_liquidate

end MaxDrawdownRule

/-! ## Daily drawdown -/

namespace DailyDrawdownRule

variable {reference dd : Money}

def effectiveLimit (params : Option RuleParams) (ctx : RuleContext) (reference : Money) : Money :=
  effectivePct params ctx * reference

/-- Near the limit the share of it that is used is written into the record, and a limit of zero has no
shares. -/
theorem evaluate_kind (h : ctx.Reports equity) (hpct : 0 < effectivePct params ctx)
    (href : referenceAndLoss ctx.account = some (reference, dd)) :
    ((dailyDrawdownRule params).evaluate ctx).map Verdict.decisionKind =
      if effectiveLimit params ctx reference + toleranceMoney (toleranceCents params) < dd then
        .ok (if ctx.account.plan.dailyLossSoft then .earlyWarning else .liquidate)
      else if effectiveLimit params ctx reference * warnFraction params ≤ dd then
        if reference = 0 then panicWith "Division by zero" else .ok .earlyWarning
      else .ok .pass := by
  rw [StdRule.evaluate_decisionKind]
  change (judge params ctx).map _ = _
  unfold judge
  dsimp only
  rw [if_neg (not_le.mpr hpct), withBrokerEquity_eq h, href]
  dsimp only
  unfold effectiveLimit warnFraction
  by_cases hbreach : effectivePct params ctx * reference + toleranceMoney (toleranceCents params) < dd
  · rw [if_pos hbreach, if_pos hbreach]
    cases ctx.account.plan.dailyLossSoft <;> rfl
  · rw [if_neg hbreach, if_neg hbreach]
    split
    · by_cases hzero : reference = 0
      · rw [if_pos hzero, Decimal.div, if_pos (by rw [hzero, mul_zero])]
        rfl
      · rw [if_neg hzero, Decimal.div, if_neg (mul_ne_zero hpct.ne' hzero)]
        rfl
    · rfl

theorem evaluate_kind_off (hpct : effectivePct params ctx ≤ 0) :
    ((dailyDrawdownRule params).evaluate ctx).map Verdict.decisionKind = .ok .pass := by
  rw [StdRule.evaluate_decisionKind]
  exact gated_off hpct

theorem reports_of_kind {kind : DecisionKind}
    (h : ((dailyDrawdownRule params).evaluate ctx).map Verdict.decisionKind = .ok kind)
    (hkind : kind ≠ .pass ∧ kind ≠ .gapFlagged) :
    0 < effectivePct params ctx ∧ ∃ equity, ctx.Reports equity := by
  rw [StdRule.evaluate_decisionKind] at h
  exact gated_reports h hkind

theorem liquidates_iff (h : ctx.Reports equity) (hpct : 0 < effectivePct params ctx)
    (href : referenceAndLoss ctx.account = some (reference, dd)) :
    (dailyDrawdownRule params).Liquidates ctx ↔
      ctx.account.plan.dailyLossSoft = false ∧
        effectiveLimit params ctx reference + toleranceMoney (toleranceCents params) < dd := by
  rw [StdRule.Liquidates, evaluate_kind h hpct href]
  split
  · rename_i hbreach
    cases ctx.account.plan.dailyLossSoft <;> simp [hbreach]
  · rename_i hbreach
    refine iff_of_false (fun heq => ?_) fun hc => hbreach hc.2
    split at heq
    · split at heq <;> cases heq
    · cases heq

/-- A plan without a daily loss rule gives the rule nothing to measure. -/
theorem evaluate_kind_none (h : ctx.Reports equity) (hpct : 0 < effectivePct params ctx)
    (href : referenceAndLoss ctx.account = none) :
    ((dailyDrawdownRule params).evaluate ctx).map Verdict.decisionKind = .ok .pass := by
  rw [StdRule.evaluate_decisionKind]
  change (judge params ctx).map _ = _
  unfold judge
  dsimp only
  rw [if_neg (not_le.mpr hpct), withBrokerEquity_eq h, href]
  rfl

end DailyDrawdownRule

/-! ## Trailing drawdown -/

namespace TrailingDrawdownRule

variable {trail : Money}

theorem evaluate_kind (h : ctx.Reports equity) (htrail : effectiveTrailMoney params ctx = some trail) :
    ((trailingDrawdownRule params).evaluate ctx).map Verdict.decisionKind =
      .ok (limitKind (equity < ctx.account.peakEquity - trail)
        (equity < ctx.account.peakEquity - trail + trail * (2 / 10))) := by
  rw [StdRule.evaluate_decisionKind]
  change (judge params ctx).map _ = _
  unfold judge
  rw [htrail]
  dsimp only
  rw [withBrokerEquity_eq h]
  exact map_decisionKind_ite

theorem evaluate_kind_off (htrail : effectiveTrailMoney params ctx = none) :
    ((trailingDrawdownRule params).evaluate ctx).map Verdict.decisionKind = .ok .pass := by
  rw [StdRule.evaluate_decisionKind]
  change (judge params ctx).map _ = _
  unfold judge
  rw [htrail]
  rfl

theorem reports_of_kind {kind : DecisionKind}
    (h : ((trailingDrawdownRule params).evaluate ctx).map Verdict.decisionKind = .ok kind)
    (hkind : kind ≠ .pass ∧ kind ≠ .gapFlagged) :
    ∃ trail equity, effectiveTrailMoney params ctx = some trail ∧ ctx.Reports equity := by
  rw [StdRule.evaluate_decisionKind] at h
  change (judge params ctx).map _ = _ at h
  unfold judge at h
  cases htrail : effectiveTrailMoney params ctx with
  | none =>
      rw [htrail] at h
      exact absurd (Except.ok.inj h).symm hkind.1
  | some trail =>
      rw [htrail] at h
      obtain ⟨equity, hreports⟩ := withBrokerEquity_reports h hkind.2
      exact ⟨trail, equity, rfl, hreports⟩

theorem liquidates_iff (h : ctx.Reports equity) (htrail : effectiveTrailMoney params ctx = some trail) :
    (trailingDrawdownRule params).Liquidates ctx ↔ equity < ctx.account.peakEquity - trail := by
  rw [StdRule.Liquidates, evaluate_kind h htrail, Except.ok.injEq]
  exact limitKind_eq_liquidate

end TrailingDrawdownRule

/-! ## Loss of a single trade -/

theorem PerTradeMaxLossRule.exceeded_of_kind {kind : DecisionKind}
    (h : ((perTradeMaxLossRule params).evaluate ctx).map Verdict.decisionKind = .ok kind)
    (hkind : kind = .liquidate ∨ kind = .warn) :
    ∃ loss maxLoss, ctx.latestTrade.bind exitLoss = some loss ∧
      effectiveLimitMoney params ctx = some maxLoss ∧
      maxLoss + toleranceMoney ((params.bind RuleParams.toleranceCents).getD 1) < loss := by
  rw [StdRule.evaluate_decisionKind] at h
  change (judge params ctx).map _ = _ at h
  unfold judge at h
  cases hloss : ctx.latestTrade.bind exitLoss with
  | none =>
      rw [hloss] at h
      cases h
      simp [Verdict.decisionKind] at hkind
  | some loss =>
      cases hlimit : effectiveLimitMoney params ctx with
      | none =>
          rw [hloss] at h
          simp only [hlimit] at h
          cases h
          simp [Verdict.decisionKind] at hkind
      | some maxLoss =>
          refine ⟨loss, maxLoss, rfl, rfl, ?_⟩
          by_contra hno
          rw [hloss] at h
          simp only [hlimit] at h
          rw [if_neg hno] at h
          split at h <;> cases h <;> simp [Verdict.decisionKind] at hkind

end Propfirm
