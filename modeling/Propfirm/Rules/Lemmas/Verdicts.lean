import Propfirm.Engine.Decision
import Propfirm.Lib.Fallible

/-!
# The verdicts each rule can return

One table says which classes a rule of the standard library can report, and each rule is shown to
keep to its entry, whatever its parameters and its context.
-/

namespace Propfirm

open Fallible

variable {params : Option RuleParams} {ctx : RuleContext}

def RuleName.verdictKinds : RuleName → List DecisionKind
  | .dailyDrawdown | .maxDrawdown | .trailingDrawdown =>
      [.pass, .gapFlagged, .liquidate, .earlyWarning]
  | .profitTarget => [.pass, .targetHit, .fail]
  | .perTradeMaxLoss => [.pass, .liquidate, .warn, .earlyWarning]
  | .minTradingDays | .minProfitableDays | .timeLimit | .inactivity | .overnightHolding
  | .weekendHolding | .maxPositionSize | .copyTrading => [.pass, .fail, .warn]
  | .newsTrading | .tradingHours | .maxOpenPositions | .maxDailyTrades | .maxTotalLots | .margin
  | .slRequired | .hedging => [.pass, .fail]
  | .consistency | .cooldown | .tpRequired | .gridTrading | .hftScalping | .crossAccountHedging
  | .lowcapExposure => [.pass, .warn]

def Within (kinds : List DecisionKind) (x : Outcome (Verdict Finding)) : Prop :=
  Post (fun v => v.decisionKind ∈ kinds) x

namespace Verdict

variable {ν : Type} {x : ν}

@[simp] theorem decisionKind_pass : (pass : Verdict ν).decisionKind = .pass := rfl
@[simp] theorem decisionKind_warn : (warn x).decisionKind = .warn := rfl
@[simp] theorem decisionKind_fail : (fail x).decisionKind = .fail := rfl
@[simp] theorem decisionKind_liquidate : (liquidate x).decisionKind = .liquidate := rfl
@[simp] theorem decisionKind_targetHit : (targetHit x).decisionKind = .targetHit := rfl
@[simp] theorem decisionKind_earlyWarning : (earlyWarning x).decisionKind = .earlyWarning := rfl
@[simp] theorem decisionKind_gapFlagged : (gapFlagged x).decisionKind = .gapFlagged := rfl

end Verdict

section Within

variable {kinds : List DecisionKind} {x y : Outcome (Verdict Finding)} {v : Verdict Finding}

@[simp] theorem within_ok : Within kinds (.ok v) ↔ v.decisionKind ∈ kinds := post_ok

@[simp] theorem within_pure : Within kinds (pure v) ↔ v.decisionKind ∈ kinds := post_pure

theorem within_ite {c : Prop} [Decidable c] (hx : Within kinds x) (hy : Within kinds y) :
    Within kinds (if c then x else y) := by
  split
  · exact hx
  · exact hy

theorem within_bind {α : Type} {x : Outcome α} {f : α → Outcome (Verdict Finding)}
    (h : ∀ a, Within kinds (f a)) : Within kinds (x >>= f) :=
  post_bind fun a _ => h a

end Within

attribute [simp] RuleName.verdictKinds

/-! ## Drawdown -/

theorem withBrokerEquity_within {kinds k} (hgap : .gapFlagged ∈ kinds)
    (hk : ∀ equity, Within kinds (k equity)) : Within kinds (withBrokerEquity ctx k) := by
  unfold withBrokerEquity
  split
  · simpa using hgap
  · split
    · simpa using hgap
    · exact hk _

/-- Without broker-reported equity the gap is all a terminating rule reports. -/
theorem withBrokerEquity_estimated {kinds k} (hctx : ctx.equityIsBrokerReported = false)
    (hgap : .gapFlagged ∈ kinds) : Within kinds (withBrokerEquity ctx k) := by
  have hequity : ctx.equityInput.brokerEquity = none := by
    unfold RuleContext.equityIsBrokerReported at hctx
    cases h : ctx.equityInput with
    | brokerReported equity balance => rw [h] at hctx; cases hctx
    | estimated equity balance => rfl
  unfold withBrokerEquity RuleContext.requireBrokerEquity
  rw [hequity]
  split
  · simpa using hgap
  · simpa using hgap

theorem dailyDrawdown_within :
    Within RuleName.dailyDrawdown.verdictKinds (DailyDrawdownRule.judge params ctx) := by
  refine within_ite (by simp) (withBrokerEquity_within (by simp) fun equity => ?_)
  split
  · simp
  · refine within_ite ?_ (within_ite (within_bind fun ratio => by simp) (by simp))
    split <;> simp

theorem maxDrawdown_within :
    Within RuleName.maxDrawdown.verdictKinds (MaxDrawdownRule.judge params ctx) := by
  refine within_ite (by simp) (withBrokerEquity_within (by simp) fun equity => ?_)
  refine within_ite ?_ (within_ite ?_ ?_) <;> simp

theorem trailingDrawdown_within :
    Within RuleName.trailingDrawdown.verdictKinds (TrailingDrawdownRule.judge params ctx) := by
  unfold TrailingDrawdownRule.judge
  split
  · simp
  · refine withBrokerEquity_within (by simp) fun equity => ?_
    refine within_ite ?_ (within_ite ?_ ?_) <;> simp

/-! ## Progress -/

theorem profitTarget_within :
    Within RuleName.profitTarget.verdictKinds (ProfitTargetRule.judge params ctx) := by
  unfold ProfitTargetRule.judge
  split
  · simp
  · refine within_ite (by simp) (within_ite (by simp) (within_ite (by simp) ?_))
    split
    · simp
    · refine within_ite ?_ ?_ <;> simp

theorem judgeMinDays_within {required actual deadlineText warnText} :
    Within [.pass, .fail, .warn] (judgeMinDays required actual deadlineText warnText ctx) := by
  refine within_bind fun required => ?_
  split
  · simp
  · refine within_ite ?_ (within_ite ?_ (within_ite ?_ ?_)) <;> simp

theorem consistency_within :
    Within RuleName.consistency.verdictKinds (ConsistencyRule.judge params ctx) := by
  unfold ConsistencyRule.judge ConsistencyRule.judgeWith
  split
  · simp
  · refine within_bind fun cap => ?_
    split
    · simp
    · refine within_ite ?_ (within_ite ?_ (within_ite ?_ ?_)) <;> simp

theorem timeLimit_within : Within RuleName.timeLimit.verdictKinds (TimeLimitRule.judge params ctx) := by
  refine within_bind fun deadline => ?_
  split
  · simp
  · refine within_ite (by simp) ?_
    split
    · simp
    · refine within_ite ?_ ?_ <;> simp

theorem inactivity_within : Within RuleName.inactivity.verdictKinds (InactivityRule.judge params ctx) := by
  refine within_bind fun days => ?_
  split
  · simp
  · refine within_ite (by simp) ?_
    split
    · split
      · simp
      · refine within_ite ?_ ?_ <;> simp
    · refine within_ite ?_ (within_ite ?_ ?_) <;> simp

/-! ## Orders -/

theorem maxPositionSize_within :
    Within RuleName.maxPositionSize.verdictKinds (MaxPositionSizeRule.judge params ctx) := by
  unfold MaxPositionSizeRule.judge
  split
  · refine within_bind fun lots => within_ite ?_ (within_ite ?_ ?_) <;> simp
  · simp

theorem judgeCountCap_within {limit count label} :
    Within [.pass, .fail] (judgeCountCap limit count label ctx) := by
  refine within_bind fun limit => ?_
  split
  · simp
  · split
    · simp
    · split
      · simp
      · refine within_ite ?_ ?_ <;> simp
      · refine within_ite ?_ ?_ <;> simp

theorem maxTotalLots_within :
    Within RuleName.maxTotalLots.verdictKinds (MaxTotalLotsRule.judge params ctx) := by
  unfold MaxTotalLotsRule.judge
  split
  · simp
  · refine within_bind fun held => ?_
    split <;> refine within_bind fun ordered => within_ite ?_ ?_ <;> simp

theorem margin_within : Within RuleName.margin.verdictKinds (MarginRule.judge ctx) := by
  unfold MarginRule.judge
  split
  · simp
  · refine within_ite (by simp) ?_
    split
    · simp
    · refine within_bind fun lots => within_bind fun required => within_bind fun free => ?_
      refine within_ite ?_ ?_ <;> simp

theorem judgeRequired_within {kinds required missing verdict order} (hpass : .pass ∈ kinds)
    (hv : verdict.decisionKind ∈ kinds) : Within kinds (judgeRequired required missing verdict order) := by
  unfold judgeRequired
  split
  · simpa using hpass
  · exact within_ite (within_ok.mpr hv) (within_ok.mpr hpass)

theorem slRequired_within : Within RuleName.slRequired.verdictKinds (StopLossRequiredRule.judge ctx) :=
  judgeRequired_within (by simp) (by simp)

theorem tpRequired_within : Within RuleName.tpRequired.verdictKinds (TakeProfitRequiredRule.judge ctx) :=
  judgeRequired_within (by simp) (by simp)

theorem hedging_within : Within RuleName.hedging.verdictKinds (HedgingRule.judge ctx) := by
  refine within_ite (by simp) ?_
  split
  · simp
  · refine within_ite ?_ (within_ite ?_ ?_) <;> simp

/-! ## Timing -/

theorem newsTrading_within : Within RuleName.newsTrading.verdictKinds (NewsTradingRule.judge ctx) := by
  refine within_ite (by simp) ?_
  split
  · simp
  · dsimp only
    split <;> simp

theorem overnightHolding_within :
    Within RuleName.overnightHolding.verdictKinds (OvernightHoldingRule.judge ctx) := by
  refine within_ite (by simp) ?_
  split
  · simp
  · refine within_ite ?_ (within_ite ?_ (within_ite ?_ ?_)) <;> simp

theorem weekendHolding_within :
    Within RuleName.weekendHolding.verdictKinds (WeekendHoldingRule.judge ctx) := by
  refine within_ite (by simp) ?_
  split
  · simp
  · refine within_ite ?_ (within_ite ?_ (within_ite ?_ ?_)) <;> simp

theorem cooldown_within : Within RuleName.cooldown.verdictKinds (CooldownRule.judge params ctx) := by
  refine within_bind fun cooldown => within_ite (by simp) ?_
  split
  · refine within_ite ?_ ?_ <;> simp
  · simp

theorem tradingHours_within : Within RuleName.tradingHours.verdictKinds (TradingHoursRule.judge ctx) := by
  unfold TradingHoursRule.judge
  split
  · refine within_ite ?_ ?_ <;> simp
  · simp

/-! ## Patterns -/

theorem gridTrading_within :
    Within RuleName.gridTrading.verdictKinds (GridTradingRule.judge params ctx) := by
  refine within_ite (by simp) (within_bind fun minEntries => ?_)
  split
  · simp
  · refine within_bind fun grid => ?_
    split
    · simp
    · split <;> simp

theorem copyTrading_within :
    Within RuleName.copyTrading.verdictKinds (CopyTradingRule.judge params ctx) := by
  refine within_ite (by simp) (within_bind fun failThreshold => ?_)
  dsimp only
  split
  · simp
  · refine within_ite ?_ (within_ite ?_ ?_) <;> simp

theorem hftScalping_within :
    Within RuleName.hftScalping.verdictKinds (HftScalpingRule.judge params ctx) := by
  unfold HftScalpingRule.judge
  split
  · simp
  · refine within_bind fun fast => within_ite (by simp) (within_bind fun _ => ?_)
    refine within_ite ?_ ?_ <;> simp

theorem perTradeMaxLoss_within :
    Within RuleName.perTradeMaxLoss.verdictKinds (PerTradeMaxLossRule.judge params ctx) := by
  unfold PerTradeMaxLossRule.judge
  split
  · simp
  · split
    · simp
    · refine within_ite (within_ite ?_ ?_) (within_ite ?_ ?_) <;> simp

/-- A loss beyond the limit is only a warning in a context without broker-reported equity. -/
theorem perTradeMaxLoss_estimated (hctx : ctx.equityIsBrokerReported = false) :
    Within [.pass, .warn, .earlyWarning] (PerTradeMaxLossRule.judge params ctx) := by
  unfold PerTradeMaxLossRule.judge
  split
  · simp
  · split
    · simp
    · rw [hctx]
      refine within_ite ?_ (within_ite ?_ ?_) <;> simp

theorem crossAccountHedging_within :
    Within RuleName.crossAccountHedging.verdictKinds (CrossAccountHedgingRule.judge ctx) := by
  refine within_ite ?_ ?_ <;> simp

theorem lowcapExposure_within :
    Within RuleName.lowcapExposure.verdictKinds (LowcapExposureRule.judge ctx) := by
  unfold LowcapExposureRule.judge
  split
  · simp
  · refine within_ite ?_ (within_ite ?_ ?_) <;> simp

/-! ## The standard library -/

/-- A rule of the default library keeps to its entry of the table. -/
theorem judge_within {r : StdRule} (hr : r ∈ defaultRules) : Within r.id.verdictKinds (r.judge ctx) := by
  simp only [defaultRules, List.mem_cons, List.not_mem_nil, or_false] at hr
  rcases hr with rfl | rfl | rfl | rfl | rfl | rfl | rfl | rfl | rfl | rfl | rfl | rfl | rfl | rfl |
    rfl | rfl | rfl | rfl | rfl | rfl | rfl | rfl | rfl | rfl | rfl | rfl | rfl | rfl
  · exact dailyDrawdown_within
  · exact maxDrawdown_within
  · exact trailingDrawdown_within
  · exact @profitTarget_within none ctx
  · exact judgeMinDays_within
  · exact judgeMinDays_within
  · exact consistency_within
  · exact newsTrading_within
  · exact overnightHolding_within
  · exact weekendHolding_within
  · exact maxPositionSize_within
  · exact judgeCountCap_within
  · exact judgeCountCap_within
  · exact timeLimit_within
  · exact cooldown_within
  · exact hedging_within
  · exact gridTrading_within
  · exact copyTrading_within
  · exact slRequired_within
  · exact tpRequired_within
  · exact hftScalping_within
  · exact perTradeMaxLoss_within
  · exact inactivity_within
  · exact maxTotalLots_within
  · exact tradingHours_within
  · exact margin_within
  · exact crossAccountHedging_within
  · exact lowcapExposure_within

end Propfirm
