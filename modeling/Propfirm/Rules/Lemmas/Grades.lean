import Propfirm.Rules.Lemmas.Registry
import Propfirm.Rules.Pack

/-!
# The severity of findings that end an account

Each rule sets the class of its verdict and the severity of its finding apart from each other. They agree
in every rule of the library, whatever its parameters and its context.
-/

namespace Propfirm

open Fallible

variable {params : Option RuleParams} {ctx : RuleContext}

/-- A finding that ends the account has a severity that does. -/
def Verdict.Graded : Verdict Finding → Prop
  | .fail f | .liquidate f => f.severity = .hard ∨ f.severity = .liquidate
  | .emergency _ => False
  | _ => True

def Graded (x : Outcome (Verdict Finding)) : Prop := Post Verdict.Graded x

section Graded

variable {x y : Outcome (Verdict Finding)} {v : Verdict Finding}

@[simp] theorem graded_ok : Graded (.ok v) ↔ v.Graded := post_ok

@[simp] theorem graded_pure : Graded (pure v) ↔ v.Graded := post_pure

theorem graded_ite {c : Prop} [Decidable c] (hx : Graded x) (hy : Graded y) :
    Graded (if c then x else y) := by
  split
  · exact hx
  · exact hy

theorem graded_bind {α : Type} {x : Outcome α} {f : α → Outcome (Verdict Finding)}
    (h : ∀ a, Graded (f a)) : Graded (x >>= f) :=
  post_bind fun a _ => h a

/-- A rule that never ends an account has nothing to grade. -/
theorem Within.graded {kinds : List DecisionKind} (h : Within kinds x)
    (hkinds : .fail ∉ kinds ∧ .liquidate ∉ kinds ∧ .emergency ∉ kinds) : Graded x := by
  intro v hv
  have hmem := h v hv
  cases v with
  | fail f => exact absurd hmem hkinds.1
  | liquidate f => exact absurd hmem hkinds.2.1
  | emergency f => exact absurd hmem hkinds.2.2
  | _ => trivial

end Graded

attribute [simp] Verdict.Graded

/-! ## Drawdown -/

theorem withBrokerEquity_graded {k : Money → Outcome (Verdict Finding)} (hk : ∀ equity, Graded (k equity)) :
    Graded (withBrokerEquity ctx k) := by
  unfold withBrokerEquity
  split
  · simp
  · split
    · simp
    · exact hk _

theorem dailyDrawdown_graded : Graded (DailyDrawdownRule.judge params ctx) := by
  refine graded_ite (by simp) (withBrokerEquity_graded fun equity => ?_)
  split
  · simp
  · refine graded_ite ?_ (graded_ite (graded_bind fun ratio => by simp) (by simp))
    cases hsoft : ctx.account.plan.dailyLossSoft <;> simp

theorem maxDrawdown_graded : Graded (MaxDrawdownRule.judge params ctx) := by
  refine graded_ite (by simp) (withBrokerEquity_graded fun equity => ?_)
  refine graded_ite ?_ (graded_ite ?_ ?_) <;> simp

theorem trailingDrawdown_graded : Graded (TrailingDrawdownRule.judge params ctx) := by
  unfold TrailingDrawdownRule.judge
  split
  · simp
  · refine withBrokerEquity_graded fun equity => ?_
    refine graded_ite ?_ (graded_ite ?_ ?_) <;> simp

theorem perTradeMaxLoss_graded : Graded (PerTradeMaxLossRule.judge params ctx) := by
  unfold PerTradeMaxLossRule.judge
  split
  · simp
  · split
    · simp
    · refine graded_ite (graded_ite ?_ ?_) (graded_ite ?_ ?_) <;> simp

/-! ## Progress -/

theorem profitTarget_graded : Graded (ProfitTargetRule.judge params ctx) := by
  unfold ProfitTargetRule.judge
  split
  · simp
  · refine graded_ite (by simp) (graded_ite (by simp) (graded_ite (by simp) ?_))
    split
    · simp
    · refine graded_ite ?_ ?_ <;> simp

theorem judgeMinDays_graded {required actual deadlineText warnText} :
    Graded (judgeMinDays required actual deadlineText warnText ctx) := by
  refine graded_bind fun required => ?_
  split
  · simp
  · refine graded_ite ?_ (graded_ite ?_ (graded_ite ?_ ?_)) <;> simp

theorem timeLimit_graded : Graded (TimeLimitRule.judge params ctx) := by
  refine graded_bind fun deadline => ?_
  split
  · simp
  · refine graded_ite (by simp) ?_
    split
    · simp
    · refine graded_ite ?_ ?_ <;> simp

theorem inactivity_graded : Graded (InactivityRule.judge params ctx) := by
  refine graded_bind fun days => ?_
  split
  · simp
  · refine graded_ite (by simp) ?_
    split
    · split
      · simp
      · refine graded_ite ?_ ?_ <;> simp
    · refine graded_ite ?_ (graded_ite ?_ ?_) <;> simp

/-! ## Orders -/

theorem maxPositionSize_graded : Graded (MaxPositionSizeRule.judge params ctx) := by
  unfold MaxPositionSizeRule.judge
  split
  · refine graded_bind fun lots => graded_ite ?_ (graded_ite ?_ ?_) <;> simp
  · simp

theorem judgeCountCap_graded {limit count label} : Graded (judgeCountCap limit count label ctx) := by
  refine graded_bind fun limit => ?_
  split
  · simp
  · split
    · simp
    · split
      · simp
      · refine graded_ite ?_ ?_ <;> simp
      · refine graded_ite ?_ ?_ <;> simp

theorem maxTotalLots_graded : Graded (MaxTotalLotsRule.judge params ctx) := by
  unfold MaxTotalLotsRule.judge
  split
  · simp
  · refine graded_bind fun held => ?_
    split <;> refine graded_bind fun ordered => graded_ite ?_ ?_ <;> simp

theorem margin_graded : Graded (MarginRule.judge ctx) := by
  unfold MarginRule.judge
  split
  · simp
  · refine graded_ite (by simp) ?_
    split
    · simp
    · refine graded_bind fun lots => graded_bind fun required => graded_bind fun free => ?_
      refine graded_ite ?_ ?_ <;> simp

theorem slRequired_graded : Graded (StopLossRequiredRule.judge ctx) := by
  unfold StopLossRequiredRule.judge judgeRequired
  split
  · simp
  · refine graded_ite ?_ ?_ <;> simp

theorem hedging_graded : Graded (HedgingRule.judge ctx) := by
  refine graded_ite (by simp) ?_
  split
  · simp
  · refine graded_ite ?_ (graded_ite ?_ ?_) <;> simp

/-! ## Timing and patterns -/

theorem newsTrading_graded : Graded (NewsTradingRule.judge ctx) := by
  refine graded_ite (by simp) ?_
  split
  · simp
  · dsimp only
    split <;> simp

theorem overnightHolding_graded : Graded (OvernightHoldingRule.judge ctx) := by
  refine graded_ite (by simp) ?_
  split
  · simp
  · refine graded_ite ?_ (graded_ite ?_ (graded_ite ?_ ?_)) <;> simp

theorem weekendHolding_graded : Graded (WeekendHoldingRule.judge ctx) := by
  refine graded_ite (by simp) ?_
  split
  · simp
  · refine graded_ite ?_ (graded_ite ?_ (graded_ite ?_ ?_)) <;> simp

theorem tradingHours_graded : Graded (TradingHoursRule.judge ctx) := by
  unfold TradingHoursRule.judge
  split
  · refine graded_ite ?_ ?_ <;> simp
  · simp

theorem copyTrading_graded : Graded (CopyTradingRule.judge params ctx) := by
  refine graded_ite (by simp) (graded_bind fun failThreshold => ?_)
  dsimp only
  split
  · simp
  · refine graded_ite ?_ (graded_ite ?_ ?_) <;> simp

/-! ## The library -/

/-- The rules of the standard library under some parameters. -/
def libraryRules (params : Option RuleParams) : List StdRule :=
  [dailyDrawdownRule params, maxDrawdownRule params, trailingDrawdownRule params, profitTargetRule params,
    minTradingDaysRule params, minProfitableDaysRule params, consistencyRule params,
    newsTradingRule params, overnightHoldingRule params, weekendHoldingRule params,
    maxPositionSizeRule params, maxOpenPositionsRule params, maxDailyTradesRule params,
    timeLimitRule params, cooldownRule params, hedgingRule params, gridTradingRule params,
    copyTradingRule params, stopLossRequiredRule params, takeProfitRequiredRule params,
    hftScalpingRule params, perTradeMaxLossRule params, inactivityRule params, maxTotalLotsRule params,
    tradingHoursRule, marginRule, crossAccountHedgingRule params, lowcapExposureRule params]

theorem libraryRules_graded {r : StdRule} (hr : r ∈ libraryRules params) : Graded (r.judge ctx) := by
  simp only [libraryRules, List.mem_cons, List.not_mem_nil, or_false] at hr
  rcases hr with rfl | rfl | rfl | rfl | rfl | rfl | rfl | rfl | rfl | rfl | rfl | rfl | rfl | rfl |
    rfl | rfl | rfl | rfl | rfl | rfl | rfl | rfl | rfl | rfl | rfl | rfl | rfl | rfl
  · exact dailyDrawdown_graded
  · exact maxDrawdown_graded
  · exact trailingDrawdown_graded
  · exact profitTarget_graded
  · exact judgeMinDays_graded
  · exact judgeMinDays_graded
  · exact consistency_within.graded (by decide)
  · exact newsTrading_graded
  · exact overnightHolding_graded
  · exact weekendHolding_graded
  · exact maxPositionSize_graded
  · exact judgeCountCap_graded
  · exact judgeCountCap_graded
  · exact timeLimit_graded
  · exact cooldown_within.graded (by decide)
  · exact hedging_graded
  · exact gridTrading_within.graded (by decide)
  · exact copyTrading_graded
  · exact slRequired_graded
  · exact tpRequired_within.graded (by decide)
  · exact hftScalping_within.graded (by decide)
  · exact perTradeMaxLoss_graded
  · exact inactivity_graded
  · exact maxTotalLots_graded
  · exact tradingHours_graded
  · exact margin_graded
  · exact crossAccountHedging_within.graded (by decide)
  · exact lowcapExposure_within.graded (by decide)

end Propfirm
