import Propfirm.Rules.Theorems.EarlyWarnings

/-!
# Larger losses

The drawdown rules compare a loss with fixed thresholds, so a larger loss is judged at least as severely.
-/

namespace Propfirm

variable {params : Option RuleParams} {ctx : RuleContext} {lower upper equity balance : Money}

/-! ## The daily rule as a ladder -/

/-- A soft limit has no breach, only warnings. -/
theorem DailyDrawdownRule.evaluate_limitKind {reference dd : Money} (h : ctx.Reports equity)
    (hpct : 0 < effectivePct params ctx) (href : referenceAndLoss ctx.account = some (reference, dd))
    (hreference : reference ≠ 0) :
    ((dailyDrawdownRule params).evaluate ctx).map Verdict.decisionKind =
      .ok (limitKind
        (ctx.account.plan.dailyLossSoft = false ∧
          effectiveLimit params ctx reference + toleranceMoney (toleranceCents params) < dd)
        (effectiveLimit params ctx reference + toleranceMoney (toleranceCents params) < dd ∨
          effectiveLimit params ctx reference * warnFraction params ≤ dd)) := by
  rw [evaluate_kind h hpct href, limitKind]
  split
  · rename_i hbreach
    cases ctx.account.plan.dailyLossSoft <;> simp [hbreach]
  · rename_i hbreach
    by_cases hnear : effectiveLimit params ctx reference * warnFraction params ≤ dd <;>
      simp [hbreach, hnear]

/-! ## Two equities -/

theorem RuleContext.atEquity_measured_le (hle : lower ≤ upper) :
    (ctx.atEquity lower balance).account.measured lower ≤
      (ctx.atEquity upper balance).account.measured upper := by
  change ctx.account.measured lower ≤ ctx.account.measured upper
  unfold Account.measured
  split
  · exact le_rfl
  · exact hle

section Rules

variable (h : ctx.account.startedAt.isSome) (hle : lower ≤ upper)

include h hle

theorem total_noMilder :
    (maxDrawdownRule params).NoMilder [.pass, .earlyWarning, .liquidate] (ctx.atEquity upper balance)
      (ctx.atEquity lower balance) := by
  by_cases hpct : 0 < MaxDrawdownRule.effectivePct params ctx
  · refine ⟨_, _, MaxDrawdownRule.evaluate_kind (RuleContext.atEquity_reports h) hpct,
      MaxDrawdownRule.evaluate_kind (RuleContext.atEquity_reports h) hpct, ?_⟩
    exact limitKind_noMilder (RuleContext.atEquity_measured_le hle).trans_lt
      (RuleContext.atEquity_measured_le hle).trans
  · exact ⟨_, _, MaxDrawdownRule.evaluate_kind_off (not_lt.mp hpct),
      MaxDrawdownRule.evaluate_kind_off (not_lt.mp hpct), by decide⟩

theorem daily_noMilder (href : ctx.account.dailyReference ≠ 0) :
    (dailyDrawdownRule params).NoMilder [.pass, .earlyWarning, .liquidate] (ctx.atEquity upper balance)
      (ctx.atEquity lower balance) := by
  by_cases hpct : 0 < DailyDrawdownRule.effectivePct params ctx
  · by_cases htype : ctx.account.plan.dailyLossType = .none
    · have hnone (equity : Money) :
          DailyDrawdownRule.referenceAndLoss (ctx.atEquity equity balance).account = none := by
        simp [DailyDrawdownRule.referenceAndLoss, RuleContext.atEquity, htype]
      exact ⟨_, _, DailyDrawdownRule.evaluate_kind_none (RuleContext.atEquity_reports h) hpct (hnone upper),
        DailyDrawdownRule.evaluate_kind_none (RuleContext.atEquity_reports h) hpct (hnone lower), by decide⟩
    · refine ⟨_, _,
        DailyDrawdownRule.evaluate_limitKind (RuleContext.atEquity_reports h) hpct
          (referenceAndLoss_eq htype) href,
        DailyDrawdownRule.evaluate_limitKind (RuleContext.atEquity_reports h) hpct
          (referenceAndLoss_eq htype) href, ?_⟩
      -- the anchor stays, and the loss from it grows
      have hloss : max ((ctx.atEquity upper balance).account.dailyAnchor -
            (ctx.atEquity upper balance).account.current) 0 ≤
          max ((ctx.atEquity lower balance).account.dailyAnchor -
            (ctx.atEquity lower balance).account.current) 0 :=
        max_le_max_right 0 (sub_le_sub_left (RuleContext.atEquity_measured_le hle) _)
      refine limitKind_noMilder (fun hbreach => ⟨hbreach.1, hbreach.2.trans_le hloss⟩) fun hnear => ?_
      exact hnear.imp (fun hbreach => hbreach.trans_le hloss) fun hwarn => hwarn.trans hloss
  · exact ⟨_, _, DailyDrawdownRule.evaluate_kind_off (not_lt.mp hpct),
      DailyDrawdownRule.evaluate_kind_off (not_lt.mp hpct), by decide⟩

theorem trailing_noMilder :
    (trailingDrawdownRule params).NoMilder [.pass, .earlyWarning, .liquidate] (ctx.atEquity upper balance)
      (ctx.atEquity lower balance) := by
  cases htrail : TrailingDrawdownRule.effectiveTrailMoney params ctx with
  | none =>
      exact ⟨_, _, TrailingDrawdownRule.evaluate_kind_off htrail,
        TrailingDrawdownRule.evaluate_kind_off htrail, by decide⟩
  | some trail =>
      refine ⟨_, _, TrailingDrawdownRule.evaluate_kind (RuleContext.atEquity_reports h) htrail,
        TrailingDrawdownRule.evaluate_kind (RuleContext.atEquity_reports h) htrail, ?_⟩
      exact limitKind_noMilder hle.trans_lt hle.trans_lt

/-- Whatever the parameters are, the lower equity is judged no milder. The daily rule divides by its
reference when it warns. -/
theorem larger_loss_never_milder (k : DrawdownRule) (href : k = .daily → ctx.account.dailyReference ≠ 0) :
    (k.rule params).NoMilder [.pass, .earlyWarning, .liquidate] (ctx.atEquity upper balance)
      (ctx.atEquity lower balance) := by
  cases k with
  | total => exact total_noMilder h hle
  | daily => exact daily_noMilder h hle (href rfl)
  | trailing => exact trailing_noMilder h hle

end Rules

theorem larger_loss_never_milder_daily :
    (dailyDrawdownRule none).NoMilder [.pass, .earlyWarning, .liquidate]
      ((dayContext (.default ⟨1⟩ 0) 10000 10000).atEquity 9560 10000)
      ((dayContext (.default ⟨1⟩ 0) 10000 10000).atEquity 9400 10000) :=
  larger_loss_never_milder rfl (by decide +kernel) .daily fun _ => by decide +kernel

end Propfirm
