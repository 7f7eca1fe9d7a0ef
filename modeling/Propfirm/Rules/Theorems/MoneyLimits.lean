import Propfirm.Rules.Theorems.Packs

/-!
# Limits in money

The limit of an entry may be an amount of money. A rule that works with fractions divides the amount by one
reference and multiplies the quotient by another, and the daily rule does not divide at all. The quotient and
the product are rounded, so the arithmetic is a parameter where they are taken.
-/

namespace Propfirm

open Fallible Threshold

variable {e : RuleEntry} {params : Option RuleParams} {ctx : RuleContext} {a : Account} {equity : Money}
  {arith : Arithmetic}

/-- An entry of the kind whose limit is an amount of money. -/
structure RuleEntry.MoneyLimit (e : RuleEntry) (kind : String) : Prop where
  kind_eq : e.kind = kind
  unit_eq : e.unit = .money
  value_pos : 0 < e.value

/-! ## Daily drawdown -/

/-- The loss of the day, from where the plan says. -/
def Account.dailyLoss (a : Account) : Money := max (a.dailyAnchor - a.current) 0

/-- The daily rule takes an amount for a fraction. It keeps to the amount only where the loss is past both
limits or within both. -/
theorem money_daily_limit_iff (h : e.MoneyLimit "daily_drawdown") (hreports : ctx.Reports equity)
    (htype : ctx.account.plan.dailyLossType ≠ .none) (hhard : ctx.account.plan.dailyLossSoft = false) :
    ((dailyDrawdownRule (some (.fromEntry e))).Liquidates ctx ↔
        e.value + e.tolerance < ctx.account.dailyLoss) ↔
      ctx.account.dailyLoss ∉
        Set.uIoc (e.value * ctx.account.dailyReference + e.tolerance) (e.value + e.tolerance) := by
  have hpct : 0 < DailyDrawdownRule.effectivePct (some (.fromEntry e)) ctx := h.value_pos
  rw [DailyDrawdownRule.liquidates_iff hreports hpct (referenceAndLoss_eq htype), and_iff_right hhard]
  exact lt_iff_lt_iff

def moneyEntry (kind : String) (basis : RuleBasis) (value : Money) : RuleEntry :=
  { RuleEntry.new "limit" kind value with unit := .money, basis }

/-- A limit of half a unit of money is taken for half of the balance. A loss of six thousand is past both. -/
theorem money_daily_limit_both :
    (dailyDrawdownRule (some (.fromEntry (moneyEntry "daily_drawdown" .static (1 / 2))))).Liquidates
        (dayContext fixedDailyPlan 10000 4000) ∧
      (moneyEntry "daily_drawdown" .static (1 / 2)).value +
          (moneyEntry "daily_drawdown" .static (1 / 2)).tolerance <
        (dayContext fixedDailyPlan 10000 4000).account.dailyLoss := by
  have hloss : (moneyEntry "daily_drawdown" .static (1 / 2)).value +
        (moneyEntry "daily_drawdown" .static (1 / 2)).tolerance <
      (dayContext fixedDailyPlan 10000 4000).account.dailyLoss := by decide +kernel
  have hreports : (dayContext fixedDailyPlan 10000 4000).Reports 4000 := .of_input rfl rfl
  have hiff := (money_daily_limit_iff (e := moneyEntry "daily_drawdown" .static (1 / 2))
    ⟨rfl, rfl, by decide +kernel⟩ hreports (by decide) rfl).mpr
    fun hmem => absurd (Set.mem_uIoc.mp hmem) (by decide +kernel)
  exact ⟨hiff.mpr hloss, hloss⟩

/-- A loss of a thousand under a limit of five hundred: the rule waits for five million. -/
theorem money_daily_limit_exceeded :
    (moneyEntry "daily_drawdown" .static 500).MoneyLimit "daily_drawdown" ∧
      (dayContext fixedDailyPlan 10000 9000).Reports 9000 ∧
      (moneyEntry "daily_drawdown" .static 500).value + (moneyEntry "daily_drawdown" .static 500).tolerance <
        (dayContext fixedDailyPlan 10000 9000).account.dailyLoss ∧
      ¬(dailyDrawdownRule (some (.fromEntry (moneyEntry "daily_drawdown" .static 500)))).Liquidates
        (dayContext fixedDailyPlan 10000 9000) := by
  refine ⟨⟨rfl, rfl, by decide +kernel⟩, .of_input rfl rfl, by decide +kernel, ?_⟩
  unfold StdRule.Liquidates
  decide +kernel

/-! ## Total drawdown -/

/-- The floor an amount below the reference, no higher than the initial balance under the end-of-day lock. -/
def Account.floorBelowWith (arith : Arithmetic) (a : Account) (basis : LossReference) (amount : Money) : Money :=
  if basis = .eodTrailing ∧ a.plan.eodTrailLocksAtStart then
    min (arith.sub (MaxDrawdownRule.reference basis a) amount) a.initialBalance
  else arith.sub (MaxDrawdownRule.reference basis a) amount

def Account.floorBelow (a : Account) (basis : LossReference) (amount : Money) : Money :=
  a.floorBelowWith .exact basis amount

/-- What the rule takes its share of: under an end-of-day floor this is not the reference. -/
def MaxDrawdownRule.shared (basis : LossReference) (a : Account) : Money :=
  if basis = .eodTrailing then a.initialBalance else reference basis a

theorem floorWith_eq_floorBelowWith {basis : LossReference} {pct : Decimal} :
    MaxDrawdownRule.floorWith arith basis pct a =
      a.floorBelowWith arith basis (arith.mul pct (MaxDrawdownRule.shared basis a)) := by
  unfold Account.floorBelowWith
  cases basis with
  | eodTrailing => simp only [true_and]; rfl
  | static | trailing | intradayTrail => rw [if_neg fun hc => by cases hc.1]; rfl

theorem effectivePctWith_of_money (arith : Arithmetic) (hunit : e.unit = .money)
    (href : 0 < MaxDrawdownRule.reference e.basis.lossReference ctx.account) :
    MaxDrawdownRule.effectivePctWith arith (some (.fromEntry e)) ctx =
      arith.div e.value (MaxDrawdownRule.reference e.basis.lossReference ctx.account) := by
  simp only [MaxDrawdownRule.effectivePctWith, RuleParams.fromEntry, hunit, if_true]
  exact if_neg href.ne'

/-- The rule liquidates below the floor that it computes, and never with a share of nothing. -/
theorem money_liquidates_iff (arith : Arithmetic) (h : e.MoneyLimit "max_drawdown")
    (hreports : ctx.Reports equity)
    (href : 0 < MaxDrawdownRule.reference e.basis.lossReference ctx.account) :
    (maxDrawdownRuleWith arith (some (.fromEntry e))).Liquidates ctx ↔
      0 < arith.div e.value (MaxDrawdownRule.reference e.basis.lossReference ctx.account) ∧
        ctx.account.measured equity <
          arith.sub
            (ctx.account.floorBelowWith arith e.basis.lossReference
              (arith.mul (arith.div e.value (MaxDrawdownRule.reference e.basis.lossReference ctx.account))
                (MaxDrawdownRule.shared e.basis.lossReference ctx.account)))
            e.tolerance := by
  have hpct := effectivePctWith_of_money arith h.unit_eq href
  rw [MaxDrawdownRule.liquidatesWith_iff hreports, MaxDrawdownRule.effectiveFloorWith, hpct,
    floorWith_eq_floorBelowWith]
  rfl

/-- An amount is divided by the reference, and the floor is a share of it below, or of the initial balance
under an end-of-day floor. The rule keeps to the amount except between the floor that comes of this and the
one that was meant. -/
theorem money_total_limit_iff (arith : Arithmetic) (h : e.MoneyLimit "max_drawdown")
    (hreports : ctx.Reports equity)
    (href : 0 < MaxDrawdownRule.reference e.basis.lossReference ctx.account) :
    let share := arith.div e.value (MaxDrawdownRule.reference e.basis.lossReference ctx.account)
    let buffer := arith.mul share (MaxDrawdownRule.shared e.basis.lossReference ctx.account)
    let computed := arith.sub (ctx.account.floorBelowWith arith e.basis.lossReference buffer) e.tolerance
    let meant := ctx.account.floorBelow e.basis.lossReference e.value - e.tolerance
    ((maxDrawdownRuleWith arith (some (.fromEntry e))).Liquidates ctx ↔
        ctx.account.measured equity < meant) ↔
      if 0 < share then ctx.account.measured equity ∉ Set.Ico (min computed meant) (max computed meant)
      else meant ≤ ctx.account.measured equity := by
  intro share buffer computed meant
  rw [money_liquidates_iff arith h hreports href]
  split
  · rename_i hshare
    rw [and_iff_right hshare]
    exact gt_iff_gt_iff
  · rename_i hshare
    rw [iff_false_left (not_and_of_not_left _ hshare), not_lt]

/-- Without rounding the two floors differ under an end-of-day basis only. -/
theorem money_total_limit_exact (h : e.MoneyLimit "max_drawdown") (hreports : ctx.Reports equity)
    (href : 0 < MaxDrawdownRule.reference e.basis.lossReference ctx.account) (hbasis : e.basis ≠ .eodTrailing) :
    (maxDrawdownRule (some (.fromEntry e))).Liquidates ctx ↔
      ctx.account.measured equity < ctx.account.floorBelow e.basis.lossReference e.value - e.tolerance := by
  have hother : e.basis.lossReference ≠ .eodTrailing := by
    intro heq
    cases hb : e.basis with
    | eodTrailing => exact hbasis hb
    | static | trailing | intradayTrail => rw [hb] at heq; cases heq
  have hbuffer : e.value / MaxDrawdownRule.reference e.basis.lossReference ctx.account *
      MaxDrawdownRule.shared e.basis.lossReference ctx.account = e.value := by
    rw [MaxDrawdownRule.shared, if_neg hother, div_mul_cancel₀ _ href.ne']
  have hshare : 0 < Arithmetic.exact.div e.value (MaxDrawdownRule.reference e.basis.lossReference ctx.account) :=
    div_pos h.value_pos href
  refine (money_liquidates_iff .exact h hreports href).trans ((and_iff_right hshare).trans ?_)
  change _ < ctx.account.floorBelow _ (_ / _ * _) - _ ↔ _
  rw [hbuffer]

theorem money_total_limit_first_day :
    (maxDrawdownRuleWith .rounded (some (.fromEntry (moneyEntry "max_drawdown" .eodTrailing 1000)))).Liquidates
        (dayContext eodPlan 10000 8900) ∧
      (8900 : Money) < (dayContext eodPlan 10000 8900).account.floorBelow .eodTrailing 1000 -
        (moneyEntry "max_drawdown" .eodTrailing 1000).tolerance := by
  have hbelow : (8900 : Money) < (dayContext eodPlan 10000 8900).account.floorBelow .eodTrailing 1000 -
      (moneyEntry "max_drawdown" .eodTrailing 1000).tolerance := by decide +kernel
  have hreports : (dayContext eodPlan 10000 8900).Reports 8900 := .of_input rfl rfl
  have hiff := (money_total_limit_iff .rounded (e := moneyEntry "max_drawdown" .eodTrailing 1000)
    ⟨rfl, rfl, by decide +kernel⟩ hreports (by decide +kernel)).mpr
  refine ⟨(hiff ?_).mpr hbelow, hbelow⟩
  rw [if_pos (by decide +kernel)]
  exact fun hmem => absurd (Set.mem_Ico.mp hmem) (by decide +kernel)

/-- Ten thousand below thirty thousand, without a tolerance. -/
def thirdEntry (kind : String) : RuleEntry := { moneyEntry kind .static 10000 with toleranceCents := some 0 }

def thirdContext : RuleContext :=
  let ctx := dayContext eodPlan 30000 20000
  { ctx with account := { ctx.account with initialBalance := 30000 } }

/-- A day that starts at 11000 has its floor at 10000 under a limit of 1000. The rule has it at 10090.91.
Under a limit of 10000 on 30000 it has the floor above 20000 by the last digit. -/
theorem money_total_limit_scaled :
    ((moneyEntry "max_drawdown" .eodTrailing 1000).MoneyLimit "max_drawdown" ∧
        (dayContext eodPlan 11000 10050).Reports 10050 ∧
        (dayContext eodPlan 11000 10050).account.floorBelow .eodTrailing 1000 = 10000 ∧
        (maxDrawdownRuleWith .rounded
          (some (.fromEntry (moneyEntry "max_drawdown" .eodTrailing 1000)))).Liquidates
          (dayContext eodPlan 11000 10050)) ∧
      (thirdEntry "max_drawdown").MoneyLimit "max_drawdown" ∧ thirdContext.Reports 20000 ∧
        thirdContext.account.floorBelow .static 10000 = 20000 ∧
        (maxDrawdownRuleWith .rounded (some (.fromEntry (thirdEntry "max_drawdown")))).Liquidates
          thirdContext := by
  refine ⟨⟨⟨rfl, rfl, by decide +kernel⟩, .of_input rfl rfl, by decide +kernel, ?_⟩,
    ⟨rfl, rfl, by decide +kernel⟩, .of_input rfl rfl, by decide +kernel, ?_⟩
  · unfold StdRule.Liquidates
    decide +kernel
  · unfold StdRule.Liquidates
    decide +kernel

/-! ## Consistency -/

def StdRule.Warns (rule : StdRule) (ctx : RuleContext) : Prop :=
  (rule.evaluate ctx).map Verdict.decisionKind = .ok .warn

namespace ConsistencyRule

variable {cap : Decimal} {total : Money} {label : String}

theorem warnsWith_iff (hdenominator : denominator ctx.account = some (total, label)) (htotal : 0 < total)
    (hcap : effectiveCapWith arith params ctx = .ok (some cap)) :
    (consistencyRuleWith arith params).Warns ctx ↔
      0 < ctx.account.largestDayProfit ∧ arith.mul cap total < ctx.account.largestDayProfit := by
  rw [StdRule.Warns, StdRule.evaluate_decisionKind]
  change (judgeWith arith params ctx).map _ = _ ↔ _
  simp only [judgeWith, hdenominator, hcap, bind, Except.bind]
  rw [if_neg (not_le.mpr htotal)]
  split
  · rename_i hlargest
    simp [pure, Except.pure, Except.map, Verdict.decisionKind, not_lt.mpr hlargest]
  · rename_i hlargest
    rw [and_iff_right (not_le.mp hlargest)]
    split
    · rename_i hlt
      simp [pure, Except.pure, Except.map, Verdict.decisionKind, hlt]
    · rename_i hlt
      simp [pure, Except.pure, Except.map, Verdict.decisionKind, hlt]

theorem warns_iff (hdenominator : denominator ctx.account = some (total, label)) (htotal : 0 < total)
    (hcap : effectiveCap params ctx = .ok (some cap)) :
    (consistencyRule params).Warns ctx ↔
      0 < ctx.account.largestDayProfit ∧ cap * total < ctx.account.largestDayProfit :=
  warnsWith_iff hdenominator htotal hcap

theorem not_warns (hdenominator : denominator ctx.account = some (total, label))
    (hcap : effectiveCapWith arith params ctx = .ok none) : ¬(consistencyRuleWith arith params).Warns ctx := by
  rw [StdRule.Warns, StdRule.evaluate_decisionKind]
  change ¬(judgeWith arith params ctx).map _ = _
  simp [judgeWith, hdenominator, hcap, bind, Except.bind, pure, Except.pure, Except.map, Verdict.decisionKind]

theorem effectiveCapWith_of_money (arith : Arithmetic) (hunit : e.unit = .money)
    (hdays : 0 < ctx.account.sumPositiveDaysProfit) :
    effectiveCapWith arith (some (.fromEntry e)) ctx =
      .ok (if e.enabled then some (arith.div e.value ctx.account.sumPositiveDaysProfit) else none) := by
  unfold effectiveCapWith RuleParams.effectivePctWith RuleParams.fromEntry
  cases e.enabled <;> simp [hunit, hdays.ne']

/-- The profit that the best day is compared with. -/
def comparedProfit (a : Account) : Money :=
  if a.plan.consistencyType = .bestDayPctOfTotal then a.totalRealizedPnl else a.sumPositiveDaysProfit

theorem denominator_eq (htype : a.plan.consistencyType ≠ .none) :
    ∃ label, denominator a = some (comparedProfit a, label) := by
  unfold denominator comparedProfit
  cases htotal : a.plan.consistencyType with
  | none => exact absurd htotal htype
  | bestDayPctOfTotal => exact ⟨_, rfl⟩
  | bestDayPctOfPositiveDays => exact ⟨_, rfl⟩

end ConsistencyRule

/-- The rule warns above the cap that it computes: a share of the profit of the winning days, taken of the
profit that the plan compares with. An entry that is switched off caps nothing. -/
theorem money_warns_iff (arith : Arithmetic) (h : e.MoneyLimit "consistency")
    (htype : ctx.account.plan.consistencyType ≠ .none)
    (hdays : 0 < ctx.account.sumPositiveDaysProfit) (htotal : 0 < ctx.account.totalRealizedPnl) :
    (consistencyRuleWith arith (some (.fromEntry e))).Warns ctx ↔
      e.enabled = true ∧
        max (arith.mul (arith.div e.value ctx.account.sumPositiveDaysProfit)
          (ConsistencyRule.comparedProfit ctx.account)) 0 < ctx.account.largestDayProfit := by
  obtain ⟨label, hdenominator⟩ := ConsistencyRule.denominator_eq htype
  have hpos : 0 < ConsistencyRule.comparedProfit ctx.account := by
    unfold ConsistencyRule.comparedProfit
    split <;> assumption
  have hcap := ConsistencyRule.effectiveCapWith_of_money arith h.unit_eq hdays
  cases henabled : e.enabled with
  | true =>
      rw [henabled, if_pos rfl] at hcap
      rw [ConsistencyRule.warnsWith_iff hdenominator hpos hcap, max_lt_iff, and_comm, and_iff_right rfl]
  | false =>
      rw [henabled, if_neg Bool.false_ne_true] at hcap
      exact iff_of_false (ConsistencyRule.not_warns hdenominator hcap) fun hc => by cases hc.1

/-- The rule keeps to the amount except between the cap that it computes and the one that was meant. -/
theorem money_consistency_cap_iff (arith : Arithmetic) (h : e.MoneyLimit "consistency")
    (htype : ctx.account.plan.consistencyType ≠ .none)
    (hdays : 0 < ctx.account.sumPositiveDaysProfit) (htotal : 0 < ctx.account.totalRealizedPnl) :
    let share := arith.div e.value ctx.account.sumPositiveDaysProfit
    let computed := max (arith.mul share (ConsistencyRule.comparedProfit ctx.account)) 0
    ((consistencyRuleWith arith (some (.fromEntry e))).Warns ctx ↔
        e.value < ctx.account.largestDayProfit) ↔
      if e.enabled then ctx.account.largestDayProfit ∉ Set.uIoc computed e.value
      else ctx.account.largestDayProfit ≤ e.value := by
  intro share computed
  rw [money_warns_iff arith h htype hdays htotal]
  split
  · rename_i henabled
    rw [and_iff_right henabled]
    exact lt_iff_lt_iff
  · rename_i hdisabled
    rw [iff_false_left (not_and_of_not_left _ hdisabled), not_lt]

/-- Without rounding the two caps differ only under a plan that counts all days. -/
theorem money_consistency_cap_exact (h : e.MoneyLimit "consistency") (henabled : e.enabled = true)
    (htype : ctx.account.plan.consistencyType = .bestDayPctOfPositiveDays)
    (hdays : 0 < ctx.account.sumPositiveDaysProfit) (htotal : 0 < ctx.account.totalRealizedPnl) :
    (consistencyRule (some (.fromEntry e))).Warns ctx ↔ e.value < ctx.account.largestDayProfit := by
  have hcap : e.value / ctx.account.sumPositiveDaysProfit * ConsistencyRule.comparedProfit ctx.account =
      e.value := by
    rw [ConsistencyRule.comparedProfit, if_neg (by rw [htype]; decide), div_mul_cancel₀ _ hdays.ne']
  refine (money_warns_iff .exact h (by rw [htype]; decide) hdays htotal).trans ?_
  rw [and_iff_right henabled]
  change max (_ / _ * _) 0 < _ ↔ _
  rw [hcap, max_eq_left h.value_pos.le]

/-- An account with its best day, all its profit and that of its winning days. -/
def profitContext (consistencyType : ConsistencyType) (best total winning : Money) : RuleContext :=
  let ctx := dayContext { ChallengePlan.default ⟨1⟩ 0 with consistencyType } 10000 10000
  { ctx with
    account :=
      { ctx.account with
        totalRealizedPnl := total
        sumPositiveDaysProfit := winning
        largestDayProfit := best } }

theorem money_consistency_cap_winning_days :
    (consistencyRuleWith .rounded (some (.fromEntry (moneyEntry "consistency" .static 600)))).Warns
        (profitContext .bestDayPctOfPositiveDays 700 1000 2000) ∧
      (600 : Money) < 700 := by
  have hbest : (600 : Money) < 700 := by decide +kernel
  have hdays : 0 < (profitContext .bestDayPctOfPositiveDays 700 1000 2000).account.sumPositiveDaysProfit := by
    decide +kernel
  have hiff := (money_consistency_cap_iff .rounded (e := moneyEntry "consistency" .static 600)
    ⟨rfl, rfl, by decide +kernel⟩ (by decide) hdays (by decide +kernel)).mpr
  refine ⟨(hiff ?_).mpr hbest, hbest⟩
  rw [if_pos (by decide)]
  exact fun hmem => absurd (Set.mem_uIoc.mp hmem) (by decide +kernel)

/-- A best day of 500 under a cap of 600. Half of the profit of the winning days was lost again, and the rule
has the cap at 300. And a best day of 10000 under a cap of 10000: of 30000 the rule has the cap below it by the
last digit. -/
theorem money_consistency_cap_scaled :
    ((moneyEntry "consistency" .static 600).MoneyLimit "consistency" ∧
        (profitContext .bestDayPctOfTotal 500 1000 2000).account.largestDayProfit < 600 ∧
        (consistencyRuleWith .rounded (some (.fromEntry (moneyEntry "consistency" .static 600)))).Warns
          (profitContext .bestDayPctOfTotal 500 1000 2000)) ∧
      (thirdEntry "consistency").MoneyLimit "consistency" ∧
        (profitContext .bestDayPctOfPositiveDays 10000 30000 30000).account.largestDayProfit ≤ 10000 ∧
        (consistencyRuleWith .rounded (some (.fromEntry (thirdEntry "consistency")))).Warns
          (profitContext .bestDayPctOfPositiveDays 10000 30000 30000) := by
  refine ⟨⟨⟨rfl, rfl, by decide +kernel⟩, by decide +kernel, ?_⟩, ⟨rfl, rfl, by decide +kernel⟩,
    by decide +kernel, ?_⟩
  · unfold StdRule.Warns
    decide +kernel
  · unfold StdRule.Warns
    decide +kernel

end Propfirm
