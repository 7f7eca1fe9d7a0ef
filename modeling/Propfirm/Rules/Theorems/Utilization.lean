import Propfirm.Lib.Threshold
import Propfirm.Rules.Lemmas.Limits
import Mathlib.Algebra.Order.Field.Basic
import Mathlib.Tactic.Linarith

/-!
# Enforced and reported drawdowns

A drawdown rule and the utilization of an account each have a limit and a drawdown of their own. Both are
brought to one form here: the loss since an anchor that is still allowed.
-/

namespace Propfirm

open Threshold

variable {p : RuleParams} {ctx : RuleContext} {a : Account} {balance : Money}

/-- Parameters that leave everything to the plan and tolerate nothing. -/
structure RuleParams.FollowsPlan (p : RuleParams) : Prop where
  value_eq : p.value = none
  basis_eq : p.basis = none
  toleranceCents_eq : p.toleranceCents = some 0

/-! ## Total drawdown -/

theorem one_lt_maxDdUtilization (h : 0 < a.maxDdLimit) :
    1 < a.maxDdUtilization ↔ a.maxDdLimit < a.totalDrawdown := by
  rw [Account.maxDdUtilization, if_neg h.ne', one_lt_div h]

/-- What the end-of-day floor leaves below the balance at the start of the day. -/
def Account.eodBuffer (a : Account) : Money :=
  if a.plan.eodTrailLocksAtStart then
    max (a.plan.maxTotalDrawdownPct * a.initialBalance) (a.dayStartBalance - a.initialBalance)
  else a.plan.maxTotalDrawdownPct * a.initialBalance

theorem lt_eodFloor_iff {x : Money} :
    x < MaxDrawdownRule.floor .eodTrailing a.plan.maxTotalDrawdownPct a ↔
      a.eodBuffer < a.dayStartBalance - x := by
  simp only [MaxDrawdownRule.floor_eq, Account.eodBuffer]
  split
  · rw [lt_min_iff, max_lt_iff]
    constructor
    · rintro ⟨hbuffer, hlock⟩
      exact ⟨by linarith, by linarith⟩
    · rintro ⟨hbuffer, hlock⟩
      exact ⟨by linarith, by linarith⟩
  · constructor <;> intro h <;> linarith

theorem lt_sub_iff_lt_max {limit reference x : Money} (h : 0 < limit) :
    x < reference - limit ↔ limit < max (reference - x) 0 := by
  rw [lt_max_zero_iff h.le]
  exact lt_sub_comm

theorem maxDrawdown_liquidates_iff_floor (hp : p.FollowsPlan) (hstarted : ctx.account.startedAt.isSome)
    (hequity : ctx.equityInput = .brokerReported ctx.account.equity balance)
    (hpct : 0 < ctx.account.plan.maxTotalDrawdownPct) :
    (maxDrawdownRule (some p)).Liquidates ctx ↔
      ctx.account.current < MaxDrawdownRule.floor ctx.account.plan.maxLossReference
        ctx.account.plan.maxTotalDrawdownPct ctx.account := by
  have heffective : MaxDrawdownRule.effectivePct (some p) ctx = ctx.account.plan.maxTotalDrawdownPct := by
    simp [MaxDrawdownRule.effectivePct, MaxDrawdownRule.effectivePctWith, hp.value_eq]
  have hbasis : MaxDrawdownRule.effectiveBasis (some p) ctx = ctx.account.plan.maxLossReference := by
    simp [MaxDrawdownRule.effectiveBasis, hp.basis_eq]
  have htolerance : toleranceMoney (MaxDrawdownRule.toleranceCents (some p)) = 0 := by
    simp [MaxDrawdownRule.toleranceCents, hp.toleranceCents_eq, toleranceMoney]
  have hreports := RuleContext.Reports.of_input hstarted hequity
  rw [MaxDrawdownRule.liquidates_iff hreports (heffective ▸ hpct), htolerance, sub_zero,
    MaxDrawdownRule.effectiveFloor, heffective, hbasis]
  rfl

/-- The rule and the report agree, except under an end-of-day floor: the rule allows a loss of a fixed
fraction of the initial balance, the report one of the balance at the start of the day. -/
theorem max_drawdown_reported_iff (hp : p.FollowsPlan) (hstarted : ctx.account.startedAt.isSome)
    (hequity : ctx.equityInput = .brokerReported ctx.account.equity balance)
    (hpct : 0 < ctx.account.plan.maxTotalDrawdownPct) (hlimit : 0 < ctx.account.maxDdLimit) :
    ((maxDrawdownRule (some p)).Liquidates ctx ↔ 1 < ctx.account.maxDdUtilization) ↔
      (ctx.account.plan.maxLossReference = .eodTrailing →
        ctx.account.dayStartBalance - ctx.account.current ∉
          Set.uIoc ctx.account.eodBuffer
            (ctx.account.plan.maxTotalDrawdownPct * ctx.account.dayStartBalance)) := by
  rw [maxDrawdown_liquidates_iff_floor hp hstarted hequity hpct, one_lt_maxDdUtilization hlimit]
  -- three of the references give the rule the limit that is reported
  cases hbasis : ctx.account.plan.maxLossReference with
  | static | trailing | intradayTrail =>
      simp only [Account.maxDdLimit, hbasis] at hlimit
      refine iff_of_true ?_ fun heq => by cases heq
      simp only [Account.maxDdLimit, Account.totalDrawdown, hbasis]
      exact lt_sub_iff_lt_max hlimit
  | eodTrailing =>
      simp only [Account.maxDdLimit, hbasis] at hlimit
      rw [imp_iff_right rfl, ← lt_iff_lt_iff, lt_eodFloor_iff]
      refine iff_congr Iff.rfl ?_
      simp only [Account.maxDdLimit, Account.totalDrawdown, hbasis]
      exact lt_max_zero_iff hlimit.le

def RuleParams.planOnly : RuleParams where
  value := none
  unit := none
  basis := none
  toleranceCents := some 0
  priority := none
  earlyWarningPct := none
  enabled := true
  paramsJson := ⟨fun _ => none, fun _ => none⟩
  severity := none
  failurePolicy := none

theorem RuleParams.planOnly_followsPlan : RuleParams.planOnly.FollowsPlan := ⟨rfl, rfl, rfl⟩

/-- A tick of an account that started the day at one amount and stands at another. -/
def dayContext (plan : ChallengePlan) (dayStart equity : Money) : RuleContext :=
  { RuleContext.new
      { Account.new ⟨1⟩ ⟨1⟩ plan with
        status := .active
        startedAt := some 0
        balance := dayStart
        equity
        dayStartBalance := dayStart
        dayStartEquity := dayStart
        intradayPeakEquity := dayStart }
      0 (fun _ => ⟨0⟩) 0 with
    kind := .onTick
    equityInput := .brokerReported equity dayStart }

def eodPlan : ChallengePlan := { ChallengePlan.default ⟨1⟩ 0 with maxLossReference := .eodTrailing }

theorem max_drawdown_reported_at_the_floors :
    (maxDrawdownRule (some .planOnly)).Liquidates (dayContext eodPlan 11000 9000) ↔
      1 < (dayContext eodPlan 11000 9000).account.maxDdUtilization :=
  (max_drawdown_reported_iff RuleParams.planOnly_followsPlan rfl rfl (by decide +kernel)
    (by decide +kernel)).mpr fun _ hmem => absurd (Set.mem_uIoc.mp hmem) (by decide +kernel)

theorem max_drawdown_reported_apart :
    (dayContext eodPlan 11000 9950).account.startedAt.isSome ∧
      0 < (dayContext eodPlan 11000 9950).account.maxDdLimit ∧
      ¬((maxDrawdownRule (some .planOnly)).Liquidates (dayContext eodPlan 11000 9950) ↔
        1 < (dayContext eodPlan 11000 9950).account.maxDdUtilization) := by
  refine ⟨rfl, by decide +kernel, fun hiff => ?_⟩
  have hliquidates : (maxDrawdownRule (some .planOnly)).Liquidates (dayContext eodPlan 11000 9950) := by
    unfold StdRule.Liquidates
    decide +kernel
  have hreported : ¬1 < (dayContext eodPlan 11000 9950).account.maxDdUtilization := by decide +kernel
  exact hreported (hiff.mp hliquidates)

/-! ## Daily drawdown -/

theorem one_lt_dailyDdUtilization (h : 0 < a.dailyDdLimit) :
    1 < a.dailyDdUtilization ↔
      a.plan.maxDailyDrawdownPct * a.dayStart < a.dayStart - a.current := by
  have hdrawdown : a.dailyDrawdown = max (a.dayStart - a.current) 0 := by
    simp only [Account.dailyDrawdown, Account.dayStart, Account.current]
    split <;> rfl
  rw [Account.dailyDdUtilization, if_neg h.ne', one_lt_div h, hdrawdown]
  exact lt_max_zero_iff h.le

namespace Account

/-- The amount that the daily limit is a fraction of. -/
def dailyReference (a : Account) : Money :=
  match a.plan.dailyLossType with
  | .none | .pctPriorDay => a.dayStart
  | .pctInitial => a.initialBalance
  | .trailingIntradayHigh => a.intradayPeak

/-- The amount that the daily loss is measured from. -/
def dailyAnchor (a : Account) : Money :=
  match a.plan.dailyLossType with
  | .none | .pctPriorDay | .pctInitial => a.dayStart
  | .trailingIntradayHigh => a.intradayPeak

/-- The loss since the start of the day that the daily limit allows. -/
def dailyAllowance (a : Account) : Money :=
  a.dayStart - a.dailyAnchor + a.plan.maxDailyDrawdownPct * a.dailyReference

end Account

theorem referenceAndLoss_eq (h : a.plan.dailyLossType ≠ .none) :
    DailyDrawdownRule.referenceAndLoss a = some (a.dailyReference, max (a.dailyAnchor - a.current) 0) := by
  simp only [DailyDrawdownRule.referenceAndLoss, Account.dailyReference, Account.dailyAnchor]
  cases htype : a.plan.dailyLossType with
  | none => exact absurd htype h
  | pctInitial | pctPriorDay | trailingIntradayHigh => rfl

theorem dailyDrawdown_liquidates_iff_loss (hp : p.FollowsPlan) (hstarted : ctx.account.startedAt.isSome)
    (hequity : ctx.equityInput = .brokerReported ctx.account.equity balance)
    (htype : ctx.account.plan.dailyLossType ≠ .none) (hhard : ctx.account.plan.dailyLossSoft = false)
    (hpct : 0 < ctx.account.plan.maxDailyDrawdownPct) :
    (dailyDrawdownRule (some p)).Liquidates ctx ↔
      ctx.account.plan.maxDailyDrawdownPct * ctx.account.dailyReference <
        max (ctx.account.dailyAnchor - ctx.account.current) 0 := by
  have heffective : DailyDrawdownRule.effectivePct (some p) ctx = ctx.account.plan.maxDailyDrawdownPct := by
    simp [DailyDrawdownRule.effectivePct, hp.value_eq]
  have htolerance : toleranceMoney (DailyDrawdownRule.toleranceCents (some p)) = 0 := by
    simp [DailyDrawdownRule.toleranceCents, hp.toleranceCents_eq, toleranceMoney]
  have hreports := RuleContext.Reports.of_input hstarted hequity
  rw [DailyDrawdownRule.liquidates_iff hreports (heffective ▸ hpct) (referenceAndLoss_eq htype),
    and_iff_right hhard, htolerance, add_zero, DailyDrawdownRule.effectiveLimit, heffective]

/-- The report always measures the loss and the limit from the start of the day, the rule from where the
plan says. Below zero the rule has no loss left to allow. -/
theorem daily_drawdown_reported_iff (hp : p.FollowsPlan) (hstarted : ctx.account.startedAt.isSome)
    (hequity : ctx.equityInput = .brokerReported ctx.account.equity balance)
    (htype : ctx.account.plan.dailyLossType ≠ .none) (hhard : ctx.account.plan.dailyLossSoft = false)
    (hpct : 0 < ctx.account.plan.maxDailyDrawdownPct) (hlimit : 0 < ctx.account.dailyDdLimit) :
    ((dailyDrawdownRule (some p)).Liquidates ctx ↔ 1 < ctx.account.dailyDdUtilization) ↔
      if 0 ≤ ctx.account.dailyReference then
        ctx.account.dayStart - ctx.account.current ∉
          Set.uIoc ctx.account.dailyAllowance
            (ctx.account.plan.maxDailyDrawdownPct * ctx.account.dayStart)
      else
        ctx.account.plan.maxDailyDrawdownPct * ctx.account.dayStart <
          ctx.account.dayStart - ctx.account.current := by
  rw [dailyDrawdown_liquidates_iff_loss hp hstarted hequity htype hhard hpct,
    one_lt_dailyDdUtilization hlimit]
  split
  · rename_i hreference
    rw [lt_max_zero_iff (mul_nonneg hpct.le hreference), ← lt_iff_lt_iff, Account.dailyAllowance]
    refine iff_congr ?_ Iff.rfl
    constructor <;> intro h <;> linarith
  · rename_i hreference
    have hlt : ctx.account.plan.maxDailyDrawdownPct * ctx.account.dailyReference < 0 :=
      mul_neg_of_pos_of_neg hpct (not_le.mp hreference)
    exact iff_true_left (hlt.trans_le (le_max_right _ _))

def fixedDailyPlan : ChallengePlan := { ChallengePlan.default ⟨1⟩ 0 with dailyLossType := .pctInitial }

theorem daily_drawdown_reported_at_the_limits :
    (dailyDrawdownRule (some .planOnly)).Liquidates (dayContext fixedDailyPlan 11000 10400) ↔
      1 < (dayContext fixedDailyPlan 11000 10400).account.dailyDdUtilization := by
  refine (daily_drawdown_reported_iff RuleParams.planOnly_followsPlan rfl rfl (by decide) rfl
    (by decide +kernel) (by decide +kernel)).mpr ?_
  rw [if_pos (by decide +kernel)]
  exact fun hmem => absurd (Set.mem_uIoc.mp hmem) (by decide +kernel)

theorem daily_drawdown_reported_apart :
    (dayContext fixedDailyPlan 11000 10480).account.startedAt.isSome ∧
      0 < (dayContext fixedDailyPlan 11000 10480).account.dailyDdLimit ∧
      ¬((dailyDrawdownRule (some .planOnly)).Liquidates (dayContext fixedDailyPlan 11000 10480) ↔
        1 < (dayContext fixedDailyPlan 11000 10480).account.dailyDdUtilization) := by
  refine ⟨rfl, by decide +kernel, fun hiff => ?_⟩
  have hliquidates :
      (dailyDrawdownRule (some .planOnly)).Liquidates (dayContext fixedDailyPlan 11000 10480) := by
    unfold StdRule.Liquidates
    decide +kernel
  have hreported : ¬1 < (dayContext fixedDailyPlan 11000 10480).account.dailyDdUtilization := by
    decide +kernel
  exact hreported (hiff.mp hliquidates)

end Propfirm
