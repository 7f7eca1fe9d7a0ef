import Propfirm.Api.Evaluate
import Propfirm.Engine.Theorems.Floors
import Propfirm.Lemmas.Conversions
import Propfirm.Rules.Theorems.Utilization

/-!
# Floor hints

A hint is a floor in whole cents. An equity that is not below it is meant to be safe from the rule.
-/

namespace Propfirm

open Threshold Truncation

variable {ctx : RuleContext} {a : Account} {balance : Money} {e : ℤ}

/-! ## Cents -/

/-- The amount in cents fits into the integers that a hint is made of. -/
def FitsCents (m : Money) : Prop := (Decimal.toI64? (m * 100)).isSome

instance (m : Money) : Decidable (FitsCents m) := inferInstanceAs (Decidable (_ = true))

theorem toCents_eq {m : Money} (h : FitsCents m) : toCents m = trunc (m * 100) := by
  obtain ⟨cents, hcents⟩ := Option.isSome_iff_exists.mp h
  rw [toCents, hcents, trunc_of_toI64?_some hcents, Option.getD_some]

/-- A cent is more than what is cut off. -/
theorem sub_cent_lt_toCents {m : Money} (h : FitsCents m) : m - 1 / 100 < toCents m / 100 := by
  have hcut := sub_one_lt_trunc (m * 100)
  rw [toCents_eq h]
  linarith

/-! ## Hints -/

namespace Account

def BelowTotalHint (a : Account) (e : ℤ) : Prop :=
  ∃ hints ∈ a.computeFloorHints, ∃ cents ∈ hints.floorTotalCents, e < cents

def BelowDailyHint (a : Account) (e : ℤ) : Prop :=
  ∃ hints ∈ a.computeFloorHints, ∃ cents ∈ hints.floorDailyCents, e < cents

theorem computeFloorHints_eq (h : a.floorTotalCents.isSome ∨ a.floorDailyCents.isSome) :
    a.computeFloorHints = some ⟨a.floorDailyCents, a.floorTotalCents, a.targetEquityCents, a.version⟩ := by
  refine if_neg fun hnone => ?_
  simp only [Bool.and_eq_true, Option.isNone_iff_eq_none] at hnone
  rcases h with h | h
  · simp [hnone.1.2] at h
  · simp [hnone.1.1] at h

theorem belowTotalHint_iff {cents : ℤ} (h : a.floorTotalCents = some cents) :
    a.BelowTotalHint e ↔ e < cents := by
  simp [BelowTotalHint, computeFloorHints_eq (.inl (Option.isSome_iff_exists.mpr ⟨_, h⟩)), h]

theorem belowDailyHint_iff {cents : ℤ} (h : a.floorDailyCents = some cents) :
    a.BelowDailyHint e ↔ e < cents := by
  simp [BelowDailyHint, computeFloorHints_eq (.inr (Option.isSome_iff_exists.mpr ⟨_, h⟩)), h]

theorem floorTotalCents_eq (hbasis : a.plan.drawdownOnBalance = false)
    (hpct : 0 < a.plan.maxTotalDrawdownPct) :
    a.floorTotalCents = some (toCents (a.maxDrawdownFloor a.plan.maxLossReference)) := by
  unfold floorTotalCents maxDrawdownFloor
  rw [MaxDrawdownRule.floor_eq]
  unfold MaxDrawdownRule.peak
  rw [if_neg (by simp [hbasis, hpct])]
  cases a.plan.maxLossReference <;> simp [hbasis]

end Account

/-! ## The hint of the maximum drawdown -/

theorem cents_lt_iff {c : ℤ} : (e : Money) / 100 < c / 100 ↔ e < c := by
  rw [div_lt_div_iff_of_pos_right (by norm_num), Int.cast_lt]

theorem toleranceMoney_one : toleranceMoney 1 = 1 / 100 := by simp [toleranceMoney]

/-- The hint is the floor of the rule in whole cents, and the rule waits for one more cent. -/
theorem total_hint_covers (hstarted : ctx.account.startedAt.isSome)
    (hbasis : ctx.account.plan.drawdownOnBalance = false) (hpct : 0 < ctx.account.plan.maxTotalDrawdownPct)
    (hfits : FitsCents (ctx.account.maxDrawdownFloor ctx.account.plan.maxLossReference))
    (h : (maxDrawdownRule none).Liquidates (ctx.atEquity (e / 100) balance)) :
    ctx.account.BelowTotalHint e := by
  have heffective : 0 < MaxDrawdownRule.effectivePct none (ctx.atEquity (e / 100) balance) := hpct
  have hbreach := (MaxDrawdownRule.liquidates_iff (RuleContext.atEquity_reports hstarted) heffective).mp h
  have hmeasured : (ctx.atEquity (e / 100) balance).account.measured (e / 100) = e / 100 :=
    if_neg (by simp [RuleContext.atEquity, hbasis])
  have hfloor : MaxDrawdownRule.effectiveFloor none (ctx.atEquity (e / 100) balance) =
      ctx.account.maxDrawdownFloor ctx.account.plan.maxLossReference := rfl
  have htolerance : toleranceMoney (MaxDrawdownRule.toleranceCents none) = 1 / 100 := toleranceMoney_one
  rw [hmeasured, hfloor, htolerance] at hbreach
  rw [Account.belowTotalHint_iff (Account.floorTotalCents_eq hbasis hpct), ← cents_lt_iff]
  exact hbreach.trans (sub_cent_lt_toCents hfits)

def ruinPlan : ChallengePlan :=
  { ChallengePlan.default ⟨1⟩ 0 with maxTotalDrawdownPct := 10000005 / 10000000 }

/-- The floor is half a cent below zero, its hint is zero, and the rule liquidates from two cents below zero
on. -/
theorem total_hint_covers_below_zero :
    (dayContext ruinPlan 10000 10000).account.BelowTotalHint (-2) := by
  have hliquidates : (maxDrawdownRule none).Liquidates
      ((dayContext ruinPlan 10000 10000).atEquity ((-2 : ℤ) / 100) 10000) := by
    unfold StdRule.Liquidates
    decide +kernel
  exact total_hint_covers rfl rfl (by decide +kernel) (by decide +kernel) hliquidates

/-! ## The hint of the daily drawdown -/

/-- The floor that the daily hint is made of: the limit below the amount it is a fraction of. -/
def Account.dailyHintFloor (a : Account) : Money :=
  a.dailyReference - a.plan.maxDailyDrawdownPct * a.dailyReference

theorem Account.floorDailyCents_eq (hbasis : a.plan.drawdownOnBalance = false)
    (hpct : 0 < a.plan.maxDailyDrawdownPct) (htype : a.plan.dailyLossType ≠ .none) :
    a.floorDailyCents = some (toCents a.dailyHintFloor) := by
  unfold floorDailyCents dailyHintFloor dailyReference dayStart intradayPeak
  rw [if_neg (by simp [hbasis, hpct])]
  cases h : a.plan.dailyLossType with
  | none => exact absurd h htype
  | pctInitial | pctPriorDay | trailingIntradayHigh => simp [hbasis]

section Daily

variable (hstarted : ctx.account.startedAt.isSome) (hbasis : ctx.account.plan.drawdownOnBalance = false)
  (hpct : 0 < ctx.account.plan.maxDailyDrawdownPct) (htype : ctx.account.plan.dailyLossType ≠ .none)
  (hhard : ctx.account.plan.dailyLossSoft = false)

include hstarted hbasis hpct htype hhard

theorem daily_liquidates_at_iff {equity : Money} :
    (dailyDrawdownRule none).Liquidates (ctx.atEquity equity balance) ↔
      ctx.account.plan.maxDailyDrawdownPct * ctx.account.dailyReference + 1 / 100 <
        max (ctx.account.dailyAnchor - equity) 0 := by
  have heffective : 0 < DailyDrawdownRule.effectivePct none (ctx.atEquity equity balance) := hpct
  have hcurrent : (ctx.atEquity equity balance).account.current = equity :=
    if_neg (by simp [RuleContext.atEquity, hbasis])
  rw [DailyDrawdownRule.liquidates_iff (RuleContext.atEquity_reports hstarted) heffective
    (referenceAndLoss_eq htype), hcurrent]
  have htolerance : toleranceMoney (DailyDrawdownRule.toleranceCents none) = 1 / 100 := toleranceMoney_one
  rw [htolerance]
  exact and_iff_right hhard

/-- The rule measures the loss from the start of the day or from the peak, the hint from the amount that the
limit is a fraction of. The two differ when the limit is a fraction of the initial balance. -/
theorem daily_hint_covers_iff (hfits : FitsCents ctx.account.dailyHintFloor) :
    (∀ e : ℤ, (e : Money) / 100 ≤ ctx.account.equity →
        (dailyDrawdownRule none).Liquidates (ctx.atEquity (e / 100) balance) →
        ctx.account.BelowDailyHint e) ↔
      ((toCents ctx.account.dailyHintFloor : Money) / 100 ≤ ctx.account.equity →
        0 ≤ ctx.account.plan.maxDailyDrawdownPct * ctx.account.dailyReference + 1 / 100 ∧
          (ctx.account.plan.dailyLossType = .pctInitial →
            ctx.account.dayStartEquity - toCents ctx.account.dailyHintFloor / 100 ≤
              ctx.account.plan.maxDailyDrawdownPct * ctx.account.initialBalance + 1 / 100)) := by
  simp only [daily_liquidates_at_iff hstarted hbasis hpct htype hhard,
    Account.belowDailyHint_iff (Account.floorDailyCents_eq hbasis hpct htype)]
  -- the rule liquidates at every equity below one that it liquidates at
  have hcents {c d : ℤ} (hle : c ≤ d) : (c : Money) / 100 ≤ d / 100 := by
    rw [div_le_div_iff_of_pos_right (by norm_num)]
    exact_mod_cast hle
  rw [forall_lt_iff (fun c d hle hd => (hcents hle).trans hd)
    (fun c d hle hd => hd.trans_le (max_le_max_right 0 (sub_le_sub_left (hcents hle) _)))]
  refine imp_congr_right fun _ => ?_
  rw [not_lt, max_le_iff, and_comm]
  refine and_congr_right fun _ => ?_
  by_cases hinitial : ctx.account.plan.dailyLossType = .pctInitial
  · rw [imp_iff_right hinitial]
    simp [Account.dailyAnchor, Account.dailyReference, Account.dayStart, hinitial, hbasis]
  · refine iff_of_true ?_ fun heq => absurd heq hinitial
    have hanchor : ctx.account.dailyAnchor = ctx.account.dailyReference := by
      unfold Account.dailyAnchor Account.dailyReference
      cases h : ctx.account.plan.dailyLossType with
      | pctInitial => exact absurd h hinitial
      | none | pctPriorDay | trailingIntradayHigh => rfl
    have hcut := sub_cent_lt_toCents hfits
    unfold Account.dailyHintFloor at hcut ⊢
    linarith

end Daily

theorem daily_hint_covers_first_day :
    FitsCents (dayContext fixedDailyPlan 10000 9900).account.dailyHintFloor ∧
      ∀ e : ℤ, (e : Money) / 100 ≤ (dayContext fixedDailyPlan 10000 9900).account.equity →
        (dailyDrawdownRule none).Liquidates
          ((dayContext fixedDailyPlan 10000 9900).atEquity (e / 100) 10000) →
        (dayContext fixedDailyPlan 10000 9900).account.BelowDailyHint e := by
  have hfits : FitsCents (dayContext fixedDailyPlan 10000 9900).account.dailyHintFloor := by decide +kernel
  refine ⟨hfits, (daily_hint_covers_iff rfl rfl (by decide +kernel) (by decide) rfl hfits).mpr fun _ => ?_⟩
  exact ⟨by decide +kernel, fun _ => by decide +kernel⟩

/-- The day started at 11000, so its floor is 10500 and the hint 9500: at 10400 the rule liquidates. -/
theorem daily_hint_misses :
    FitsCents (dayContext fixedDailyPlan 11000 10900).account.dailyHintFloor ∧
      ((1040000 : ℤ) : Money) / 100 ≤ (dayContext fixedDailyPlan 11000 10900).account.equity ∧
      (dailyDrawdownRule none).Liquidates
        ((dayContext fixedDailyPlan 11000 10900).atEquity ((1040000 : ℤ) / 100) 11000) ∧
      ¬(dayContext fixedDailyPlan 11000 10900).account.BelowDailyHint 1040000 := by
  refine ⟨by decide +kernel, by decide +kernel, ?_, ?_⟩
  · unfold StdRule.Liquidates
    decide +kernel
  · rw [Account.belowDailyHint_iff (Account.floorDailyCents_eq rfl (by decide +kernel) (by decide))]
    decide +kernel

end Propfirm
