import Mathlib.Algebra.Order.BigOperators.Group.List
import Mathlib.Tactic.Linarith
import Propfirm.Risk.Metrics

/-!
# Statistics of trade results
-/

namespace Propfirm.Metrics

variable {trades : List Money}

/-! ## Profits and losses -/

theorem mem_wins {p : Money} : p ∈ wins trades ↔ p ∈ trades ∧ 0 < p := by
  simp [wins]

theorem mem_losses {p : Money} : p ∈ losses trades ↔ p ∈ trades ∧ p < 0 := by
  simp [losses]

theorem grossProfit_eq_zero_iff : grossProfit trades = 0 ↔ ∀ p ∈ trades, p ≤ 0 := by
  have hnonneg : ∀ p ∈ wins trades, 0 ≤ p := fun p hp => (mem_wins.mp hp).2.le
  constructor
  · intro hzero p hp
    by_contra hpos
    have hwin : p ∈ wins trades := mem_wins.mpr ⟨hp, not_le.mp hpos⟩
    exact hpos (List.all_zero_of_le_zero_le_of_sum_eq_zero hnonneg hzero hwin).le
  · intro hnone
    have hempty : wins trades = [] := List.eq_nil_iff_forall_not_mem.mpr fun p hp =>
      not_lt.mpr (hnone p (mem_wins.mp hp).1) (mem_wins.mp hp).2
    rw [grossProfit, hempty, List.sum_nil]

theorem grossLoss_eq_zero_iff : grossLoss trades = 0 ↔ ∀ p ∈ trades, 0 ≤ p := by
  have hnonneg : ∀ x ∈ (losses trades).map abs, 0 ≤ x := by
    intro x hx
    obtain ⟨p, -, rfl⟩ := List.mem_map.mp hx
    exact abs_nonneg p
  constructor
  · intro hzero p hp
    by_contra hneg
    have hloss : p ∈ losses trades := mem_losses.mpr ⟨hp, not_le.mp hneg⟩
    have habs : |p| = 0 :=
      List.all_zero_of_le_zero_le_of_sum_eq_zero hnonneg hzero (List.mem_map_of_mem hloss)
    exact hneg (abs_eq_zero.mp habs).ge
  · intro hnone
    have hempty : losses trades = [] := List.eq_nil_iff_forall_not_mem.mpr fun p hp =>
      not_lt.mpr (hnone p (mem_losses.mp hp).1) (mem_losses.mp hp).2
    rw [grossLoss, hempty, List.map_nil, List.sum_nil]

theorem grossProfit_cons (p : Money) (trades : List Money) :
    grossProfit (p :: trades) = max p 0 + grossProfit trades := by
  by_cases hp : 0 < p
  · simp [grossProfit, wins, hp, hp.le]
  · simp [grossProfit, wins, hp, not_lt.mp hp]

theorem grossLoss_cons (p : Money) (trades : List Money) :
    grossLoss (p :: trades) = max (-p) 0 + grossLoss trades := by
  by_cases hp : p < 0
  · simp [grossLoss, losses, hp, hp.le, abs_of_neg hp]
  · simp [grossLoss, losses, hp, not_lt.mp hp]

theorem sum_eq_profit_sub_loss (trades : List Money) :
    trades.sum = grossProfit trades - grossLoss trades := by
  induction trades with
  | nil => simp [grossProfit, grossLoss, wins, losses]
  | cons p trades ih =>
      have hparts : p = max p 0 - max (-p) 0 := by
        rcases le_total p 0 with hp | hp
        · rw [max_eq_right hp, max_eq_left (neg_nonneg.mpr hp), zero_sub, neg_neg]
        · rw [max_eq_left hp, max_eq_right (neg_nonpos.mpr hp), sub_zero]
      rw [List.sum_cons, ih, grossProfit_cons, grossLoss_cons]
      linarith

/-- A number of trades times their average is their sum, also where there are none. -/
theorem length_mul_average (xs : List Decimal) :
    (xs.length : Decimal) * (if xs.length = 0 then 0 else xs.sum / xs.length) = xs.sum := by
  split
  · rename_i hnil
    rw [List.length_eq_zero_iff.mp hnil, List.sum_nil, mul_zero]
  · rename_i hne
    exact mul_div_cancel₀ _ (Nat.cast_ne_zero.mpr hne)

/-- The number of trades times the expectancy is what the wins make on average less what the losses cost. -/
theorem tradeStats_expectancy (trades : List Money) :
    (tradeStats trades).total * (tradeStats trades).expectancy =
      (tradeStats trades).wins * (tradeStats trades).avgWin -
        (tradeStats trades).losses * (tradeStats trades).avgLoss := by
  by_cases hne : trades = []
  · simp [tradeStats, hne]
  · have hwins := length_mul_average (wins trades)
    have hlosses := length_mul_average ((losses trades).map abs)
    have hsum : (trades.length : Decimal) * expectancy trades = trades.sum := by
      rw [expectancy, if_neg hne]
      exact mul_div_cancel₀ _ (Nat.cast_ne_zero.mpr (List.length_pos_iff.mpr hne).ne')
    rw [List.length_map] at hlosses
    simp only [tradeStats, if_neg hne]
    rw [hsum, sum_eq_profit_sub_loss]
    exact congrArg₂ (· - ·) hwins.symm hlosses.symm

end Propfirm.Metrics

namespace Propfirm

open Metrics

/-- Where there are profits and no losses, the reported factor is 100 and the other one is the profit. -/
theorem profit_factors_agree_iff (equity trades : List Money) :
    (tradeStats trades).profitFactor = profitFactor trades ∧
        (RiskMetrics.compute equity trades).profitFactor = profitFactor trades ↔
      (∃ p ∈ trades, p < 0) ∨ (∀ p ∈ trades, p ≤ 0) ∨ grossProfit trades = 100 := by
  have hcompute : (RiskMetrics.compute equity trades).profitFactor = (tradeStats trades).profitFactor := rfl
  rw [hcompute, and_self]
  have hstats : (tradeStats trades).profitFactor =
      if grossLoss trades = 0 then if grossProfit trades = 0 then 0 else 100
      else grossProfit trades / grossLoss trades := by
    unfold tradeStats
    split
    · rename_i hnil
      rw [hnil]
      rfl
    · rfl
  rw [hstats, profitFactor]
  by_cases hloss : grossLoss trades = 0
  · have hnone : ¬∃ p ∈ trades, p < 0 := by
      rintro ⟨p, hp, hneg⟩
      exact not_le.mpr hneg (grossLoss_eq_zero_iff.mp hloss p hp)
    rw [if_pos hloss, if_pos hloss, or_iff_right hnone, ← grossProfit_eq_zero_iff]
    split
    · rename_i hprofit
      exact iff_of_true rfl (.inl hprofit)
    · rename_i hprofit
      rw [or_iff_right hprofit, eq_comm]
  · rw [if_neg hloss, if_neg hloss]
    refine iff_of_true rfl (.inl ?_)
    by_contra hnone
    push Not at hnone
    exact hloss (grossLoss_eq_zero_iff.mpr hnone)

/-- One winning trade of 50. -/
theorem profit_factors_without_losses :
    (RiskMetrics.compute [] [50]).profitFactor = 100 ∧ profitFactor [50] = 50 := by
  decide +kernel

end Propfirm
