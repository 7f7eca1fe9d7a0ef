import Mathlib.Data.Rat.Floor

/-!
# Truncation towards zero

Less than one is cut off, above zero and below it.
-/

namespace Propfirm.Truncation

variable {q : ℚ} {n : ℤ}

def trunc (q : ℚ) : ℤ := q.num.tdiv q.den

theorem trunc_intCast (n : ℤ) : trunc n = n := by simp [trunc]

theorem trunc_neg (q : ℚ) : trunc (-q) = -trunc q := by simp [trunc, Int.neg_tdiv]

theorem trunc_eq_floor (h : 0 ≤ q) : trunc q = ⌊q⌋ := by
  rw [trunc, Int.tdiv_eq_ediv_of_nonneg (Rat.num_nonneg.mpr h), Rat.floor_def']

theorem trunc_eq_ceil (h : q ≤ 0) : trunc q = ⌈q⌉ := by
  rw [← neg_neg q, trunc_neg, trunc_eq_floor (neg_nonneg.mpr h), Int.ceil_neg]

theorem sub_one_lt_trunc (q : ℚ) : q - 1 < trunc q := by
  rcases le_total 0 q with hq | hq
  · rw [trunc_eq_floor hq]
    exact Int.sub_one_lt_floor q
  · rw [trunc_eq_ceil hq]
    exact (sub_one_lt q).trans_le (Int.le_ceil q)

theorem le_trunc_iff (hn : 0 < n) : n ≤ trunc q ↔ (n : ℚ) ≤ q := by
  rcases le_total 0 q with hq | hq
  · rw [trunc_eq_floor hq, Int.le_floor]
  · have hceil : ⌈q⌉ ≤ 0 := Int.ceil_le.mpr (by exact_mod_cast hq)
    have hcast : (0 : ℚ) < n := by exact_mod_cast hn
    rw [trunc_eq_ceil hq]
    exact iff_of_false (hceil.trans_lt hn).not_ge (hq.trans_lt hcast).not_ge

theorem trunc_le_iff (hn : n < 0) : trunc q ≤ n ↔ q ≤ n := by
  rw [← neg_le_neg_iff, ← trunc_neg, le_trunc_iff (neg_pos.mpr hn), Int.cast_neg, neg_le_neg_iff]

theorem trunc_outside_iff (hn : 0 < n) :
    ¬(-n ≤ trunc q ∧ trunc q < n) ↔ q ≤ -n - 1 ∨ (n : ℚ) ≤ q := by
  have hlow := @trunc_le_iff q (-n - 1) (by omega)
  rw [Int.cast_sub, Int.cast_neg, Int.cast_one] at hlow
  rw [← hlow, ← le_trunc_iff hn]
  omega

end Propfirm.Truncation
