import Mathlib.Algebra.Order.Group.Unbundled.Int
import Mathlib.Data.Int.ConditionallyCompleteOrder
import Mathlib.Data.Int.LeastGreatest
import Mathlib.Data.Int.SuccPred
import Mathlib.Order.Interval.Finset.SuccPred
import Mathlib.Order.SuccPred.Archimedean
import Mathlib.Tactic.Linarith
import Mathlib.Tactic.Ring

/-!
# Clocks that are set forward and back

A clock shows `clock t` at the instant `t`. It may be set, but within a period by less than a period:
what it showed may be repeated or skipped, yet whole periods follow one another. A mark is an instant at
which the clock shows a fixed time of the period.
-/

namespace Propfirm.Clock

variable {clock ρ f : ℤ → ℤ} {period t u a b d : ℤ}

/-! ## Periods -/

structure Steady (clock : ℤ → ℤ) (period : ℤ) : Prop where
  pos : 0 < period
  drift_lt : ∀ {t u}, t ≤ u → u ≤ t + period → |clock u - u - (clock t - t)| < period

namespace Steady

theorem lt_add_period (h : Steady clock period) (t : ℤ) : clock t < clock (t + period) := by
  have hpos := h.pos
  have hdrift := abs_lt.mp (h.drift_lt (show t ≤ t + period by omega) le_rfl)
  omega

theorem add_le_add_periods (h : Steady clock period) (t : ℤ) (k : ℕ) :
    clock t + k ≤ clock (t + k * period) := by
  induction k with
  | zero => simp
  | succ k ih =>
      have hnext := h.lt_add_period (t + k * period)
      have hsucc : t + k * period + period = t + (k + 1 : ℕ) * period := by push_cast; ring
      rw [hsucc] at hnext
      push_cast at hnext ⊢
      omega

/-- The clock is never set back by a period. -/
theorem lt_add_of_le (h : Steady clock period) (hle : t ≤ u) : clock t < clock u + period := by
  have hpos := h.pos
  obtain ⟨k, hk⟩ := Int.eq_ofNat_of_zero_le (Int.ediv_nonneg (sub_nonneg.mpr hle) hpos.le)
  have hbelow := Int.ediv_mul_le (u - t) hpos.ne'
  have habove := Int.lt_ediv_add_one_mul_self (u - t) hpos
  rw [hk] at hbelow habove
  have hperiods := h.add_le_add_periods t k
  have hdrift := abs_lt.mp (h.drift_lt (show t + k * period ≤ u by linarith)
    (show u ≤ t + k * period + period by linarith))
  linarith [Int.natCast_nonneg k]

theorem lt_of_add_le (h : Steady clock period) (hle : clock t + period ≤ clock u) : t < u := by
  by_contra hnot
  exact absurd (h.lt_add_of_le (not_lt.mp hnot)) (not_lt.mpr hle)

/-- What the clock shows two periods later comes more than a period later. -/
theorem add_lt_of_two_periods (h : Steady clock period) (hle : clock t + 2 * period ≤ clock u) :
    t + period < u := by
  have hpos := h.pos
  have hlt : t < u := h.lt_of_add_le (by omega)
  by_contra hnot
  have hdrift := abs_lt.mp (h.drift_lt hlt.le (not_lt.mp hnot))
  omega

end Steady

/-- What rises by at most one in each step takes every value between two of its values. -/
theorem exists_eq_of_step (hstep : ∀ t, f (t + 1) ≤ f t + 1) (hab : a ≤ b) (ha : f a ≤ d)
    (hb : d ≤ f b) : ∃ t, f t = d := by
  induction b, hab using Int.leInduction with
  | base => exact ⟨a, le_antisymm ha hb⟩
  | succ b _ ih =>
      rcases le_or_gt d (f b) with hle | hlt
      · exact ih hle
      · exact ⟨b + 1, le_antisymm ((hstep b).trans hlt) hb⟩

/-- Every period comes. -/
theorem Steady.exists_period (h : Steady clock period) (d : ℤ) : ∃ t, clock t / period = d := by
  have hpos := h.pos
  have hstep (t : ℤ) : clock (t + 1) / period ≤ clock t / period + 1 := by
    have hdrift := abs_lt.mp (h.drift_lt (show t ≤ t + 1 by omega) (by omega))
    calc clock (t + 1) / period
        ≤ (clock t + 1 * period) / period := Int.ediv_le_ediv hpos (by omega)
      _ = clock t / period + 1 := Int.add_mul_ediv_right _ _ hpos.ne'
  -- far enough back and ahead the clock is beyond any value
  obtain ⟨k, hk⟩ : ∃ k : ℕ, |d * period - clock 0| = k := Int.eq_ofNat_of_zero_le (abs_nonneg _)
  have hbound := abs_le.mp hk.le
  have hahead := h.add_le_add_periods 0 k
  have hback := h.add_le_add_periods (-(k * period)) k
  rw [neg_add_cancel] at hback
  have hspan : 0 ≤ k * period := mul_nonneg (Int.natCast_nonneg k) hpos.le
  refine exists_eq_of_step hstep (show -(k * period) ≤ 0 + k * period by omega) ?_ ?_
  · exact Int.ediv_le_of_le_mul hpos (by omega)
  · exact (Int.le_ediv_iff_mul_le hpos).mpr (by omega)

/-! ## Marks -/

/-- Every instant lies between two marks in a row. -/
theorem exists_between (hρ : StrictMono ρ) (t : ℤ) : ∃ d, ρ d ≤ t ∧ t < ρ (d + 1) := by
  obtain ⟨_, ⟨above, rfl⟩, habove⟩ := not_bddAbove_iff.mp hρ.not_bddAbove_range_of_isSuccArchimedean t
  obtain ⟨_, ⟨below, rfl⟩, hbelow⟩ := not_bddBelow_iff.mp hρ.not_bddBelow_range_of_isPredArchimedean t
  have hbounded : ∃ z, ∀ d, ρ d ≤ t → d ≤ z :=
    ⟨above, fun d hd => (hρ.lt_iff_lt.mp (hd.trans_lt habove)).le⟩
  obtain ⟨d, hd, hgreatest⟩ := Int.exists_greatest_of_bdd hbounded ⟨below, hbelow.le⟩
  refine ⟨d, hd, ?_⟩
  by_contra hnot
  exact absurd (hgreatest (d + 1) (not_lt.mp hnot)) (by omega)

theorem index_le (hρ : StrictMono ρ) (hd : ρ d ≤ t) (ha : t < ρ (a + 1)) : d ≤ a :=
  Int.lt_add_one_iff.mp (hρ.lt_iff_lt.mp (hd.trans_lt ha))

/-- What is monotone, keeps the marks and leads back to one of them leads back to the last. -/
theorem eq_last_mark (hρ : StrictMono ρ) (hmono : Monotone f) (hfix : ∀ d, f (ρ d) = ρ d)
    (hle : f t ≤ t) (hmark : f t = ρ a) (hd : ρ d ≤ t) (hlt : t < ρ (d + 1)) : f t = ρ d := by
  have hback : ρ d ≤ ρ a := by
    rw [← hfix d, ← hmark]
    exact hmono hd
  have hlast : a ≤ d := index_le hρ (hmark ▸ hle) hlt
  rw [hmark, le_antisymm (hρ.monotone hlast) hback]

/-- The instants at which the clock shows the time `r` of each period, each shown once. -/
def Marks (clock : ℤ → ℤ) (period r : ℤ) (ρ : ℤ → ℤ) : Prop :=
  ∀ d u, clock u = d * period + r ↔ u = ρ d

variable {r : ℤ}

theorem Marks.clock_eq (h : Marks clock period r ρ) (d : ℤ) : clock (ρ d) = d * period + r :=
  (h d (ρ d)).mpr rfl

theorem Marks.strictMono (h : Marks clock period r ρ) (hclock : Steady clock period) : StrictMono ρ := by
  refine strictMono_int_of_lt_succ fun d => hclock.lt_of_add_le ?_
  rw [h.clock_eq, h.clock_eq]
  exact (by ring : _ = _).le

theorem Marks.add_lt (h : Marks clock period r ρ) (hclock : Steady clock period) (d : ℤ) :
    ρ d + period < ρ (d + 2) := by
  refine hclock.add_lt_of_two_periods ?_
  rw [h.clock_eq, h.clock_eq]
  exact (by ring : _ = _).le

end Propfirm.Clock
