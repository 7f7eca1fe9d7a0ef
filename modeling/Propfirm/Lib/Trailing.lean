import Mathlib.Algebra.Order.Field.Basic
import Mathlib.Tactic.Linarith
import Mathlib.Tactic.Ring

/-!
# A level that trails the highest value

The level lies a rate below the highest value so far, the present one included. A value that moves
takes the level along by less than its own move.
-/

namespace Propfirm.Trailing

variable {K : Type} [Field K] [LinearOrder K] [IsStrictOrderedRing K] {rate d : K}

def level (rate peak x : K) : K := max peak x - rate * max peak x

theorem max_add_le (peak x : K) (hd : 0 ≤ d) : max peak (x + d) ≤ max peak x + d :=
  max_le (by linarith [le_max_left peak x]) (by linarith [le_max_right peak x])

theorem level_add_le (hr : 0 ≤ rate) (hd : 0 ≤ d) (peak x : K) :
    level rate peak (x + d) ≤ level rate peak x + d := by
  have hrise : 0 ≤ max peak (x + d) - max peak x :=
    sub_nonneg.mpr (max_le_max le_rfl (by linarith))
  have hbound := max_add_le peak x hd
  have hpart := mul_nonneg hr hrise
  unfold level
  linarith

theorem level_add_lt (hr : 0 < rate) (hd : 0 < d) (peak x : K) :
    level rate peak (x + d) < level rate peak x + d := by
  rcases (max_add_le peak x hd.le).lt_or_eq with hlt | heq
  · have hrise : 0 ≤ max peak (x + d) - max peak x :=
      sub_nonneg.mpr (max_le_max le_rfl (by linarith))
    have hpart := mul_nonneg hr.le hrise
    unfold level
    linarith
  · -- the highest value moved by all of `d`, and the level by less
    have hpart := mul_pos hr hd
    unfold level
    rw [heq]
    linarith

/-- Some value lies exactly a given gap below its own level. -/
theorem exists_eq_level_sub (hr : 0 < rate) (peak gap : K) : ∃ x, x = level rate peak x - gap := by
  rcases le_or_gt (peak - rate * peak - gap) peak with hle | hlt
  · refine ⟨peak - rate * peak - gap, ?_⟩
    rw [level, max_eq_left hle]
  · have hmul : rate * (-gap / rate) = -gap := mul_div_cancel₀ _ hr.ne'
    have hpeak : peak ≤ -gap / rate := by
      rw [le_div_iff₀ hr]
      linarith
    refine ⟨-gap / rate, ?_⟩
    rw [level, max_eq_right hpeak, hmul]
    ring

end Propfirm.Trailing
