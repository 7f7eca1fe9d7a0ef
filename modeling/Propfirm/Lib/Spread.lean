import Mathlib.Algebra.BigOperators.Ring.List
import Mathlib.Algebra.Order.Field.Basic
import Mathlib.Algebra.Order.Ring.Rat
import Mathlib.Analysis.Real.Sqrt

/-!
# Spread of a list

Scaling a list scales its mean, and its variance by the square of the factor. Divided by the mean, an
exact root of the variance stays as it was.
-/

namespace Propfirm.Spread

variable {R : Type} {k v : ℚ}

def mean (l : List ℚ) : ℚ := l.sum / l.length

def variance (l : List ℚ) : ℚ := (l.map fun x => (x - mean l) * (x - mean l)).sum / l.length

theorem mean_map_mul (k : ℚ) (l : List ℚ) : mean (l.map (k * ·)) = k * mean l := by
  rw [mean, mean, List.sum_map_mul_left, List.map_id', List.length_map, mul_div_assoc]

theorem variance_map_mul (k : ℚ) (l : List ℚ) : variance (l.map (k * ·)) = k * k * variance l := by
  have hsquare (x : ℚ) :
      (k * x - k * mean l) * (k * x - k * mean l) = k * k * ((x - mean l) * (x - mean l)) := by
    ring
  simp only [variance, mean_map_mul, List.map_map, Function.comp_def, hsquare, List.sum_map_mul_left,
    List.length_map, mul_div_assoc]

theorem variance_nonneg (l : List ℚ) : 0 ≤ variance l := by
  refine div_nonneg (List.sum_nonneg fun y hy => ?_) (Nat.cast_nonneg _)
  obtain ⟨x, -, rfl⟩ := List.mem_map.mp hy
  exact mul_self_nonneg _

/-! ## Roots -/

/-- Every number that is not negative has its root. -/
def ExactSqrt [Field R] [LinearOrder R] (sqrt : ℚ → Option R) : Prop :=
  ∀ v, 0 ≤ v → ∃ r, sqrt v = some r ∧ 0 ≤ r ∧ r * r = v

theorem exactSqrt_real : ExactSqrt fun v => some (Real.sqrt v) :=
  fun v hv => ⟨Real.sqrt v, rfl, Real.sqrt_nonneg v, Real.mul_self_sqrt (by exact_mod_cast hv)⟩

section Root

variable [Field R] [LinearOrder R] [IsStrictOrderedRing R] {sqrt : ℚ → Option R}

theorem ExactSqrt.scale (h : ExactSqrt sqrt) (hk : 0 ≤ k) (hv : 0 ≤ v) :
    (sqrt (k * k * v)).getD 0 = k * (sqrt v).getD 0 := by
  obtain ⟨r, hr, hnonneg, hsquare⟩ := h v hv
  obtain ⟨r', hr', hnonneg', hsquare'⟩ := h (k * k * v) (mul_nonneg (mul_self_nonneg k) hv)
  have hk' : (0 : R) ≤ k := by exact_mod_cast hk
  rw [hr, hr', Option.getD_some, Option.getD_some, ← mul_self_inj hnonneg' (mul_nonneg hk' hnonneg), hsquare']
  push_cast
  rw [← hsquare]
  ring

/-- The coefficient of variation. -/
def cv (sqrt : ℚ → Option R) (l : List ℚ) : R := (sqrt (variance l)).getD 0 / mean l

theorem cv_map_mul (h : ExactSqrt sqrt) (hk : 0 < k) (l : List ℚ) : cv sqrt (l.map (k * ·)) = cv sqrt l := by
  have hk' : (k : R) ≠ 0 := by exact_mod_cast hk.ne'
  rw [cv, cv, variance_map_mul, mean_map_mul, h.scale hk.le (variance_nonneg l), Rat.cast_mul,
    mul_div_mul_left _ _ hk']

end Root

end Propfirm.Spread
