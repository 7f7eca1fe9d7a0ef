import Mathlib.Order.Interval.Set.UnorderedInterval

/-!
# Two thresholds for one amount

Two checks compare the same amount with thresholds of their own. They agree except on the amounts between
the thresholds.
-/

namespace Propfirm.Threshold

variable {α : Type} [LinearOrder α] {x y z : α}

theorem lt_iff_lt_iff : (x < z ↔ y < z) ↔ z ∉ Set.uIoc x y := by
  rw [Set.mem_uIoc]
  constructor
  · rintro h (⟨hx, hy⟩ | ⟨hy, hx⟩)
    · exact absurd (h.mp hx) (not_lt.mpr hy)
    · exact absurd (h.mpr hy) (not_lt.mpr hx)
  · intro h
    constructor
    · intro hx
      by_contra hy
      exact h (.inl ⟨hx, not_lt.mp hy⟩)
    · intro hy
      by_contra hx
      exact h (.inr ⟨hy, not_lt.mp hx⟩)

theorem le_iff_le_iff : (x ≤ z ↔ y ≤ z) ↔ z ∉ Set.Ico (min x y) (max x y) := by
  rw [Set.mem_Ico, min_le_iff, lt_max_iff]
  constructor
  · rintro h ⟨hreached, hshort⟩
    rcases hshort with hx | hy
    · exact absurd (hreached.elim id h.mpr) (not_le.mpr hx)
    · exact absurd (hreached.elim h.mp id) (not_le.mpr hy)
  · intro h
    constructor
    · intro hx
      by_contra hy
      exact h ⟨.inl hx, .inr (not_le.mp hy)⟩
    · intro hy
      by_contra hx
      exact h ⟨.inr hy, .inl (not_le.mp hx)⟩

/-- Two checks from below. -/
theorem gt_iff_gt_iff : (z < x ↔ z < y) ↔ z ∉ Set.Ico (min x y) (max x y) := by
  rw [← le_iff_le_iff, ← not_le, ← not_le]
  exact not_iff_not

/-- Of two checks that hold from some amount downwards, the amounts that pass both are below `x` if `x` itself
does not pass both. -/
theorem forall_lt_iff {P Q : α → Prop} (hP : ∀ y z, y ≤ z → P z → P y) (hQ : ∀ y z, y ≤ z → Q z → Q y) :
    (∀ z, P z → Q z → z < x) ↔ (P x → ¬Q x) := by
  constructor
  · intro h hp hq
    exact lt_irrefl _ (h x hp hq)
  · intro h z hp hq
    by_contra hle
    exact h (hP _ _ (not_lt.mp hle) hp) (hQ _ _ (not_lt.mp hle) hq)

/-- An amount cut off at zero passes a threshold that is not negative only as it is. -/
theorem lt_max_zero_iff [Zero α] (hx : 0 ≤ x) : x < max z 0 ↔ x < z := by
  rw [lt_max_iff]
  exact or_iff_left hx.not_gt

end Propfirm.Threshold
