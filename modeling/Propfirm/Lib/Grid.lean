import Mathlib.Tactic.Linarith
import Mathlib.Tactic.Ring

/-!
# Points at regular distances

The points `offset + k * period` on the integers, and the last one at or before a position.
-/

namespace Propfirm.Grid

variable {period offset t u : ℤ}

/-- The last point at or before `t`. -/
def floor (period offset t : ℤ) : ℤ := offset + (t - offset) / period * period

def OnGrid (period offset t : ℤ) : Prop := ∃ k, t = offset + k * period

theorem floor_onGrid : OnGrid period offset (floor period offset t) := ⟨_, rfl⟩

theorem OnGrid.next (h : OnGrid period offset t) : OnGrid period offset (t + period) := by
  obtain ⟨k, rfl⟩ := h
  exact ⟨k + 1, by ring⟩

theorem floor_le (hp : 0 < period) (offset t : ℤ) : floor period offset t ≤ t := by
  have := Int.ediv_mul_le (t - offset) hp.ne'
  unfold floor
  omega

theorem lt_floor_add (hp : 0 < period) (offset t : ℤ) : t < floor period offset t + period := by
  have := Int.lt_ediv_add_one_mul_self (t - offset) hp
  unfold floor
  linarith

theorem OnGrid.add_le_of_lt (hp : 0 < period) (ht : OnGrid period offset t)
    (hu : OnGrid period offset u) (h : t < u) : t + period ≤ u := by
  obtain ⟨k, rfl⟩ := ht
  obtain ⟨l, rfl⟩ := hu
  have hkl : k < l := by
    by_contra hle
    have := mul_le_mul_of_nonneg_right (not_lt.mp hle) hp.le
    omega
  have := mul_le_mul_of_nonneg_right (Int.add_one_le_of_lt hkl) hp.le
  linarith

/-- A point at most `t`, and less than a period before it, is the last one. -/
theorem OnGrid.floor_eq (hp : 0 < period) (h : OnGrid period offset u) (hle : u ≤ t)
    (hlt : t < u + period) : floor period offset t = u := by
  have hfl := floor_le hp offset t
  have hlf := lt_floor_add hp offset t
  rcases lt_trichotomy (floor period offset t) u with hlt' | heq | hgt
  · have := floor_onGrid.add_le_of_lt hp h hlt'; omega
  · exact heq
  · have := h.add_le_of_lt hp floor_onGrid hgt; omega

theorem OnGrid.floor_self (hp : 0 < period) (h : OnGrid period offset t) : floor period offset t = t :=
  h.floor_eq hp le_rfl (by omega)

/-- A point lies before the last one at or before `t` exactly if it lies before `t`. -/
theorem OnGrid.le_floor_iff (hp : 0 < period) (h : OnGrid period offset u) :
    u ≤ floor period offset t ↔ u ≤ t := by
  refine ⟨fun hle => hle.trans (floor_le hp offset t), fun hle => ?_⟩
  by_contra hlt
  have hnext := floor_onGrid.add_le_of_lt hp h (not_le.mp hlt)
  have hafter := lt_floor_add hp offset t
  omega

/-- As many periods as there are whole smaller units up to `u`, and one more, reach beyond `u`. -/
theorem lt_add_units {unit : ℤ} (hu : 0 < unit) (hle : unit ≤ period) (h : t ≤ u) :
    u < t + (((u - t) / unit).toNat + 1 : ℕ) * period := by
  have hq : 0 ≤ (u - t) / unit := Int.ediv_nonneg (by omega) hu.le
  have hlt := Int.lt_ediv_add_one_mul_self (u - t) hu
  have hmul := mul_le_mul_of_nonneg_left hle (by omega : 0 ≤ (u - t) / unit + 1)
  push_cast
  rw [Int.toNat_of_nonneg hq]
  linarith

/-! ## Walking the grid -/

/-- The next `k` points after `t`. -/
def stops (period : ℤ) : ℕ → ℤ → List ℤ
  | 0, _ => []
  | k + 1, t => (t + period) :: stops period k (t + period)

@[simp] theorem stops_length (k : ℕ) (t : ℤ) : (stops period k t).length = k := by
  induction k generalizing t with
  | zero => rfl
  | succ k ih => simp [stops, ih]

theorem le_add_mul (hp : 0 < period) (t : ℤ) (k : ℕ) : t ≤ t + k * period :=
  le_add_of_nonneg_right (mul_nonneg (Int.natCast_nonneg k) hp.le)

/-- A later point is a number of periods ahead. -/
theorem OnGrid.exists_add (hp : 0 < period) (ht : OnGrid period offset t) (hu : OnGrid period offset u)
    (h : t ≤ u) : ∃ k : ℕ, u = t + k * period := by
  obtain ⟨i, rfl⟩ := ht
  obtain ⟨j, rfl⟩ := hu
  have hij : i ≤ j := by
    by_contra hlt
    have := mul_lt_mul_of_pos_right (not_le.mp hlt) hp
    linarith
  obtain ⟨k, rfl⟩ := Int.le.dest hij
  exact ⟨k, by ring⟩

end Propfirm.Grid
