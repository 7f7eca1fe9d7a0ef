import Propfirm.Core.Types
import Propfirm.Lib.Truncation

/-!
# Conversions to integers

Which numbers become a signed integer, and which one.
-/

namespace Propfirm

open Truncation

variable {d : Decimal} {n : ℤ}

theorem Decimal.toI64?_eq (d : Decimal) :
    d.toI64? = if -2 ^ 63 ≤ trunc d ∧ trunc d < 2 ^ 63 then some (trunc d) else none := rfl

theorem trunc_of_toI64?_some (h : d.toI64? = some n) : trunc d = n := by
  rw [Decimal.toI64?_eq] at h
  split at h
  · exact Option.some.inj h
  · cases h

theorem Decimal.toI64?_eq_none : d.toI64? = none ↔ d ≤ -2 ^ 63 - 1 ∨ 2 ^ 63 ≤ d := by
  have houtside := @trunc_outside_iff d (2 ^ 63) (by norm_num)
  rw [Int.cast_pow, Int.cast_ofNat] at houtside
  rw [← houtside, Decimal.toI64?_eq, ite_eq_right_iff]
  simp

theorem lt_of_toI64?_some (h : d.toI64? = some n) : d < 2 ^ 63 := by
  by_contra hlarge
  rw [Decimal.toI64?_eq_none.mpr (.inr (not_lt.mp hlarge))] at h
  cases h

theorem Decimal.toI64?_natCast {m : ℕ} (h : m < 2 ^ 63) : (m : Decimal).toI64? = some (m : ℤ) := by
  have htrunc : trunc (m : ℚ) = m := trunc_intCast m
  rw [Decimal.toI64?_eq, htrunc, if_pos (by omega)]

end Propfirm
