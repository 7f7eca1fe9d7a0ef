import Mathlib.Algebra.Order.Field.Basic
import Mathlib.Tactic.Linarith
import Mathlib.Tactic.Ring

/-!
# Payments against a watermark

A balance earns and pays. A payment is a share of what the balance has gained over a mark, and moves
the mark to the balance it found, before the cash left it.
-/

namespace Propfirm.Watermark

variable {K : Type} [Field K]

structure Ledger (K : Type) where
  balance : K
  mark : K
  /-- The change of the balance that payments did not cause. -/
  earned : K
  earnedAtPayment : K
  /-- The sum of the gains that payments were made on. -/
  basis : K
  paid : K

namespace Ledger

def gain (l : Ledger K) : K := l.balance - l.mark

def opened (start : K) : Ledger K := ⟨start, start, 0, 0, 0, 0⟩

def earn (l : Ledger K) (x : K) : Ledger K :=
  { l with balance := l.balance + x, earned := l.earned + x }

def pay (l : Ledger K) (share : K) : Ledger K where
  balance := l.balance - l.gain * share
  mark := l.balance
  earned := l.earned
  earnedAtPayment := l.earned
  basis := l.basis + l.gain
  paid := l.paid + l.gain * share

/-- What is earned after a payment is gained only beyond the cash that left. -/
theorem gain_pay_earn (l : Ledger K) (share x : K) :
    ((l.pay share).earn x).gain = x - l.gain * share := by
  simp only [gain, pay, earn]
  ring

variable [LinearOrder K] [IsStrictOrderedRing K] {l : Ledger K} {start x share : K}

/-- The gains paid on lie between the start and the mark, and what was earned covers them. -/
structure Balanced (start : K) (l : Ledger K) : Prop where
  mark_eq : l.mark = start + l.basis
  balance_eq : l.balance = start + l.earned - l.paid
  paid_nonneg : 0 ≤ l.paid
  basis_le : l.basis ≤ l.earnedAtPayment

omit [IsStrictOrderedRing K] in
theorem Balanced.opened (start : K) : Balanced start (opened start) where
  mark_eq := by simp [Ledger.opened]
  balance_eq := by simp [Ledger.opened]
  paid_nonneg := le_rfl
  basis_le := le_rfl

theorem Balanced.earn (h : Balanced start l) (x : K) : Balanced start (l.earn x) where
  mark_eq := h.mark_eq
  balance_eq := by
    have := h.balance_eq
    simp only [Ledger.earn]
    linarith
  paid_nonneg := h.paid_nonneg
  basis_le := h.basis_le

theorem Balanced.pay (h : Balanced start l) (hgain : 0 ≤ l.gain) (hshare : 0 ≤ share) :
    Balanced start (l.pay share) where
  mark_eq := by
    have := h.mark_eq
    simp only [Ledger.pay, Ledger.gain]
    linarith
  balance_eq := by
    have := h.balance_eq
    simp only [Ledger.pay]
    linarith
  paid_nonneg := add_nonneg h.paid_nonneg (mul_nonneg hgain hshare)
  basis_le := by
    -- the gains telescope to what the balance is above its start, and the cash paid is not negative
    have hmark := h.mark_eq
    have hbalance := h.balance_eq
    have hpaid := h.paid_nonneg
    simp only [Ledger.pay, Ledger.gain]
    linarith

end Ledger

variable [LinearOrder K] [IsStrictOrderedRing K]

/-- A deduction goes unnoticed by the positive part when it is none, or when nothing was positive. -/
theorem max_sub_eq_iff {x c : K} : max (x - c) 0 = max x 0 ↔ c = 0 ∨ x ≤ 0 ∧ x ≤ c := by
  constructor
  · intro h
    rcases le_or_gt x 0 with hx | hx
    · rw [max_eq_right hx] at h
      exact .inr ⟨hx, by linarith [le_max_left (x - c) 0]⟩
    · rw [max_eq_left hx.le] at h
      have hpos : 0 < x - c := by
        by_contra hle
        rw [max_eq_right (not_lt.mp hle)] at h
        exact hx.ne h
      rw [max_eq_left hpos.le] at h
      exact .inl (by linarith)
  · rintro (rfl | ⟨hx, hc⟩)
    · rw [sub_zero]
    · rw [max_eq_right hx, max_eq_right (by linarith)]

end Propfirm.Watermark
