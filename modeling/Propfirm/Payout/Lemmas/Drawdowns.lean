import Propfirm.Engine.Lemmas.Rollover
import Propfirm.Lib.Trailing
import Propfirm.Rules.Lemmas.Limits
import Mathlib.Algebra.Order.Group.MinMax

/-!
# Breaches before and after a payout

A payout lowers the balance and moves none of the values that drawdowns are measured from. Compared
here are an account at a tick and the same account at the tick lowered by what was paid out.
-/

namespace Propfirm

open Trailing

variable {a b x y : Account} {c equity balance : Money} {days : List (Bool × Timestamp)}

/-! ## Breaches -/

/-- The loss of the day is beyond the limit and the tolerance. -/
def Account.DailyBeyond (a : Account) : Prop :=
  match a.plan.dailyLossType with
  | .none => False
  | .pctInitial =>
      a.plan.maxDailyDrawdownPct * a.initialBalance + toleranceMoney 1 < max (a.dayStart - a.current) 0
  | .pctPriorDay =>
      a.plan.maxDailyDrawdownPct * a.dayStart + toleranceMoney 1 < max (a.dayStart - a.current) 0
  | .trailingIntradayHigh =>
      a.plan.maxDailyDrawdownPct * a.intradayPeak + toleranceMoney 1 < max (a.intradayPeak - a.current) 0

theorem dailyBeyond_iff :
    a.DailyBeyond ↔ ∃ reference dd, DailyDrawdownRule.referenceAndLoss a = some (reference, dd) ∧
      a.plan.maxDailyDrawdownPct * reference + toleranceMoney 1 < dd := by
  unfold Account.DailyBeyond DailyDrawdownRule.referenceAndLoss
  cases a.plan.dailyLossType with
  | none => simp
  | pctInitial => simp [Account.dayStart, Account.current]
  | pctPriorDay => simp [Account.dayStart, Account.current]
  | trailingIntradayHigh => simp [Account.intradayPeak, Account.current]

structure Account.DailyBreach (a : Account) : Prop where
  pct_pos : 0 < a.plan.maxDailyDrawdownPct
  started : a.startedAt.isSome
  hard : a.plan.dailyLossSoft = false
  beyond : a.DailyBeyond

structure Account.MaxBreach (a : Account) : Prop where
  pct_pos : 0 < a.plan.maxTotalDrawdownPct
  started : a.startedAt.isSome
  beyond : a.current <
    MaxDrawdownRule.floor a.plan.maxLossReference a.plan.maxTotalDrawdownPct a - toleranceMoney 1

theorem dailyDrawdownRule_liquidates_iff {ctx : RuleContext}
    (h : ctx.equityInput = .brokerReported equity balance) :
    (dailyDrawdownRule none).Liquidates ctx ↔ ctx.account.DailyBreach := by
  constructor
  · intro hl
    obtain ⟨hpct, _, hbacked⟩ := DailyDrawdownRule.reports_of_kind hl ⟨by decide, by decide⟩
    have hreports := RuleContext.Reports.of_input hbacked.started h
    cases href : DailyDrawdownRule.referenceAndLoss ctx.account with
    | none =>
        rw [StdRule.Liquidates, DailyDrawdownRule.evaluate_kind_none hreports hpct href] at hl
        cases hl
    | some measure =>
        obtain ⟨hhard, hbeyond⟩ := (DailyDrawdownRule.liquidates_iff hreports hpct href).mp hl
        exact ⟨hpct, hbacked.started, hhard, dailyBeyond_iff.mpr ⟨_, _, href, hbeyond⟩⟩
  · intro hb
    obtain ⟨reference, dd, href, hbeyond⟩ := dailyBeyond_iff.mp hb.beyond
    have hpct : 0 < DailyDrawdownRule.effectivePct none ctx := hb.pct_pos
    exact (DailyDrawdownRule.liquidates_iff (.of_input hb.started h) hpct href).mpr ⟨hb.hard, hbeyond⟩

theorem maxDrawdownRule_liquidates_iff {ctx : RuleContext}
    (h : ctx.equityInput = .brokerReported ctx.account.equity balance) :
    (maxDrawdownRule none).Liquidates ctx ↔ ctx.account.MaxBreach := by
  constructor
  · intro hl
    obtain ⟨hpct, _, hbacked⟩ := MaxDrawdownRule.reports_of_kind hl ⟨by decide, by decide⟩
    have hbeyond := (MaxDrawdownRule.liquidates_iff (.of_input hbacked.started h) hpct).mp hl
    exact ⟨hpct, hbacked.started, hbeyond⟩
  · intro hb
    have hpct : 0 < MaxDrawdownRule.effectivePct none ctx := hb.pct_pos
    exact (MaxDrawdownRule.liquidates_iff (.of_input hb.started h) hpct).mpr hb.beyond

/-! ## The account after a payout -/

/-- `b` is `a` after `c` was paid out, perhaps some days later. -/
structure PaidOut (c : Money) (a b : Account) : Prop where
  plan_eq : b.plan = a.plan
  initialBalance_eq : b.initialBalance = a.initialBalance
  startedAt_eq : b.startedAt = a.startedAt
  balance_eq : b.balance = a.balance - c
  equity_eq : b.equity = a.equity
  peakBalance_eq : b.peakBalance = a.peakBalance
  peakEquity_eq : b.peakEquity = a.peakEquity
  intradayPeakEquity_eq : b.intradayPeakEquity = a.intradayPeakEquity
  dayStartEquity_eq : b.dayStartEquity = a.dayStartEquity
  currentTradingDayStart_eq : b.currentTradingDayStart = a.currentTradingDayStart
  todayRealizedPnl_eq : b.todayRealizedPnl = a.todayRealizedPnl
  /-- A new day starts at the lower balance. -/
  dayStartBalance_eq : b.dayStartBalance = a.dayStartBalance ∨ b.dayStartBalance = a.dayStartBalance - c

theorem recordPayout_paidOut {amount feeRefund : Money} {paidAt : Timestamp}
    (h : recordPayout a amount feeRefund paidAt = .ok b) :
    PaidOut (amount - feeRefund) a b ∧ b.dayStartBalance = a.dayStartBalance := by
  obtain ⟨-, rfl⟩ := recordPayout_eq h
  exact ⟨⟨rfl, rfl, rfl, (sub_sub_eq_add_sub _ _ _).trans (by ring) |>.symm, rfl, rfl, rfl, rfl, rfl, rfl,
    rfl, .inl rfl⟩, rfl⟩

theorem PaidOut.rollover (h : PaidOut c a b) (had : Bool) (dayStart : Timestamp) :
    PaidOut c (a.rollover had dayStart) (b.rollover had dayStart) := by
  cases had <;>
    exact ⟨h.plan_eq, h.initialBalance_eq, h.startedAt_eq, h.balance_eq, h.equity_eq, h.peakBalance_eq,
      h.peakEquity_eq, h.equity_eq, h.equity_eq, rfl, rfl, .inr h.balance_eq⟩

theorem PaidOut.rolled (h : PaidOut c a b) : PaidOut c (a.rolled days) (b.rolled days) := by
  induction days generalizing a b with
  | nil => exact h
  | cons day days ih => exact ih (h.rollover day.1 day.2)

/-! ## The same tick, lowered -/

/-- What a broker tick makes of the account. -/
def Account.ticked (a : Account) (equity balance : Money) : Account :=
  (a.updateEquity equity).updateBalance balance

/-- Two accounts at ticks that are `c` apart, with the peaks they had in common. -/
structure Lowered (c : Money) (x y : Account) : Prop where
  plan_eq : y.plan = x.plan
  initialBalance_eq : y.initialBalance = x.initialBalance
  startedAt_eq : y.startedAt = x.startedAt
  balance_eq : y.balance = x.balance - c
  equity_eq : y.equity = x.equity - c
  dayStartEquity_eq : y.dayStartEquity = x.dayStartEquity
  dayStartBalance_eq : y.dayStartBalance = x.dayStartBalance ∨ y.dayStartBalance = x.dayStartBalance - c
  peakBalance_eq : ∃ peak, x.peakBalance = max peak x.balance ∧ y.peakBalance = max peak y.balance
  peakEquity_eq : ∃ peak, x.peakEquity = max peak x.equity ∧ y.peakEquity = max peak y.equity
  intradayPeakEquity_eq : ∃ peak, x.intradayPeakEquity = max peak x.equity ∧
    y.intradayPeakEquity = max peak y.equity

theorem ite_lt_eq_max (peak value : Money) : (if peak < value then value else peak) = max peak value := by
  rw [max_def_lt]

theorem PaidOut.ticked (h : PaidOut c a b) :
    Lowered c (a.ticked equity balance) (b.ticked (equity - c) (balance - c)) where
  plan_eq := h.plan_eq
  initialBalance_eq := h.initialBalance_eq
  startedAt_eq := h.startedAt_eq
  balance_eq := rfl
  equity_eq := rfl
  dayStartEquity_eq := h.dayStartEquity_eq
  dayStartBalance_eq := h.dayStartBalance_eq
  peakBalance_eq := ⟨a.peakBalance, ite_lt_eq_max _ _, h.peakBalance_eq ▸ ite_lt_eq_max _ _⟩
  peakEquity_eq := ⟨a.peakEquity, ite_lt_eq_max _ _, h.peakEquity_eq ▸ ite_lt_eq_max _ _⟩
  intradayPeakEquity_eq :=
    ⟨a.intradayPeakEquity, ite_lt_eq_max _ _, h.intradayPeakEquity_eq ▸ ite_lt_eq_max _ _⟩

namespace Lowered

theorem current_eq (h : Lowered c x y) : y.current = x.current - c := by
  unfold Account.current
  rw [h.plan_eq, h.balance_eq, h.equity_eq]
  split <;> rfl

theorem dayStart_eq (h : Lowered c x y) : y.dayStart = x.dayStart ∨ y.dayStart = x.dayStart - c := by
  unfold Account.dayStart
  rw [h.plan_eq]
  split
  · exact h.dayStartBalance_eq
  · exact .inl h.dayStartEquity_eq

theorem peak_eq (h : Lowered c x y) :
    ∃ peak, MaxDrawdownRule.peak x = max peak x.current ∧ MaxDrawdownRule.peak y = max peak y.current := by
  unfold MaxDrawdownRule.peak Account.current
  rw [h.plan_eq]
  split
  · exact h.peakBalance_eq
  · exact h.peakEquity_eq

theorem intradayPeak_eq (h : Lowered c x y) :
    ∃ peak, x.intradayPeak = max peak x.current ∧ y.intradayPeak = max peak y.current := by
  unfold Account.intradayPeak Account.current
  rw [h.plan_eq]
  split
  · exact h.peakBalance_eq
  · exact h.intradayPeakEquity_eq

/-! ### Nothing paid out

Without a loss of cash the floors rise by no more than the tick does. -/

theorem level_sub_le {pct : Decimal} (hpct : 0 < pct) (hc : c ≤ 0) (peak value : Money) :
    level pct peak (value - c) ≤ level pct peak value - c := by
  simpa only [sub_eq_add_neg] using level_add_le hpct.le (neg_nonneg.mpr hc) peak value

theorem floor_le (h : Lowered c x y) (hc : c ≤ 0) {pct : Decimal} (hpct : 0 < pct)
    (reference : LossReference) :
    MaxDrawdownRule.floor reference pct y ≤ MaxDrawdownRule.floor reference pct x - c := by
  cases reference with
  | static =>
      simp only [MaxDrawdownRule.floor_eq, h.initialBalance_eq]
      linarith
  | trailing =>
      obtain ⟨peak, hx, hy⟩ := h.peakBalance_eq
      simp only [MaxDrawdownRule.floor_eq, hx, hy, h.balance_eq]
      exact level_sub_le hpct hc peak x.balance
  | eodTrailing =>
      have hday : y.dayStartBalance ≤ x.dayStartBalance - c := by
        rcases h.dayStartBalance_eq with heq | heq <;> linarith
      simp only [MaxDrawdownRule.floor_eq, h.initialBalance_eq, h.plan_eq]
      split
      · rw [← min_sub_sub_right]
        exact min_le_min (by linarith) (by linarith)
      · linarith
  | intradayTrail =>
      obtain ⟨peak, hx, hy⟩ := h.peak_eq
      simp only [MaxDrawdownRule.floor_eq, hx, hy, h.current_eq]
      exact level_sub_le hpct hc peak x.current

theorem maxBreach (h : Lowered c x y) (hc : c ≤ 0) (hb : y.MaxBreach) : x.MaxBreach := by
  obtain ⟨hpct, hstarted, hbeyond⟩ := hb
  rw [h.plan_eq] at hpct hbeyond
  rw [h.startedAt_eq] at hstarted
  rw [h.current_eq] at hbeyond
  have hfloor := h.floor_le hc hpct x.plan.maxLossReference
  exact ⟨hpct, hstarted, by linarith⟩

theorem dayLoss_le (h : Lowered c x y) (hc : c ≤ 0) :
    max (y.dayStart - y.current) 0 ≤ max (x.dayStart - x.current) 0 := by
  refine max_le_max ?_ le_rfl
  rw [h.current_eq]
  rcases h.dayStart_eq with heq | heq <;> linarith

theorem dailyBeyond (h : Lowered c x y) (hc : c ≤ 0) (hpct : 0 < x.plan.maxDailyDrawdownPct)
    (hb : y.DailyBeyond) : x.DailyBeyond := by
  have hloss := h.dayLoss_le hc
  unfold Account.DailyBeyond at hb ⊢
  rw [h.plan_eq] at hb
  cases htype : x.plan.dailyLossType with
  | none => rw [htype] at hb; exact hb
  | pctInitial =>
      simp only [htype, h.initialBalance_eq] at hb ⊢
      exact hb.trans_le hloss
  | pctPriorDay =>
      simp only [htype] at hb ⊢
      have hday : x.dayStart ≤ y.dayStart := by rcases h.dayStart_eq with heq | heq <;> linarith
      have hlimit := mul_le_mul_of_nonneg_left hday hpct.le
      linarith
  | trailingIntradayHigh =>
      obtain ⟨peak, hx, hy⟩ := h.intradayPeak_eq
      have hlevel := level_sub_le hpct hc peak x.current
      simp only [htype, hx, hy, h.current_eq, level] at hb hlevel ⊢
      rw [max_eq_left (sub_nonneg.mpr (le_max_right _ _))] at hb ⊢
      linarith

theorem dailyBreach (h : Lowered c x y) (hc : c ≤ 0) (hb : y.DailyBreach) : x.DailyBreach := by
  obtain ⟨hpct, hstarted, hhard, hbeyond⟩ := hb
  rw [h.plan_eq] at hpct hhard
  rw [h.startedAt_eq] at hstarted
  exact ⟨hpct, hstarted, hhard, h.dailyBeyond hc hpct hbeyond⟩

end Lowered

/-! ### Cash paid out

A value that falls leaves its floor behind, so there is a tick that stays on the floor and, lowered,
falls through it. -/

theorem sub_lt_level_sub {pct : Decimal} (hpct : 0 < pct) (hc : 0 < c) (peak value : Money) :
    level pct peak value - c < level pct peak (value - c) := by
  have h := level_add_lt hpct hc peak (value - c)
  rw [sub_add_cancel] at h
  linarith

theorem ticked_current :
    (a.ticked equity balance).current = if a.plan.drawdownOnBalance then balance else equity :=
  rfl

theorem ticked_peakBalance : (a.ticked equity balance).peakBalance = max a.peakBalance balance :=
  ite_lt_eq_max _ _

theorem ticked_peakEquity : (a.ticked equity balance).peakEquity = max a.peakEquity equity :=
  ite_lt_eq_max _ _

theorem ticked_intradayPeakEquity :
    (a.ticked equity balance).intradayPeakEquity = max a.intradayPeakEquity equity :=
  ite_lt_eq_max _ _

theorem ticked_peak (value : Money) :
    MaxDrawdownRule.peak (a.ticked value value) = max (MaxDrawdownRule.peak a) value := by
  unfold MaxDrawdownRule.peak
  rw [ticked_peakBalance, ticked_peakEquity]
  change (if a.plan.drawdownOnBalance = true then _ else _) = _
  split <;> rfl

theorem ticked_intradayPeak (value : Money) :
    (a.ticked value value).intradayPeak = max a.intradayPeak value := by
  unfold Account.intradayPeak
  rw [ticked_peakBalance, ticked_intradayPeakEquity]
  change (if a.plan.drawdownOnBalance = true then _ else _) = _
  split <;> rfl

theorem PaidOut.peak_eq (h : PaidOut c a b) : MaxDrawdownRule.peak b = MaxDrawdownRule.peak a := by
  unfold MaxDrawdownRule.peak
  rw [h.plan_eq, h.peakBalance_eq, h.peakEquity_eq]

theorem PaidOut.intradayPeak_eq (h : PaidOut c a b) : b.intradayPeak = a.intradayPeak := by
  unfold Account.intradayPeak
  rw [h.plan_eq, h.peakBalance_eq, h.intradayPeakEquity_eq]

theorem PaidOut.exists_floor (h : PaidOut c a b) (hday : b.dayStartBalance = a.dayStartBalance)
    (hc : 0 < c) {pct : Decimal} (hpct : 0 < pct) (reference : LossReference) :
    ∃ equity balance,
      (a.ticked equity balance).current =
          MaxDrawdownRule.floor reference pct (a.ticked equity balance) - toleranceMoney 1 ∧
        MaxDrawdownRule.floor reference pct (a.ticked equity balance) - c <
          MaxDrawdownRule.floor reference pct (b.ticked (equity - c) (balance - c)) := by
  cases reference with
  | static =>
      let value := a.initialBalance - pct * a.initialBalance - toleranceMoney 1
      refine ⟨value, value, ?_, ?_⟩
      · rw [ticked_current, ite_self]; rfl
      · change a.initialBalance - pct * a.initialBalance - c < b.initialBalance - pct * b.initialBalance
        rw [h.initialBalance_eq]
        linarith
  | eodTrailing =>
      let value := MaxDrawdownRule.floor .eodTrailing pct a - toleranceMoney 1
      have hfloor : MaxDrawdownRule.floor .eodTrailing pct b = MaxDrawdownRule.floor .eodTrailing pct a := by
        simp only [MaxDrawdownRule.floor_eq, h.initialBalance_eq, h.plan_eq, hday]
      refine ⟨value, value, ?_, ?_⟩
      · rw [ticked_current, ite_self]; rfl
      · change MaxDrawdownRule.floor .eodTrailing pct a - c < MaxDrawdownRule.floor .eodTrailing pct b
        rw [hfloor]
        linarith
  | trailing =>
      have hfloor (equity balance : Money) :
          MaxDrawdownRule.floor .trailing pct (a.ticked equity balance) - c <
            MaxDrawdownRule.floor .trailing pct (b.ticked (equity - c) (balance - c)) := by
        simp only [MaxDrawdownRule.floor_eq, ticked_peakBalance, h.peakBalance_eq]
        exact sub_lt_level_sub hpct hc a.peakBalance balance
      cases hbasis : a.plan.drawdownOnBalance with
      | true =>
          obtain ⟨value, hvalue⟩ := exists_eq_level_sub hpct a.peakBalance (toleranceMoney 1)
          refine ⟨value, value, ?_, hfloor value value⟩
          simp only [ticked_current, MaxDrawdownRule.floor_eq, ticked_peakBalance, ite_self]
          exact hvalue
      | false =>
          -- the floor follows the balance, so the equity can be put on it
          refine ⟨level pct a.peakBalance a.peakBalance - toleranceMoney 1, a.peakBalance, ?_, hfloor _ _⟩
          simp only [ticked_current, hbasis, MaxDrawdownRule.floor_eq, ticked_peakBalance]
          rfl
  | intradayTrail =>
      obtain ⟨value, hvalue⟩ := exists_eq_level_sub hpct (MaxDrawdownRule.peak a) (toleranceMoney 1)
      refine ⟨value, value, ?_, ?_⟩
      · simp only [ticked_current, ite_self, MaxDrawdownRule.floor_eq, ticked_peak]
        exact hvalue
      · simp only [MaxDrawdownRule.floor_eq, ticked_peak, h.peak_eq]
        exact sub_lt_level_sub hpct hc (MaxDrawdownRule.peak a) value

theorem PaidOut.exists_maxBreach (h : PaidOut c a b) (hday : b.dayStartBalance = a.dayStartBalance)
    (hc : 0 < c) (hpct : 0 < a.plan.maxTotalDrawdownPct) (hstarted : a.startedAt.isSome) :
    ∃ equity balance, ¬(a.ticked equity balance).MaxBreach ∧
      (b.ticked (equity - c) (balance - c)).MaxBreach := by
  obtain ⟨equity, balance, hon, hbelow⟩ := h.exists_floor hday hc hpct a.plan.maxLossReference
  have hlow : Lowered c (a.ticked equity balance) (b.ticked (equity - c) (balance - c)) := h.ticked
  refine ⟨equity, balance, fun hb => hb.beyond.ne hon, ?_, ?_, ?_⟩
  · rw [hlow.plan_eq]; exact hpct
  · rw [hlow.startedAt_eq]; exact hstarted
  · rw [hlow.current_eq, hlow.plan_eq, hon]
    change MaxDrawdownRule.floor a.plan.maxLossReference a.plan.maxTotalDrawdownPct _ - _ - c <
      MaxDrawdownRule.floor a.plan.maxLossReference a.plan.maxTotalDrawdownPct _ - _
    linarith

/-- The limit of the day lies below zero for as long as the account keeps its balance and equity: the
rule liquidates at every tick. -/
def Account.DailyLimitNegative (a : Account) : Prop :=
  match a.plan.dailyLossType with
  | .none | .trailingIntradayHigh => False
  | .pctInitial => a.plan.maxDailyDrawdownPct * a.initialBalance + toleranceMoney 1 < 0
  | .pctPriorDay =>
      a.plan.maxDailyDrawdownPct * a.dayStart + toleranceMoney 1 < 0 ∧
        a.plan.maxDailyDrawdownPct * a.current + toleranceMoney 1 < 0

/-- A tick that loses exactly the limit, against one that is lowered by `c` and may start from a day
start that is lowered too. -/
theorem lowered_loss_beyond {pct limit e : Money} (start : Money) (hpct : 0 < pct) (hc : 0 < c)
    (hlimit : 0 ≤ limit) (he : e = 0 ∨ e = c) :
    ¬limit < max (start - (start - limit)) 0 ∧
      limit - pct * e < max (start - e - (start - limit - c)) 0 := by
  refine ⟨?_, lt_max_of_lt_left ?_⟩
  · rw [sub_sub_cancel, max_eq_left hlimit]
    exact lt_irrefl limit
  · rcases he with rfl | rfl
    · linarith
    · have := mul_pos hpct hc
      linarith

theorem PaidOut.dayStart_eq (h : PaidOut c a b) : ∃ e, (e = 0 ∨ e = c) ∧ b.dayStart = a.dayStart - e := by
  have hlow : Lowered c (a.ticked 0 0) (b.ticked (0 - c) (0 - c)) := h.ticked
  rcases hlow.dayStart_eq with heq | heq
  · exact ⟨0, .inl rfl, heq.trans (sub_zero _).symm⟩
  · exact ⟨c, .inr rfl, heq⟩

theorem ticked_dailyBeyond (value : Money) :
    (a.ticked value value).DailyBeyond ↔
      match a.plan.dailyLossType with
      | .none => False
      | .pctInitial =>
          a.plan.maxDailyDrawdownPct * a.initialBalance + toleranceMoney 1 < max (a.dayStart - value) 0
      | .pctPriorDay =>
          a.plan.maxDailyDrawdownPct * a.dayStart + toleranceMoney 1 < max (a.dayStart - value) 0
      | .trailingIntradayHigh =>
          value < level a.plan.maxDailyDrawdownPct a.intradayPeak value - toleranceMoney 1 := by
  have hplan : (a.ticked value value).plan = a.plan := rfl
  unfold Account.DailyBeyond
  rw [hplan, ticked_current, ite_self, ticked_intradayPeak]
  cases a.plan.dailyLossType with
  | trailingIntradayHigh =>
      simp only [level]
      rw [max_eq_left (sub_nonneg.mpr (le_max_right a.intradayPeak value))]
      constructor <;> intro hb <;> linarith
  | _ => rfl

theorem PaidOut.exists_beyond_priorDay (h : PaidOut c a b) (hc : 0 < c)
    (hpct : 0 < a.plan.maxDailyDrawdownPct) (htype : a.plan.dailyLossType = .pctPriorDay)
    (hlimit : 0 ≤ a.plan.maxDailyDrawdownPct * a.dayStart + toleranceMoney 1) :
    ∃ value, ¬(a.ticked value value).DailyBeyond ∧ (b.ticked (value - c) (value - c)).DailyBeyond := by
  obtain ⟨e, he, hstart⟩ := h.dayStart_eq
  obtain ⟨hspared, hbeyond⟩ := lowered_loss_beyond a.dayStart hpct hc hlimit he
  refine ⟨a.dayStart - (a.plan.maxDailyDrawdownPct * a.dayStart + toleranceMoney 1), ?_, ?_⟩
  · rw [ticked_dailyBeyond, htype]
    exact hspared
  · rw [ticked_dailyBeyond, h.plan_eq, htype, hstart]
    refine lt_of_eq_of_lt ?_ hbeyond
    ring

theorem PaidOut.exists_dailyBeyond (h : PaidOut c a b) (hday : b.dayStartBalance = a.dayStartBalance)
    (hc : 0 < c) (hpct : 0 < a.plan.maxDailyDrawdownPct) (htype : a.plan.dailyLossType ≠ .none)
    (hlimit : ¬a.DailyLimitNegative) :
    ∃ days value, ¬((a.rolled days).ticked value value).DailyBeyond ∧
      ((b.rolled days).ticked (value - c) (value - c)).DailyBeyond := by
  unfold Account.DailyLimitNegative at hlimit
  cases hloss : a.plan.dailyLossType with
  | none => exact absurd hloss htype
  | pctInitial =>
      rw [hloss] at hlimit
      have hstart : b.dayStart = a.dayStart := by
        unfold Account.dayStart
        rw [h.plan_eq, hday, h.dayStartEquity_eq]
      obtain ⟨hspared, hbeyond⟩ :=
        lowered_loss_beyond a.dayStart hpct hc (not_lt.mp hlimit) (.inl rfl)
      refine ⟨[], a.dayStart - (a.plan.maxDailyDrawdownPct * a.initialBalance + toleranceMoney 1), ?_, ?_⟩
      · change ¬(a.ticked _ _).DailyBeyond
        rw [ticked_dailyBeyond, hloss]
        exact hspared
      · change (b.ticked _ _).DailyBeyond
        rw [ticked_dailyBeyond, h.plan_eq, hloss, h.initialBalance_eq, hstart]
        simpa only [mul_zero, sub_zero] using hbeyond
  | pctPriorDay =>
      rw [hloss] at hlimit
      rcases not_and_or.mp hlimit with hlimit | hlimit
      · exact ⟨[], h.exists_beyond_priorDay hc hpct hloss (not_lt.mp hlimit)⟩
      · -- on the next day, which starts at the present value
        have hnext := h.rollover false 0
        exact ⟨[(false, 0)], hnext.exists_beyond_priorDay hc hpct hloss (not_lt.mp hlimit)⟩
  | trailingIntradayHigh =>
      obtain ⟨value, hvalue⟩ := exists_eq_level_sub hpct a.intradayPeak (toleranceMoney 1)
      have hlevel := sub_lt_level_sub hpct hc a.intradayPeak value
      refine ⟨[], value, ?_, ?_⟩
      · change ¬(a.ticked _ _).DailyBeyond
        rw [ticked_dailyBeyond, hloss]
        exact hvalue.not_lt
      · change (b.ticked _ _).DailyBeyond
        rw [ticked_dailyBeyond, h.plan_eq, hloss, h.intradayPeak_eq]
        change value - c < level a.plan.maxDailyDrawdownPct a.intradayPeak (value - c) - toleranceMoney 1
        linarith

end Propfirm
