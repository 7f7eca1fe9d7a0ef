import Propfirm.Payout.Lemmas.Drawdowns
import Propfirm.Payout.Theorems

/-!
# Payouts and drawdowns
-/

namespace Propfirm

open Fallible

variable {a b : Account} {c equity balance : Money} {days : List (Bool × Timestamp)}

/-! ## Ticks in the pipeline -/

def tickContext (a : Account) (equity balance : Money) : RuleContext :=
  { RuleContext.new (a.ticked equity balance) 0 (fun _ => ⟨0⟩) 0 with
    kind := .onTick
    equityInput := .brokerReported equity balance }

/-- On no later day does a tick that is lowered by `cash` make the rule liquidate `b`, where the tick
as it was would have spared `a`. -/
def StdRule.SparesPaid (rule : StdRule) (cash : Money) (a b : Account) : Prop :=
  ∀ days equity balance,
    rule.Liquidates (tickContext (b.rolled days) (equity - cash) (balance - cash)) →
      rule.Liquidates (tickContext (a.rolled days) equity balance)

theorem tickContext_maxDrawdown :
    (maxDrawdownRule none).Liquidates (tickContext a equity balance) ↔ (a.ticked equity balance).MaxBreach :=
  maxDrawdownRule_liquidates_iff rfl

theorem tickContext_dailyDrawdown :
    (dailyDrawdownRule none).Liquidates (tickContext a equity balance) ↔
      (a.ticked equity balance).DailyBreach :=
  dailyDrawdownRule_liquidates_iff rfl

section Pipeline

variable {env : Env} {tick : Tick} {t now : Timestamp} {a' b' : Account}

theorem PaidOut.autoRollover {evs evs'} (h : PaidOut c a b) (ha : autoRollover a t now = .ok (a', evs))
    (hb : autoRollover b t now = .ok (b', evs')) : ∃ days, a' = a.rolled days ∧ b' = b.rolled days := by
  rw [autoRollover_eq] at ha hb
  rw [h.plan_eq, h.currentTradingDayStart_eq] at hb
  obtain ⟨starts, hstarts, ha⟩ := map_eq_ok.mp ha
  obtain ⟨starts', hstarts', hb⟩ := map_eq_ok.mp hb
  -- both pass the same days, and the first is traded in both or in neither
  obtain rfl := Except.ok.inj (hstarts.symm.trans hstarts')
  refine ⟨tradedFirst (decide (a.todayRealizedPnl ≠ 0)) starts, (Prod.mk.inj ha).1.symm, ?_⟩
  rw [← (Prod.mk.inj hb).1, Account.caughtUp, h.todayRealizedPnl_eq]

theorem Effect.ticked {evs} (h : Effect env a (.tick tick equity balance) b evs) :
    b = a.ticked equity balance := by
  cases h
  rfl

/-- The two drawdown rules, as the registry of a plan holds them. -/
def drawdownRules : List StdRule := [dailyDrawdownRule none, maxDrawdownRule none]

/-- The rules see the account after the tick, on the day it was caught up to. -/
theorem Evaluated.tick_liquidates_iff (s : Evaluated env a (.tick tick equity balance)) {rule : StdRule}
    (hrule : rule ∈ drawdownRules) :
    rule.Liquidates s.ctx ↔ rule.Liquidates (tickContext s.routed equity balance) := by
  have hinput : s.ctx.equityInput = .brokerReported equity balance := rfl
  obtain ⟨trades, heffect⟩ := applyEvent_effect s.apply_eq
  have haccount : s.ctx.account = ({ s.routed with todayTrades := trades }).ticked equity balance := by
    rw [Evaluated.ctx, buildContext_account, heffect.ticked]
  have hreported : s.ctx.equityInput = .brokerReported s.ctx.account.equity balance := by
    rw [hinput, haccount]
    rfl
  rcases List.mem_pair.mp hrule with rfl | rfl
  · rw [dailyDrawdownRule_liquidates_iff hinput, tickContext_dailyDrawdown, haccount]
    exact ⟨fun h => ⟨h.pct_pos, h.started, h.hard, h.beyond⟩,
      fun h => ⟨h.pct_pos, h.started, h.hard, h.beyond⟩⟩
  · rw [maxDrawdownRule_liquidates_iff hreported, tickContext_maxDrawdown, haccount]
    exact ⟨fun h => ⟨h.pct_pos, h.started, h.beyond⟩, fun h => ⟨h.pct_pos, h.started, h.beyond⟩⟩

end Pipeline

/-! ## Drawdowns -/

theorem dailyDrawdown_eq : a.dailyDrawdown = max (a.dayStart - a.current) 0 := by
  unfold Account.dailyDrawdown Account.dayStart Account.current
  split <;> rfl

theorem totalDrawdown_eq :
    a.totalDrawdown = max (MaxDrawdownRule.reference a.plan.maxLossReference a - a.current) 0 := by
  unfold Account.totalDrawdown MaxDrawdownRule.reference
  cases a.plan.maxLossReference <;> rfl

theorem drawdown_lowered_iff (reference value c : Money) :
    max (reference - (value - c)) 0 = max (reference - value) 0 ↔
      c = 0 ∨ reference ≤ value ∧ reference ≤ value - c := by
  have hsub : reference - (value - c) = reference - value - -c := by ring
  have hle : reference - value ≤ -c ↔ reference ≤ value - c := by
    constructor <;> intro h <;> linarith
  rw [hsub, Watermark.max_sub_eq_iff, neg_eq_zero, sub_nonpos, hle]

/-- On the balance, the drawdowns stay as they are only if nothing was paid out, or if what is left is
still above what they are measured from. -/
theorem PaidOut.drawdowns_iff (h : PaidOut c a b) (hday : b.dayStartBalance = a.dayStartBalance) :
    b.dailyDrawdown = a.dailyDrawdown ∧ b.totalDrawdown = a.totalDrawdown ↔
      a.plan.drawdownOnBalance = false ∨ c = 0 ∨
        ∀ reference ∈ [a.dayStartBalance, MaxDrawdownRule.reference a.plan.maxLossReference a],
          reference ≤ a.balance ∧ reference ≤ a.balance - c := by
  have hstart : b.dayStart = a.dayStart := by
    unfold Account.dayStart
    rw [h.plan_eq, hday, h.dayStartEquity_eq]
  have hreference : MaxDrawdownRule.reference b.plan.maxLossReference b =
      MaxDrawdownRule.reference a.plan.maxLossReference a := by
    unfold MaxDrawdownRule.reference
    rw [h.plan_eq, h.initialBalance_eq, h.peakBalance_eq, hday, h.peak_eq]
  rw [dailyDrawdown_eq, dailyDrawdown_eq, totalDrawdown_eq, totalDrawdown_eq, hstart, hreference]
  cases hbasis : a.plan.drawdownOnBalance with
  | false =>
      have hcurrent : b.current = a.current := by
        simp [Account.current, h.plan_eq, hbasis, h.equity_eq]
      simp [hcurrent]
  | true =>
      have hcurrent : a.current = a.balance := by simp [Account.current, hbasis]
      have hcurrent' : b.current = a.balance - c := by
        simp [Account.current, h.plan_eq, hbasis, h.balance_eq]
      have hdayStart : a.dayStart = a.dayStartBalance := by simp [Account.dayStart, hbasis]
      rw [hcurrent, hcurrent', hdayStart, drawdown_lowered_iff, drawdown_lowered_iff, ← or_and_left]
      simp

/-! ## Liquidations -/

theorem rolled_dayStart : (a.rolled days).dayStart = a.dayStart ∨ (a.rolled days).dayStart = a.current := by
  induction days generalizing a with
  | nil => exact .inl rfl
  | cons day days ih =>
      obtain ⟨had, dayStart⟩ := day
      -- the new day starts at the current value, which rollovers keep
      have hnext (x : Account) (hstart : x.dayStart = a.current) (hcurrent : x.current = a.current) :
          (x.rolled days).dayStart = a.current := by
        rcases @ih x with heq | heq
        · rw [heq, hstart]
        · rw [heq, hcurrent]
      cases had with
      | false => exact .inr (hnext (a.rollover false dayStart) rfl rfl)
      | true => exact .inr (hnext (a.rollover true dayStart) rfl rfl)

theorem PaidOut.ticked_frame (h : PaidOut c a b) (days : List (Bool × Timestamp))
    (equity balance : Money) :
    ((b.rolled days).ticked equity balance).plan = a.plan ∧
      ((b.rolled days).ticked equity balance).startedAt = a.startedAt :=
  ⟨(eq_of_outsideDays rolled_outsideDays Account.plan fun _ => rfl).trans h.plan_eq,
    (eq_of_outsideDays rolled_outsideDays Account.startedAt fun _ => rfl).trans h.startedAt_eq⟩

/-- A negative limit is exceeded at every tick. -/
theorem dailyBeyond_of_limitNegative (h : a.DailyLimitNegative) :
    ((a.rolled days).ticked equity balance).DailyBeyond := by
  have hplan : ((a.rolled days).ticked equity balance).plan = a.plan :=
    eq_of_outsideDays rolled_outsideDays Account.plan fun _ => rfl
  unfold Account.DailyLimitNegative at h
  unfold Account.DailyBeyond
  rw [hplan]
  cases htype : a.plan.dailyLossType with
  | none => rw [htype] at h; exact h.elim
  | trailingIntradayHigh => rw [htype] at h; exact h.elim
  | pctInitial =>
      rw [htype] at h
      have hinitial : ((a.rolled days).ticked equity balance).initialBalance = a.initialBalance :=
        eq_of_outsideDays rolled_outsideDays Account.initialBalance fun _ => rfl
      simp only [hinitial]
      exact lt_max_of_lt_right h
  | pctPriorDay =>
      rw [htype] at h
      have hstart : ((a.rolled days).ticked equity balance).dayStart = (a.rolled days).dayStart := rfl
      refine lt_max_of_lt_right ?_
      rw [hstart]
      rcases @rolled_dayStart a days with heq | heq
      · rw [heq]; exact h.1
      · rw [heq]; exact h.2

theorem PaidOut.sparesPaid_max_iff (h : PaidOut c a b) (hday : b.dayStartBalance = a.dayStartBalance) :
    (maxDrawdownRule none).SparesPaid c a b ↔
      c ≤ 0 ∨ a.startedAt = none ∨ a.plan.maxTotalDrawdownPct ≤ 0 := by
  constructor
  · intro hspares
    by_contra! hcond
    obtain ⟨hc, hstarted, hpct⟩ := hcond
    obtain ⟨equity, balance, hspared, hbreach⟩ :=
      h.exists_maxBreach hday hc hpct (Option.isSome_iff_ne_none.mpr hstarted)
    exact hspared (tickContext_maxDrawdown.mp
      (hspares [] equity balance (tickContext_maxDrawdown.mpr hbreach)))
  · intro hcond days equity balance hb
    rw [tickContext_maxDrawdown] at hb ⊢
    obtain ⟨hplan, hstarted⟩ := h.ticked_frame days (equity - c) (balance - c)
    rcases hcond with hc | hnone | hpct
    · exact (h.rolled.ticked : Lowered c _ _).maxBreach hc hb
    · exact absurd hb.started (by simp [hstarted, hnone])
    · exact absurd hb.pct_pos (by rw [hplan]; exact hpct.not_gt)

theorem PaidOut.sparesPaid_daily_iff (h : PaidOut c a b) (hday : b.dayStartBalance = a.dayStartBalance) :
    (dailyDrawdownRule none).SparesPaid c a b ↔
      c ≤ 0 ∨ a.startedAt = none ∨ a.plan.maxDailyDrawdownPct ≤ 0 ∨ a.plan.dailyLossSoft = true ∨
        a.plan.dailyLossType = .none ∨ a.DailyLimitNegative := by
  constructor
  · intro hspares
    by_contra! hcond
    obtain ⟨hc, hstarted, hpct, hsoft, htype, hlimit⟩ := hcond
    obtain ⟨days, value, hspared, hbeyond⟩ := h.exists_dailyBeyond hday hc hpct htype hlimit
    obtain ⟨hplan, hstarted'⟩ := h.ticked_frame days (value - c) (value - c)
    have hbreach : ((b.rolled days).ticked (value - c) (value - c)).DailyBreach :=
      { pct_pos := by rw [hplan]; exact hpct
        started := by rw [hstarted']; exact Option.isSome_iff_ne_none.mpr hstarted
        hard := by rw [hplan]; exact Bool.eq_false_iff.mpr hsoft
        beyond := hbeyond }
    exact hspared (tickContext_dailyDrawdown.mp
      (hspares days value value (tickContext_dailyDrawdown.mpr hbreach))).beyond
  · intro hcond days equity balance hb
    rw [tickContext_dailyDrawdown] at hb ⊢
    have hlow : Lowered c ((a.rolled days).ticked equity balance)
        ((b.rolled days).ticked (equity - c) (balance - c)) := h.rolled.ticked
    obtain ⟨hplan, hstarted⟩ := h.ticked_frame days (equity - c) (balance - c)
    rcases hcond with hc | hnone | hpct | hsoft | htype | hlimit
    · exact hlow.dailyBreach hc hb
    · exact absurd hb.started (by simp [hstarted, hnone])
    · exact absurd hb.pct_pos (by rw [hplan]; exact hpct.not_gt)
    · exact absurd hb.hard (by simp [hplan, hsoft])
    · have hbeyond := hb.beyond
      rw [Account.DailyBeyond, hplan, htype] at hbeyond
      exact hbeyond.elim
    · exact
        { pct_pos := hlow.plan_eq ▸ hb.pct_pos
          started := hlow.startedAt_eq ▸ hb.started
          hard := hlow.plan_eq ▸ hb.hard
          beyond := dailyBeyond_of_limitNegative hlimit }

/-- What leaves the balance; the refunded fee comes on top. -/
def PayoutQuote.cash (quote : PayoutQuote) : Money := quote.amount - quote.feeRefund

/-- The drawdowns after a payout, and the ticks that follow it: a payout spares the account only where
no cash leaves, the rule is off, or nothing can be lost by it. -/
theorem payout_drawdowns_iff {now : Timestamp} {label : String} {quote : PayoutQuote}
    (hq : acceptedQuote a now label = .ok quote)
    (h : recordPayout a quote.amount quote.feeRefund now = .ok b) :
    (b.dailyDrawdown = a.dailyDrawdown ∧ b.totalDrawdown = a.totalDrawdown ↔
        a.plan.drawdownOnBalance = false ∨ quote.traderShare = 0 ∨
          ∀ reference ∈ [a.dayStartBalance, MaxDrawdownRule.reference a.plan.maxLossReference a],
            reference ≤ a.balance ∧ reference ≤ a.balance - quote.cash) ∧
      ((maxDrawdownRule none).SparesPaid quote.cash a b ↔
        quote.traderShare ≤ 0 ∨ a.startedAt = none ∨ a.plan.maxTotalDrawdownPct ≤ 0) ∧
      ((dailyDrawdownRule none).SparesPaid quote.cash a b ↔
        quote.traderShare ≤ 0 ∨ a.startedAt = none ∨ a.plan.maxDailyDrawdownPct ≤ 0 ∨
          a.plan.dailyLossSoft = true ∨ a.plan.dailyLossType = .none ∨ a.DailyLimitNegative) ∧
      ∀ rule ∈ drawdownRules, rule.SparesPaid quote.cash a b →
        ∀ (env : Env) (tick : Tick) (equity balance : Money)
          (s : Evaluated env a (.tick tick equity balance))
          (s' : Evaluated env b (.tick tick (equity - quote.cash) (balance - quote.cash))),
          rule.Liquidates s'.ctx → rule.Liquidates s.ctx := by
  obtain ⟨hpaid, hday⟩ := recordPayout_paidOut h
  change PaidOut quote.cash a b at hpaid
  obtain ⟨config, hacc⟩ := acceptedQuote_accepted hq
  have hcash : quote.cash = quote.profitBasis * quote.traderShare := by
    rw [PayoutQuote.cash, hacc.amount_eq, add_sub_cancel_right]
  have hzero : quote.cash = 0 ↔ quote.traderShare = 0 := by
    rw [hcash, mul_eq_zero, or_iff_right hacc.basis_pos.ne']
  have hnonpos : quote.cash ≤ 0 ↔ quote.traderShare ≤ 0 := by
    rw [hcash, mul_nonpos_iff_pos_imp_nonpos]
    exact ⟨fun h => h.1 hacc.basis_pos, fun h => ⟨fun _ => h, fun _ => hacc.basis_pos.le⟩⟩
  refine ⟨?_, ?_, ?_, ?_⟩
  · rw [hpaid.drawdowns_iff hday, hzero]
  · rw [hpaid.sparesPaid_max_iff hday, hnonpos]
  · rw [hpaid.sparesPaid_daily_iff hday, hnonpos]
  · intro rule hrule hspares env tick equity balance s s' hb
    obtain ⟨days, hs, hs'⟩ := hpaid.autoRollover s.route_eq s'.route_eq
    rw [s'.tick_liquidates_iff hrule, hs'] at hb
    rw [s.tick_liquidates_iff hrule, hs]
    exact hspares days equity balance hb

theorem payout_drawdowns_kept :
    ∃ (quote : PayoutQuote) (b : Account),
      acceptedQuote (profitableAccount (.default ⟨1⟩ 0)) 1 "" = .ok quote ∧
        recordPayout (profitableAccount (.default ⟨1⟩ 0)) quote.amount quote.feeRefund 1 = .ok b ∧
        b.dailyDrawdown = (profitableAccount (.default ⟨1⟩ 0)).dailyDrawdown ∧
        ¬(maxDrawdownRule none).SparesPaid quote.cash (profitableAccount (.default ⟨1⟩ 0)) b := by
  have hrun :
      (do
        let quote ← acceptedQuote (profitableAccount (.default ⟨1⟩ 0)) 1 ""
        let _ ← recordPayout (profitableAccount (.default ⟨1⟩ 0)) quote.amount quote.feeRefund 1
        pure quote.traderShare) = .ok (8 / 10) := by
    decide +kernel
  obtain ⟨quote, hq, hrun⟩ := bind_eq_ok.mp hrun
  obtain ⟨b, hb, hrun⟩ := bind_eq_ok.mp hrun
  have hshare := pure_eq_ok.mp hrun
  obtain ⟨hdrawdowns, hmax, -⟩ := payout_drawdowns_iff hq hb
  refine ⟨quote, b, hq, hb, (hdrawdowns.mpr (.inl rfl)).1, fun hspares => ?_⟩
  rcases hmax.mp hspares with h | h | h
  · rw [hshare] at h
    exact absurd h (by decide +kernel)
  · cases h
  · exact absurd h (by decide +kernel)

/-- On the balance, an account that starts its day at 12000. -/
def balanceAccount : Account :=
  { profitableAccount { ChallengePlan.default ⟨1⟩ 0 with drawdownOnBalance := true } with
    dayStartBalance := 12000
    dayStartEquity := 12000
    peakBalance := 12000
    peakEquity := 12000
    intradayPeakEquity := 12000 }

/-- The payout of 1600 appears as a loss of the day and in total, and the tick that follows it
liquidates the account. -/
theorem payout_counts_as_loss :
    (do
      let quote ← acceptedQuote balanceAccount 1 ""
      let b ← recordPayout balanceAccount quote.amount quote.feeRefund 1
      let daily ← (dailyDrawdownRule none).evaluate (tickContext b (11900 - quote.cash) (11900 - quote.cash))
      let total ← (maxDrawdownRule none).evaluate (tickContext b (11900 - quote.cash) (11900 - quote.cash))
      let daily' ← (dailyDrawdownRule none).evaluate (tickContext balanceAccount 11900 11900)
      let total' ← (maxDrawdownRule none).evaluate (tickContext balanceAccount 11900 11900)
      pure ((balanceAccount.dailyDrawdown, balanceAccount.totalDrawdown, b.dailyDrawdown, b.totalDrawdown),
        [daily.decisionKind, total.decisionKind, daily'.decisionKind, total'.decisionKind])) =
      .ok ((0, 0, 1600, 1600), [.liquidate, .liquidate, .pass, .pass]) := by
  decide +kernel

end Propfirm
