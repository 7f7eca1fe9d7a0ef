import Propfirm.Engine.Theorems.Fills
import Propfirm.Engine.Theorems.Floors
import Propfirm.Payout.Lemmas

/-!
# High-water marks

A broker tick raises the peaks with the equity. A fill sets the equity to the new balance and raises the
peak of the balance only.
-/

namespace Propfirm

open Fallible

variable {p : Pipeline} {env : Env} {a b : Account} {ev : PipelineEvent} {r : PipelineResult}
  {calls : List Processed}

/-- No mark lies below what it is the peak of. -/
structure Account.Dominated (a : Account) : Prop where
  balance_le : a.balance ≤ a.peakBalance
  equity_le : a.equity ≤ a.peakEquity
  intraday_le : a.equity ≤ a.intradayPeakEquity

/-- The peak of the day that an event at `t` finds: a new day starts at the equity. -/
def Account.intradayPeakAt (a : Account) (t : Timestamp) : Money :=
  match a.currentTradingDayStart, a.plan.tradingDayStart t with
  | some stored, .ok day => if stored < day then a.equity else a.intradayPeakEquity
  | _, _ => a.intradayPeakEquity

/-! ## Stages -/

theorem rolled_intradayPeakEquity {days : List (Bool × Timestamp)} (h : days ≠ []) :
    (a.rolled days).intradayPeakEquity = a.equity :=
  rolled_set Account.intradayPeakEquity Account.equity (fun _ had _ => by cases had <;> rfl) (fun _ => rfl) h

theorem Evaluated.routed_intradayPeakEquity (s : Evaluated env a ev) (hev : ev.isDayRollover = false) :
    s.routed.intradayPeakEquity = a.intradayPeakAt (ev.eventTimestamp env.routingNow) := by
  have hroute := s.route_eq
  rw [route_eq_map, hev] at hroute
  obtain ⟨starts, hstarts, hmap⟩ := map_eq_ok.mp hroute
  rw [← (Prod.mk.inj hmap).1]
  obtain ⟨day, hday, hstarts⟩ := bind_eq_ok.mp hstarts
  unfold Account.intradayPeakAt
  rw [hday]
  cases hstored : a.currentTradingDayStart with
  | none =>
      rw [hstored] at hstarts
      rw [← pure_eq_ok.mp hstarts]
      rfl
  | some stored =>
      simp only [hstored] at hstarts
      dsimp only
      split
      · rename_i hlt
        have hne := daysUpTo_ne_nil hlt hstarts
        refine rolled_intradayPeakEquity fun hnil => hne ?_
        rw [← List.length_eq_zero_iff, ← tradedFirst_length starts, hnil]
        rfl
      · rename_i hlt
        rw [daysUpTo_done hlt (by unfold rolloverFuel; omega)] at hstarts
        rw [← Except.ok.inj hstarts]
        rfl

theorem Evaluated.routed_dominated (s : Evaluated env a ev) (h : a.Dominated) : s.routed.Dominated := by
  cases hev : ev.isDayRollover with
  | true =>
      have hroute := s.route_eq
      rw [route, hev] at hroute
      have hsame : a = s.routed := congrArg Prod.fst (Except.ok.inj hroute)
      rwa [← hsame]
  | false =>
      have hframe := route_outsideDays s.route_eq
      have hequity : s.routed.equity = a.equity := eq_of_outsideDays hframe Account.equity fun _ => rfl
      constructor
      · rw [eq_of_outsideDays hframe Account.balance fun _ => rfl,
          eq_of_outsideDays hframe Account.peakBalance fun _ => rfl]
        exact h.balance_le
      · rw [hequity, eq_of_outsideDays hframe Account.peakEquity fun _ => rfl]
        exact h.equity_le
      · rw [hequity, s.routed_intradayPeakEquity hev, Account.intradayPeakAt]
        split
        · split
          · exact le_rfl
          · exact h.intraday_le
        · exact h.intraday_le

/-- The balances with their peaks. -/
def Account.marks (a : Account) : Money × Money × Money × Money × Money :=
  (a.balance, a.peakBalance, a.equity, a.peakEquity, a.intradayPeakEquity)

theorem Account.Dominated.of_marks (ha : a.Dominated) (h : b.marks = a.marks) : b.Dominated := by
  simp only [Account.marks, Prod.mk.injEq] at h
  obtain ⟨hbalance, hpeakBalance, hequity, hpeakEquity, hintraday⟩ := h
  constructor
  · rw [hbalance, hpeakBalance]
    exact ha.balance_le
  · rw [hequity, hpeakEquity]
    exact ha.equity_le
  · rw [hequity, hintraday]
    exact ha.intraday_le

theorem dominated_congr (h : b.marks = a.marks) : b.Dominated ↔ a.Dominated :=
  ⟨fun hb => hb.of_marks h.symm, fun ha => ha.of_marks h⟩

/-- What keeps the marks of an account in front: a fill must not carry the balance over the peaks of
the equity, a payout not over that of the balance. -/
def Account.MarksHold (a : Account) (intradayPeak : Money) : PipelineEvent → Prop
  | .tradeFilled trade =>
      a.balance + trade.netPnl ≤ a.peakEquity ∧ a.balance + trade.netPnl ≤ intradayPeak
  | .payoutApprove =>
      ∀ config ∈ a.plan.payoutConfig,
        a.balance - (a.balance - a.balanceAtLastPayout) * config.traderShareFor a.payoutCount ≤
          a.peakBalance
  | _ => True

theorem Effect.dominated_iff {evs} (h : Effect env a ev b evs) (ha : a.Dominated) :
    b.Dominated ↔ a.MarksHold a.intradayPeakEquity ev := by
  have hraise (peak x : Money) : x ≤ if peak < x then x else peak := by
    split
    · exact le_rfl
    · rename_i hle; exact not_lt.mp hle
  by_cases hquiet : ev.isQuiet = true
  · refine iff_of_true (ha.of_marks (h.transition.quiet_reading hquiet Account.marks fun _ => rfl)) ?_
    cases ev <;> trivial
  cases h with
  | tradeFilled h =>
      have hmarks (x : Account) : x.markActiveTradingDay.marks = x.marks := by
        unfold Account.markActiveTradingDay
        split <;> rfl
      rw [dominated_congr (hmarks _), Account.MarksHold, ← h]
      exact ⟨fun hb => ⟨hb.equity_le, hb.intraday_le⟩, fun hb => ⟨hraise _ _, hb.1, hb.2⟩⟩
  | tick h => exact iff_of_true ⟨hraise _ _, hraise _ _, hraise _ _⟩ trivial
  | tickEstimated h => exact iff_of_true (ha.of_marks rfl) trivial
  | dayRollover h =>
      obtain ⟨dayStart, -, rfl⟩ := rolloverDay_ok.mp h
      refine iff_of_true ?_ trivial
      split
      · exact ⟨ha.balance_le, ha.equity_le, le_rfl⟩
      · exact ⟨ha.balance_le, ha.equity_le, le_rfl⟩
  | payoutApprove hq h =>
      obtain ⟨config, haccepted⟩ := acceptedQuote_accepted hq
      obtain ⟨-, rfl⟩ := recordPayout_eq h
      rename_i quote
      have hpaid : a.balance - quote.amount + quote.feeRefund =
          a.balance - (a.balance - a.balanceAtLastPayout) * config.traderShareFor a.payoutCount := by
        rw [haccepted.amount_eq, haccepted.basis_eq, haccepted.share_eq]
        ring
      simp only [Account.MarksHold, haccepted.config_eq, Option.mem_some, forall_eq', ← hpaid]
      exact ⟨fun hb => hb.balance_le, fun hb => ⟨hb, ha.equity_le, ha.intraday_le⟩⟩
  | _ => exact absurd rfl hquiet

theorem Evaluated.dominated_iff (s : Evaluated env a ev) (ha : a.Dominated) :
    s.applied.account.Dominated ↔
      a.MarksHold (a.intradayPeakAt (ev.eventTimestamp env.routingNow)) ev := by
  obtain ⟨trades, heffect⟩ := applyEvent_effect s.apply_eq
  have hrouted : ({ s.routed with todayTrades := trades } : Account).Dominated :=
    (s.routed_dominated ha).of_marks rfl
  have hframe (m : Money) : s.routed.MarksHold m ev = a.MarksHold m ev :=
    s.routed_reading (fun x => x.MarksHold m ev) fun _ => by cases ev <;> rfl
  rw [heffect.dominated_iff hrouted]
  cases hev : ev.isDayRollover with
  | true =>
      cases ev <;> simp only [PipelineEvent.isDayRollover, reduceCtorEq] at hev
      exact Iff.rfl
  | false =>
      rw [← hframe, ← s.routed_intradayPeakEquity hev]
      cases ev <;> exact Iff.rfl

/-- Without a promotion the rest of the call leaves the marks alone. -/
theorem Passage.account_marks (s : Passage p env a ev r) (h : (s.marked p).promotable = false) :
    r.account.marks = s.applied.account.marks :=
  s.unpromoted_reading h Account.marks (fun _ _ _ _ _ _ => rfl) fun _ _ _ _ => rfl

/-- A promotion starts the peaks anew. -/
theorem Passage.dominated (s : Passage p env a ev r) (h : s.applied.account.Dominated) :
    r.account.Dominated := by
  rcases applyPromotion_ok s.promotion_eq with ⟨hp, -, -⟩ | ⟨-, -, heq, -⟩
  · exact h.of_marks (s.account_marks hp)
  · have hmarks : r.account.marks = s.promoted.marks :=
      s.account_reading Account.marks fun _ _ _ _ => rfl
    have hmarked : (s.marked p).marks = s.applied.account.marks :=
      s.marked_reading p Account.marks fun _ _ _ _ _ _ => rfl
    refine (?_ : s.promoted.Dominated).of_marks hmarks
    rw [heq]
    exact ⟨le_rfl, le_rfl, (h.of_marks hmarked).intraday_le⟩

/-! ## Runs -/

namespace Processed

def KeepsMarks (c : Processed) : Prop :=
  c.before.MarksHold (c.before.intradayPeakAt (c.ev.eventTimestamp c.env.routingNow)) c.ev

theorem dominated (c : Processed) (h : c.KeepsMarks) (hbefore : c.before.Dominated) :
    c.after.Dominated := by
  obtain ⟨s⟩ := c.passage
  exact s.dominated ((s.dominated_iff hbefore).mpr h)

theorem dominated_iff (c : Processed) (hphase : c.KeepsPhase) (hbefore : c.before.Dominated) :
    c.after.Dominated ↔ c.KeepsMarks := by
  obtain ⟨s⟩ := c.passage
  have hmarks := s.account_marks (s.not_promotable_of_phase hphase)
  exact (dominated_congr hmarks).trans (s.dominated_iff hbefore)

end Processed

theorem Account.Fresh.dominated (h : a.Fresh) : a.Dominated := by
  have hnew (id : AccountId) (tenantId : TenantId) (plan : ChallengePlan) :
      (Account.new id tenantId plan).Dominated := ⟨le_rfl, le_rfl, le_rfl⟩
  rcases h with ⟨id, tenantId, plan, rfl⟩ | ⟨id, tenantId, plan, at_, h⟩
  · exact hnew id tenantId plan
  · obtain ⟨-, dayStart, -, rfl⟩ := Account.start_eq h
    exact (hnew id tenantId plan).of_marks rfl

/-- The marks dominate as long as no fill passes the peaks of the equity and no payout that of the
balance; and a call that does, a promotion apart, is where they stop to. -/
theorem peaks_dominate (ha : a.Fresh) (h : Run a calls b) :
    ((∀ c ∈ calls, c.KeepsMarks) → b.Dominated) ∧
      ∀ c ∈ calls, c.before.Dominated → c.KeepsPhase → (c.after.Dominated ↔ c.KeepsMarks) :=
  ⟨fun hcalls => h.invariant Account.Dominated (fun c hc hbefore => c.dominated hc hbefore) hcalls
      ha.dominated,
    fun c _ hbefore hphase => c.dominated_iff hphase hbefore⟩

theorem peaks_dominate_loss :
    ∃ (a b : Account) (calls : List Processed),
      a.Fresh ∧ Run a calls b ∧
        calls.map Processed.ev =
          [.tick (tickAt 1) 10100 9900, .tradeFilled (closingFill (-100) 1)] ∧ b.Dominated := by
  have hrun :
      (do
        let a ← (Account.new ⟨1⟩ ⟨1⟩ promptPlan).start 0
        let r ← (Pipeline.ofPlan promptPlan).process (.at 1) a (.tradeFilled (closingFill (-100) 1))
        let _ ← (Pipeline.ofPlan promptPlan).process (.at (Duration.seconds 1)) r.account
          (.tick (tickAt 1) 10100 9900)
        pure (a.balance, a.peakEquity, a.intradayPeakAt 1, (closingFill (-100) 1).netPnl)) =
        .ok (10000, 10000, 10000, -100) := by
    decide +kernel
  obtain ⟨a, hstart, hrun⟩ := bind_eq_ok.mp hrun
  obtain ⟨r, h, hrun⟩ := bind_eq_ok.mp hrun
  obtain ⟨r', h', hrun⟩ := bind_eq_ok.mp hrun
  have hfacts := pure_eq_ok.mp hrun
  simp only [Prod.mk.injEq] at hfacts
  obtain ⟨hbalance, hpeak, hintraday, hnet⟩ := hfacts
  have hfresh : a.Fresh := .inr ⟨_, _, _, _, hstart⟩
  have hcalls : Run a [.of h', .of h] r'.account := .cons (Processed.of h') (.cons (Processed.of h) .nil)
  refine ⟨a, r'.account, _, hfresh, hcalls, rfl, (peaks_dominate hfresh hcalls).1 ?_⟩
  simp only [List.forall_mem_cons, List.not_mem_nil, false_imp_iff, implies_true, and_true]
  refine ⟨trivial, ?_⟩
  change a.balance + (closingFill (-100) 1).netPnl ≤ a.peakEquity ∧
    a.balance + (closingFill (-100) 1).netPnl ≤ a.intradayPeakAt 1
  rw [hbalance, hpeak, hintraday, hnet]
  norm_num

/-- A winning fill leaves both peaks of the equity behind. -/
theorem fill_passes_peaks :
    ∃ (a b : Account) (calls : List Processed),
      a.Fresh ∧ Run a calls b ∧ calls.map Processed.ev = [.tradeFilled (closingFill 100 1)] ∧
        b.peakEquity < b.equity ∧ b.intradayPeakEquity < b.equity := by
  have hrun :
      (do
        let a ← (Account.new ⟨1⟩ ⟨1⟩ promptPlan).start 0
        let r ← (Pipeline.ofPlan promptPlan).process (.at 1) a (.tradeFilled (closingFill 100 1))
        pure (r.account.equity, r.account.peakEquity, r.account.intradayPeakEquity)) =
        .ok (10100, 10000, 10000) := by
    decide +kernel
  obtain ⟨a, hstart, hrun⟩ := bind_eq_ok.mp hrun
  obtain ⟨r, h, hrun⟩ := bind_eq_ok.mp hrun
  have hfacts := pure_eq_ok.mp hrun
  simp only [Prod.mk.injEq] at hfacts
  obtain ⟨hequity, hpeak, hintraday⟩ := hfacts
  refine ⟨a, r.account, [.of h], .inr ⟨_, _, _, _, hstart⟩, .cons (Processed.of h) .nil, rfl, ?_, ?_⟩
  · rw [hequity, hpeak]; norm_num
  · rw [hequity, hintraday]; norm_num

end Propfirm
