import Propfirm.Engine.Theorems.Rollovers

/-!
# Catching up over several days

The catch-up passes once for each day up to that of the event. The first pass closes the stored day, the
others open days on which nothing happened.
-/

namespace Propfirm

open Fallible Grid

variable {plan : ChallengePlan} {env : Env} {a b : Account} {ev : PipelineEvent} {c t : Timestamp} {k : ℕ}

/-! ## Passes -/

theorem ChallengePlan.Utc.isReset (h : plan.Utc) (hc : plan.tradingDayStart c = .ok c) : plan.IsReset c := by
  rw [h.tradingDayStart] at hc
  rw [← Except.ok.inj hc]
  exact ChallengePlan.dayStart_isReset

/-- With fuel for fewer passes the loop does not arrive. -/
theorem ChallengePlan.Utc.daysUpTo_short {fuel : ℕ} (h : plan.Utc) (hreset : plan.IsReset c)
    (hahead : plan.dayStart t = c + k * Duration.days 1) (hfuel : fuel ≤ k) :
    plan.daysUpTo t (plan.dayStart t) fuel c = panicWith "day rollover did not reach the event" := by
  induction fuel generalizing c k with
  | zero => rfl
  | succ fuel ih =>
      obtain ⟨k, rfl⟩ := Nat.exists_eq_add_one.mpr (Nat.zero_lt_of_lt hfuel)
      have hahead' : plan.dayStart t = c + Duration.days 1 + k * Duration.days 1 := by
        rw [hahead]; push_cast; ring
      have hlt : c < plan.dayStart t := by
        rw [hahead']
        exact (lt_add_of_pos_right c days_one_pos).trans_le (le_add_mul days_one_pos _ k)
      rw [ChallengePlan.daysUpTo, if_pos hlt, h.nextTradingDayStart hreset]
      simp only [bind, Except.bind, h.tradingDayStart, hreset.target_eq hlt,
        ih hreset.next hahead' (Nat.le_of_succ_le_succ hfuel)]
      rfl

/-! ## Statistics -/

/-- The net result of a day entered into the statistics of the days. -/
structure Folded (a b : Account) (net : Money) : Prop where
  profit_eq : b.largestDayProfit = max a.largestDayProfit net
  loss_eq : b.largestDayLoss = min a.largestDayLoss net
  sum_eq : b.sumPositiveDaysProfit = a.sumPositiveDaysProfit + max net 0
  count_eq : b.profitableDaysCount = a.profitableDaysCount + if 0 < net then 1 else 0

theorem folded_closeTradedDay : Folded a a.closeTradedDay a.todayRealizedPnl where
  profit_eq := by
    simp only [Account.closeTradedDay, max_def]
    split <;> split <;> linarith
  loss_eq := by
    simp only [Account.closeTradedDay, min_def]
    split <;> split <;> linarith
  sum_eq := by
    simp only [Account.closeTradedDay, max_def]
    split <;> split <;> linarith
  count_eq := by
    simp only [Account.closeTradedDay]
    split <;> rfl

theorem folded_zero (hprofit : 0 ≤ a.largestDayProfit) (hloss : a.largestDayLoss ≤ 0) : Folded a a 0 where
  profit_eq := (max_eq_left hprofit).symm
  loss_eq := (min_eq_left hloss).symm
  sum_eq := by rw [max_self, add_zero]
  count_eq := by rw [if_neg (lt_irrefl 0), add_zero]

theorem Folded.congr {b' : Account} {net : Money} (h : Folded a b net) (hstats : b'.dayStats = b.dayStats) :
    Folded a b' net where
  profit_eq := (congrArg DayStats.largestDayProfit hstats).trans h.profit_eq
  loss_eq := (congrArg DayStats.largestDayLoss hstats).trans h.loss_eq
  sum_eq := (congrArg DayStats.sumPositiveDaysProfit hstats).trans h.sum_eq
  count_eq := (congrArg DayStats.profitableDaysCount hstats).trans h.count_eq

/-- The first of the days closes the stored one, if it has a result; the others leave the statistics. -/
theorem caughtUp_dayStats (starts : List Timestamp) :
    (a.caughtUp starts).dayStats =
      if starts ≠ [] ∧ a.todayRealizedPnl ≠ 0 then a.closeTradedDay.dayStats else a.dayStats := by
  cases starts with
  | nil => rw [if_neg fun h => h.1 rfl]; rfl
  | cons d ds =>
      have hrest : (a.caughtUp (d :: ds)).dayStats =
          (a.rollover (decide (a.todayRealizedPnl ≠ 0)) d).dayStats := rolled_dayStats ds
      rw [hrest]
      by_cases hnet : a.todayRealizedPnl ≠ 0
      · rw [if_pos ⟨List.cons_ne_nil d ds, hnet⟩, decide_eq_true hnet]
        rfl
      · rw [if_neg fun h => hnet h.2, decide_eq_false hnet]
        rfl

/-- The account `k` days on: the day of the event, the stored day closed and no other day counted. -/
structure DaysOn (a b : Account) (k : ℕ) (day : Timestamp) : Prop where
  index_eq : b.tradingDayIndex = a.tradingDayIndex + k
  day_eq : b.currentTradingDayStart = some day
  stats_eq : b.dayStats =
    if 0 < k ∧ a.todayRealizedPnl ≠ 0 then a.closeTradedDay.dayStats else a.dayStats
  folded : 0 < k → a.todayRealizedPnl ≠ 0 ∨ 0 ≤ a.largestDayProfit ∧ a.largestDayLoss ≤ 0 →
    Folded a b a.todayRealizedPnl
  opened : 0 < k → b.todayRealizedPnl = 0 ∧ b.dayCountedToday = false ∧ b.todayTrades = []
  same : k = 0 → b = a

theorem caughtUp_daysOn (hc : a.currentTradingDayStart = some c) :
    DaysOn a (a.caughtUp (stops (Duration.days 1) k c)) k (c + k * Duration.days 1) := by
  have hlength : (stops (Duration.days 1) k c).length = k := stops_length k c
  have hne : stops (Duration.days 1) k c ≠ [] ↔ 0 < k := by
    rw [← List.length_pos_iff, hlength]
  have hstats := caughtUp_dayStats (a := a) (stops (Duration.days 1) k c)
  simp only [hne] at hstats
  refine ⟨?_, rolled_stops_day hc, hstats, fun hk hsign => ?_, fun hk => ?_, ?_⟩
  · rw [Account.caughtUp, rolled_tradingDayIndex, tradedFirst_length, hlength]
  · by_cases hnet : a.todayRealizedPnl ≠ 0
    · rw [if_pos ⟨hk, hnet⟩] at hstats
      exact folded_closeTradedDay.congr hstats
    · rw [if_neg fun h => hnet h.2] at hstats
      rw [not_not.mp hnet]
      exact (folded_zero (hsign.resolve_left hnet).1 (hsign.resolve_left hnet).2).congr hstats
  · have hpos : tradedFirst (decide (a.todayRealizedPnl ≠ 0)) (stops (Duration.days 1) k c) ≠ [] := by
      rw [← List.length_pos_iff, tradedFirst_length, hlength]
      exact hk
    refine ⟨rolled_todayRealizedPnl hpos, ?_, ?_⟩
    · exact rolled_set Account.dayCountedToday (fun _ => false) (fun _ _ _ => rfl) (fun _ => rfl) hpos
    · exact rolled_set Account.todayTrades (fun _ => []) (fun _ _ _ => rfl) (fun _ => rfl) hpos
  · rintro rfl
    rfl

/-- An event whose trading day starts `k` days after the stored one is caught up with in `k` passes. -/
theorem catch_up_exact (hutc : a.plan.Utc) (hc : a.currentTradingDayStart = some c)
    (hstart : a.plan.tradingDayStart c = .ok c) (hev : ev.isDayRollover = false)
    (hahead : a.plan.tradingDayStart (ev.eventTimestamp env.routingNow) = .ok (c + k * Duration.days 1)) :
    ∃ b evs, route env a ev = .ok (b, evs) ∧ DaysOn a b k (c + k * Duration.days 1) ∧
      ∀ fuel, rolloverLoop (ev.eventTimestamp env.routingNow) (c + k * Duration.days 1) env.rolloverNow
          fuel true a =
        if k < fuel then .ok b else panicWith "day rollover did not reach the event" := by
  have hreset := hutc.isReset hstart
  rw [hutc.tradingDayStart] at hahead
  have hday := Except.ok.inj hahead
  obtain ⟨evs, hroute⟩ := route_utc hutc hc hreset hday hev
  refine ⟨_, evs, hroute, caughtUp_daysOn hc, fun fuel => ?_⟩
  rw [rolloverLoop_eq hc, ← hday]
  split
  · rename_i hfuel
    rw [hutc.daysUpTo hreset hday hfuel]
    rfl
  · rename_i hfuel
    rw [hutc.daysUpTo_short hreset hday (not_lt.mp hfuel)]
    rfl

def tradedAccount : Account :=
  { Account.new ⟨1⟩ ⟨1⟩ promptPlan with
    status := .active
    startedAt := some 0
    currentTradingDayStart := some 0
    todayRealizedPnl := 100 }

theorem catch_up_exact_three_days :
    ∃ b evs, route (.at (Duration.days 3)) tradedAccount .onDemand = .ok (b, evs) ∧
      b.tradingDayIndex = 3 ∧ b.largestDayProfit = 100 ∧ b.profitableDaysCount = 1 := by
  have hutc : tradedAccount.plan.Utc := ⟨rfl, by decide⟩
  have hstart : tradedAccount.plan.tradingDayStart 0 = .ok 0 := by decide +kernel
  have hahead : tradedAccount.plan.tradingDayStart
      (PipelineEvent.eventTimestamp (Env.at (Duration.days 3)).routingNow .onDemand) =
      .ok (0 + (3 : ℕ) * Duration.days 1) := by
    decide +kernel
  obtain ⟨b, evs, hroute, hdays, -⟩ := catch_up_exact hutc rfl hstart rfl hahead
  have hfolded := hdays.folded (by decide) (.inl (by decide +kernel))
  exact ⟨b, evs, hroute, hdays.index_eq, hfolded.profit_eq, hfolded.count_eq⟩

end Propfirm
