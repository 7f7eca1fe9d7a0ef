import Propfirm.Engine.Lemmas.Passage
import Propfirm.Lib.Grid

/-!
# Trading days of a UTC plan

The daily resets of a UTC plan lie on a grid of one day. Catching up with an event walks the grid from
the stored day to that of the event, and always arrives.
-/

namespace Propfirm

open Fallible Grid

variable {plan : ChallengePlan} {p : Pipeline} {env : Env} {a b : Account} {ev : PipelineEvent}
  {r : PipelineResult} {c t now : Timestamp}

/-! ## The calendar -/

/-- A plan without a time zone, whose reset hour exists. -/
structure ChallengePlan.Utc (plan : ChallengePlan) : Prop where
  timezone_eq : plan.timezone = none
  reset_lt : plan.dayResetTime < 24

def ChallengePlan.dayStart (plan : ChallengePlan) (t : Timestamp) : Timestamp :=
  floor (Duration.days 1) (Duration.hours plan.dayResetTime) t

def ChallengePlan.IsReset (plan : ChallengePlan) (t : Timestamp) : Prop :=
  OnGrid (Duration.days 1) (Duration.hours plan.dayResetTime) t

theorem days_one_pos : 0 < Duration.days 1 := by decide

theorem ChallengePlan.dayStart_isReset : plan.IsReset (plan.dayStart t) := floor_onGrid

theorem ChallengePlan.IsReset.dayStart_eq (h : plan.IsReset c) : plan.dayStart c = c :=
  h.floor_self days_one_pos

theorem ChallengePlan.IsReset.le_dayStart_iff (h : plan.IsReset c) : c ≤ plan.dayStart t ↔ c ≤ t :=
  h.le_floor_iff days_one_pos

theorem ChallengePlan.dayStart_le (plan : ChallengePlan) (t : Timestamp) : plan.dayStart t ≤ t :=
  floor_le days_one_pos _ t

theorem ChallengePlan.dayStart_mono (plan : ChallengePlan) {t u : Timestamp} (h : t ≤ u) :
    plan.dayStart t ≤ plan.dayStart u :=
  plan.dayStart_isReset.le_dayStart_iff.mpr ((plan.dayStart_le t).trans h)

theorem atHour_ok {date : ℤ} {hour : ℕ} (h : hour < 24) :
    ChallengePlan.atHour date hour = .ok (Duration.days date + Duration.hours hour) := by
  rw [ChallengePlan.atHour, if_pos h]

theorem isReset_of_date {date : ℤ} :
    plan.IsReset (Duration.days date + Duration.hours plan.dayResetTime) :=
  ⟨date, by simp only [Duration.days]; ring⟩

theorem ChallengePlan.Utc.tradingDayStart (h : plan.Utc) (t : Timestamp) :
    plan.tradingDayStart t = .ok (plan.dayStart t) := by
  have hreset := h.reset_lt
  simp only [ChallengePlan.tradingDayStart, h.timezone_eq, atHour_ok hreset]
  -- the reset on the date of `t`, or the one a day earlier
  have hgrid : plan.IsReset (Duration.days t.date + Duration.hours plan.dayResetTime) := isReset_of_date
  have hgrid' : plan.IsReset (Duration.days (t.date - 1) + Duration.hours plan.dayResetTime) :=
    isReset_of_date
  simp only [Duration.days, Duration.hours, Timestamp.date] at hgrid hgrid' ⊢
  simp only [bind, Except.bind, pure, Except.pure]
  split
  · rename_i hle
    refine congrArg Except.ok (hgrid.floor_eq days_one_pos hle ?_).symm
    simp only [Duration.days]; omega
  · rename_i hlt
    have heq : t / (1 * 86400000000000) * 86400000000000 + plan.dayResetTime * 3600000000000 -
        1 * 86400000000000 =
        (t / (1 * 86400000000000) - 1) * 86400000000000 + plan.dayResetTime * 3600000000000 := by ring
    rw [heq]
    refine congrArg Except.ok (hgrid'.floor_eq days_one_pos ?_ ?_).symm
    · omega
    · simp only [Duration.days]; omega

theorem ChallengePlan.Utc.nextTradingDayStart (h : plan.Utc) (hc : plan.IsReset c) :
    plan.nextTradingDayStart c = .ok (c + Duration.days 1) := by
  have hreset := h.reset_lt
  simp only [ChallengePlan.nextTradingDayStart, h.timezone_eq, atHour_ok hreset]
  obtain ⟨k, rfl⟩ := hc
  simp only [Duration.days, Duration.hours, Timestamp.date, Except.ok.injEq]
  omega

/-! ## Catching up -/

/-- The next reset is the day of whatever time the catch-up aims at. -/
theorem ChallengePlan.IsReset.target_eq (hreset : plan.IsReset c) (hlt : c < plan.dayStart t) :
    plan.dayStart (if plan.dayStart t ≤ c + Duration.days 1 then t else c + Duration.days 1) =
      c + Duration.days 1 := by
  have hle := hreset.add_le_of_lt days_one_pos plan.dayStart_isReset hlt
  split
  · rename_i hge; exact le_antisymm hge hle
  · exact ChallengePlan.IsReset.dayStart_eq hreset.next

/-- The loop passes every reset on the way, given fuel for each of them. -/
theorem ChallengePlan.Utc.daysUpTo {fuel k : ℕ} (h : plan.Utc) (hreset : plan.IsReset c)
    (hahead : plan.dayStart t = c + k * Duration.days 1) (hfuel : k < fuel) :
    plan.daysUpTo t (plan.dayStart t) fuel c = .ok (stops (Duration.days 1) k c) := by
  induction k generalizing c fuel with
  | zero => exact daysUpTo_done (by rw [hahead]; simp) hfuel
  | succ k ih =>
      obtain ⟨fuel, rfl⟩ := Nat.exists_eq_add_one.mpr (Nat.zero_lt_of_lt hfuel)
      have hahead' : plan.dayStart t = c + Duration.days 1 + k * Duration.days 1 := by
        rw [hahead]; push_cast; ring
      have hlt : c < plan.dayStart t := by
        rw [hahead']
        exact (lt_add_of_pos_right c days_one_pos).trans_le (le_add_mul days_one_pos _ k)
      rw [ChallengePlan.daysUpTo, if_pos hlt, h.nextTradingDayStart hreset]
      simp only [bind, Except.bind, h.tradingDayStart, hreset.target_eq hlt,
        ih hreset.next hahead' (Nat.lt_of_succ_lt_succ hfuel)]
      rfl

theorem ChallengePlan.Utc.daysAhead {k : ℕ} (h : plan.Utc) (hreset : plan.IsReset c)
    (hahead : plan.dayStart t = c + k * Duration.days 1) :
    plan.daysAhead (some c) t = .ok (stops (Duration.days 1) k c) := by
  have hle : c ≤ plan.dayStart t := hahead ▸ le_add_mul days_one_pos c k
  have hfuel : (k : ℤ) < ((plan.dayStart t - c) / Duration.hours 1).toNat + 1 := by
    have hunits := lt_add_units (show 0 < Duration.hours 1 by decide)
      (show Duration.hours 1 ≤ Duration.days 1 by decide) hle
    nth_rewrite 1 [hahead] at hunits
    have hunits' := lt_of_add_lt_add_left hunits
    exact_mod_cast lt_of_mul_lt_mul_right hunits' days_one_pos.le
  simp only [ChallengePlan.daysAhead, h.tradingDayStart, bind, Except.bind]
  exact h.daysUpTo hreset hahead (by unfold rolloverFuel; omega)

theorem rolled_stops_day {had : Bool} {k : ℕ} (hc : a.currentTradingDayStart = some c) :
    (a.rolled (tradedFirst had (stops (Duration.days 1) k c))).currentTradingDayStart =
      some (c + k * Duration.days 1) := by
  induction k generalizing a c had with
  | zero => simpa [stops, tradedFirst, Account.rolled] using hc
  | succ k ih =>
      have hrest := @ih (a.rollover had (c + Duration.days 1)) _ false rollover_currentTradingDayStart
      rw [tradedFirst_false] at hrest
      refine hrest.trans (congrArg some ?_)
      push_cast
      ring

/-- What the catch-up leaves behind when the stored day was earlier than the event's. -/
structure CaughtUp (a b : Account) (day : Timestamp) : Prop where
  day_eq : b.currentTradingDayStart = some day
  index_lt : a.tradingDayIndex < b.tradingDayIndex
  realized_eq : b.todayRealizedPnl = 0

/-- Catching up never fails, moves the stored day forward to the event's, and announces it exactly
when it moves. -/
theorem autoRollover_utc (h : a.plan.Utc) (hc : a.currentTradingDayStart = some c)
    (hreset : a.plan.IsReset c) (t now : Timestamp) :
    ∃ b evs, autoRollover a t now = .ok (b, evs) ∧
      b.currentTradingDayStart = some (max c (a.plan.dayStart t)) ∧
      (c < a.plan.dayStart t →
        CaughtUp a b (a.plan.dayStart t) ∧
          evs = [⟨a.id, .dayRollover b.tradingDayIndex b.dayStartBalance, t⟩]) := by
  rw [autoRollover_eq, hc]
  by_cases hlt : c < a.plan.dayStart t
  · obtain ⟨k, hk⟩ := hreset.exists_add days_one_pos a.plan.dayStart_isReset hlt.le
    have hne : stops (Duration.days 1) k c ≠ [] := by
      rintro hnil
      have hzero : k = 0 := by simpa using congrArg List.length hnil
      rw [hk, hzero] at hlt
      simp at hlt
    have hpos : 0 < (stops (Duration.days 1) k c).length := List.length_pos_iff.mpr hne
    rw [h.daysAhead hreset hk]
    refine ⟨_, _, rfl, ?_, fun _ => ⟨⟨?_, ?_, ?_⟩, if_neg hne⟩⟩
    · rw [Account.caughtUp, rolled_stops_day hc, max_eq_right hlt.le, hk]
    · rw [Account.caughtUp, rolled_stops_day hc, hk]
    · rw [Account.caughtUp, rolled_tradingDayIndex, tradedFirst_length]
      omega
    · refine rolled_todayRealizedPnl (List.length_pos_iff.mp ?_)
      rw [tradedFirst_length]
      exact hpos
  · have hahead : a.plan.daysAhead (some c) t = .ok [] := by
      simp only [ChallengePlan.daysAhead, h.tradingDayStart, bind, Except.bind]
      exact daysUpTo_done hlt (by unfold rolloverFuel; omega)
    rw [hahead]
    refine ⟨_, _, rfl, ?_, fun h' => absurd h' hlt⟩
    rw [max_eq_left (not_lt.mp hlt)]
    exact hc

/-! ## The stored day through the stages -/

/-- The time of an event: its own, or the clock where the call first reads it. -/
def PipelineEvent.time (env : Env) (ev : PipelineEvent) : Timestamp :=
  ev.eventTimestamp (if ev.isDayRollover then env.applyNow else env.routingNow)

/-- The stored day after an event on an account that has been started. -/
def PipelineEvent.dayAfter (c : Timestamp) (ev : PipelineEvent) : Timestamp :=
  if ev.isDayRollover then c + Duration.days 1 else c

theorem markActiveTradingDay_currentTradingDayStart :
    a.markActiveTradingDay.currentTradingDayStart = a.currentTradingDayStart := by
  unfold Account.markActiveTradingDay
  split <;> rfl

/-- Of the events on a started account only an explicit rollover moves the stored day. -/
theorem Transition.currentTradingDayStart (h : Transition env a ev b) (hutc : a.plan.Utc)
    (ha : a.status ≠ .pending) (hc : a.currentTradingDayStart = some c) (hreset : a.plan.IsReset c) :
    b.currentTradingDayStart = some (ev.dayAfter c) := by
  cases h with
  | accountStarted h => exact absurd (Account.start_eq h).1 ha
  | orderSubmitted => exact hc
  | tradeFilled => exact markActiveTradingDay_currentTradingDayStart.trans hc
  | tick h => exact hc
  | tickEstimated => exact hc
  | dayRollover h =>
      obtain ⟨dayStart, htarget, rfl⟩ := rolloverDay_ok.mp h
      have hday : a.dayStartOr env.rolloverNow = .ok c := by simp [Account.dayStartOr, hc]
      obtain ⟨_, h1, h2⟩ := bind_eq_ok.mp htarget
      rw [hday] at h1
      obtain rfl := Except.ok.inj h1
      rw [hutc.nextTradingDayStart hreset] at h2
      obtain rfl := Except.ok.inj h2
      rfl
  | endOfDay => exact hc
  | onDemand => exact hc
  | emergencyStop => exact hc
  | overrideBreach h =>
      obtain ⟨-, rfl⟩ := Account.clearBreach_eq h
      exact hc
  | payoutRequest h =>
      obtain ⟨-, rfl⟩ := Account.markPayoutPending_ok h
      exact hc
  | payoutApprove h =>
      obtain ⟨-, rfl⟩ := recordPayout_eq h
      exact hc

theorem Evaluated.marked_currentTradingDayStart (s : Evaluated env a ev) (p : Pipeline) :
    (s.marked p).currentTradingDayStart = s.applied.account.currentTradingDayStart :=
  s.marked_reading p Account.currentTradingDayStart fun _ _ _ _ _ _ => rfl

theorem Passage.account_currentTradingDayStart (s : Passage p env a ev r) :
    r.account.currentTradingDayStart = s.promoted.currentTradingDayStart :=
  s.account_reading Account.currentTradingDayStart fun _ _ _ _ => rfl

end Propfirm
