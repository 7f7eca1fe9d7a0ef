import Propfirm.Engine.Lemmas.Transition

/-!
# The days an event is ahead

Catching up with an event is a series of rollovers. Which days it passes is a matter of the plan, the
stored day and the time of the event; the rest of the account only decides whether the first of them
counts as traded.
-/

namespace Propfirm

open Fallible

variable {env : Env} {a b : Account} {ev : PipelineEvent} {days : List (Bool × Timestamp)}
  {t day now start : Timestamp} {had first : Bool}

/-! ## Days in a row -/

def Account.rollover (a : Account) (had : Bool) (dayStart : Timestamp) : Account :=
  (if had then a.closeTradedDay else a).openNextDay dayStart

/-- The account after a series of rollovers, each with whether the day had trades and where the next
one starts. -/
def Account.rolled (a : Account) (days : List (Bool × Timestamp)) : Account :=
  days.foldl (fun x day => x.rollover day.1 day.2) a

theorem rolloverDay_some :
    a.rolloverDay had (some t) now = (a.plan.tradingDayStart t).map (a.rollover had) := by
  simp only [Account.rolloverDay, Account.rolloverTarget]
  cases a.plan.tradingDayStart t <;> rfl

theorem rollover_outsideDays : (a.rollover had t).outsideDays = a.outsideDays := by
  cases had <;> rfl

theorem rollover_plan : (a.rollover had t).plan = a.plan :=
  eq_of_outsideDays rollover_outsideDays Account.plan fun _ => rfl

theorem rollover_currentTradingDayStart : (a.rollover had t).currentTradingDayStart = some t := rfl

theorem rolled_outsideDays : (a.rolled days).outsideDays = a.outsideDays := by
  induction days generalizing a with
  | nil => rfl
  | cons day days ih => exact ih.trans rollover_outsideDays

theorem rolled_tradingDayIndex : (a.rolled days).tradingDayIndex = a.tradingDayIndex + days.length := by
  induction days generalizing a with
  | nil => rfl
  | cons day days ih =>
      obtain ⟨had, dayStart⟩ := day
      have hone : (a.rollover had dayStart).tradingDayIndex = a.tradingDayIndex + 1 := by
        cases had <;> rfl
      refine ih.trans ?_
      rw [hone, List.length_cons]
      omega

/-- What every rollover sets to a value that the days do not enter. -/
theorem rolled_set {β : Type} (f v : Account → β)
    (hf : ∀ (x : Account) (had : Bool) (dayStart : Timestamp), f (x.rollover had dayStart) = v x)
    (hv : ∀ x : Account, v x.outsideDays = v x) (h : days ≠ []) : f (a.rolled days) = v a := by
  induction days generalizing a with
  | nil => exact absurd rfl h
  | cons day days ih =>
      cases days with
      | nil => exact hf a day.1 day.2
      | cons day' days =>
          exact (ih (List.cons_ne_nil _ _)).trans (eq_of_outsideDays rollover_outsideDays v hv)

theorem rolled_todayRealizedPnl (h : days ≠ []) : (a.rolled days).todayRealizedPnl = 0 :=
  rolled_set Account.todayRealizedPnl (fun _ => 0) (fun _ _ _ => rfl) (fun _ => rfl) h

theorem rolled_dayStartBalance (h : days ≠ []) : (a.rolled days).dayStartBalance = a.balance :=
  rolled_set Account.dayStartBalance Account.balance (fun _ had _ => by cases had <;> rfl) (fun _ => rfl) h

/-! ## Catching up -/

/-- The days that start after the stored one, up to that of the event at `t`. -/
def ChallengePlan.daysUpTo (plan : ChallengePlan) (t eventDay : Timestamp) :
    ℕ → Timestamp → Outcome (List Timestamp)
  | 0, _ => panicWith "day rollover did not reach the event"
  | fuel + 1, start =>
      if start < eventDay then do
        let next ← plan.nextTradingDayStart start
        let dayStart ← plan.tradingDayStart (if eventDay ≤ next then t else next)
        let rest ← plan.daysUpTo t eventDay fuel dayStart
        pure (dayStart :: rest)
      else pure []

/-- Only the first of several days may have had trades. -/
def tradedFirst (had : Bool) : List Timestamp → List (Bool × Timestamp)
  | [] => []
  | dayStart :: rest => (had, dayStart) :: rest.map fun d => (false, d)

theorem tradedFirst_false (starts : List Timestamp) :
    tradedFirst false starts = starts.map fun d => (false, d) := by
  cases starts <;> rfl

theorem tradedFirst_length (starts : List Timestamp) : (tradedFirst had starts).length = starts.length := by
  cases starts with
  | nil => rfl
  | cons d ds => simp [tradedFirst]

theorem rolloverLoop_eq {fuel : ℕ} (hstart : a.currentTradingDayStart = some start) :
    rolloverLoop t day now fuel first a = (a.plan.daysUpTo t day fuel start).map fun starts =>
      a.rolled (tradedFirst (first && decide (a.todayRealizedPnl ≠ 0)) starts) := by
  induction fuel generalizing a start first with
  | zero => rfl
  | succ fuel ih =>
      simp only [rolloverLoop, ChallengePlan.daysUpTo, hstart]
      by_cases hlt : start < day
      · rw [if_pos hlt, if_pos hlt]
        cases hnext : a.plan.nextTradingDayStart start with
        | error f => rfl
        | ok next =>
            simp only [bind, Except.bind, rolloverDay_some]
            cases htarget : a.plan.tradingDayStart (if day ≤ next then t else next) with
            | error f => rfl
            | ok dayStart =>
                -- a day that was just opened has no trades
                simp only [Except.map, ih rollover_currentTradingDayStart, rollover_plan, Bool.false_and]
                cases a.plan.daysUpTo t day fuel dayStart with
                | error f => rfl
                | ok rest => simp only [tradedFirst_false]; rfl
      · rw [if_neg hlt, if_neg hlt]
        rfl

theorem daysUpTo_ne_nil {plan : ChallengePlan} {fuel : ℕ} {starts : List Timestamp} (hlt : start < day)
    (h : plan.daysUpTo t day fuel start = .ok starts) : starts ≠ [] := by
  cases fuel with
  | zero => cases h
  | succ fuel =>
      rw [ChallengePlan.daysUpTo, if_pos hlt] at h
      obtain ⟨_, -, h⟩ := bind_eq_ok.mp h
      obtain ⟨_, -, h⟩ := bind_eq_ok.mp h
      obtain ⟨_, -, h⟩ := bind_eq_ok.mp h
      rw [← pure_eq_ok.mp h]
      exact List.cons_ne_nil _ _

theorem daysUpTo_done {plan : ChallengePlan} {fuel : ℕ} (hlt : ¬start < day) (hfuel : 0 < fuel) :
    plan.daysUpTo t day fuel start = .ok [] := by
  obtain ⟨fuel, rfl⟩ := Nat.exists_eq_add_one.mpr hfuel
  rw [ChallengePlan.daysUpTo, if_neg hlt]
  rfl

/-- The days that an event at `t` is ahead of the stored one. -/
def ChallengePlan.daysAhead (plan : ChallengePlan) (stored : Option Timestamp) (t : Timestamp) :
    Outcome (List Timestamp) := do
  let eventDay ← plan.tradingDayStart t
  match stored with
  | none => pure []
  | some start => plan.daysUpTo t eventDay (rolloverFuel start eventDay) start

def Account.caughtUp (a : Account) (starts : List Timestamp) : Account :=
  a.rolled (tradedFirst (decide (a.todayRealizedPnl ≠ 0)) starts)

theorem autoRollover_eq :
    autoRollover a t now = (a.plan.daysAhead a.currentTradingDayStart t).map fun starts =>
      (a.caughtUp starts,
        if starts = [] then []
        else
          [⟨a.id, .dayRollover (a.caughtUp starts).tradingDayIndex (a.caughtUp starts).dayStartBalance,
            t⟩]) := by
  unfold autoRollover ChallengePlan.daysAhead Account.dayStartOr
  cases hday : a.plan.tradingDayStart t with
  | error f => rfl
  | ok eventDay =>
      cases hstart : a.currentTradingDayStart with
      | none =>
          simp [bind, Except.bind, Except.map, pure, Except.pure, Account.caughtUp, tradedFirst,
            Account.rolled]
      | some start =>
          simp only [bind, Except.bind]
          by_cases hlt : start < eventDay
          · rw [if_pos hlt, rolloverLoop_eq hstart, Bool.true_and]
            cases hstarts : a.plan.daysUpTo t eventDay (rolloverFuel start eventDay) start with
            | error f => rfl
            | ok starts =>
                simp only [Except.map, if_neg (daysUpTo_ne_nil hlt hstarts)]
                rfl
          · rw [if_neg hlt, daysUpTo_done hlt (by unfold rolloverFuel; omega)]
            rfl

theorem route_eq_map :
    route env a ev =
      if ev.isDayRollover then .ok (a, [])
      else (a.plan.daysAhead a.currentTradingDayStart (ev.eventTimestamp env.routingNow)).map fun starts =>
        (a.caughtUp starts,
          if starts = [] then []
          else [⟨a.id, .dayRollover (a.caughtUp starts).tradingDayIndex (a.caughtUp starts).dayStartBalance,
            ev.eventTimestamp env.routingNow⟩]) := by
  rw [route, autoRollover_eq]

theorem route_outsideDays {evs} (h : route env a ev = .ok (b, evs)) : b.outsideDays = a.outsideDays := by
  rw [route_eq_map] at h
  split at h
  · cases h; rfl
  · obtain ⟨starts, -, hmap⟩ := map_eq_ok.mp h
    rw [← (Prod.mk.inj hmap).1]
    exact rolled_outsideDays

/-- The stored day is over at the time. -/
def Account.behind (a : Account) (t : Timestamp) : Bool :=
  match a.currentTradingDayStart, a.plan.tradingDayStart t with
  | some start, .ok day => decide (start < day)
  | _, _ => false

theorem tradedFirst_ne_nil {had : Bool} {starts : List Timestamp} (h : starts ≠ []) :
    tradedFirst had starts ≠ [] := by
  rw [← List.length_pos_iff, tradedFirst_length]
  exact List.length_pos_iff.mpr h

theorem route_todayTrades {evs : List DomainEvent} (hev : ev.isDayRollover = false)
    (h : route env a ev = .ok (b, evs)) :
    b.todayTrades = if a.behind (ev.eventTimestamp env.routingNow) then [] else a.todayTrades := by
  rw [route_eq_map, hev] at h
  obtain ⟨starts, hstarts, hmap⟩ := map_eq_ok.mp h
  obtain ⟨rfl, -⟩ := Prod.mk.inj hmap
  obtain ⟨day, hday, hstarts⟩ := bind_eq_ok.mp hstarts
  cases hstored : a.currentTradingDayStart with
  | none =>
      have hbehind : a.behind (ev.eventTimestamp env.routingNow) = false := by
        simp only [Account.behind, hstored]
      rw [hstored] at hstarts
      cases hstarts
      rw [hbehind]
      rfl
  | some start =>
      have hbehind : a.behind (ev.eventTimestamp env.routingNow) = decide (start < day) := by
        simp only [Account.behind, hstored, hday]
      rw [hstored] at hstarts
      dsimp only at hstarts
      by_cases hlt : start < day
      · rw [hbehind, if_pos (decide_eq_true hlt)]
        exact rolled_set Account.todayTrades (fun _ => []) (fun _ had _ => by cases had <;> rfl)
          (fun _ => rfl) (tradedFirst_ne_nil (daysUpTo_ne_nil hlt hstarts))
      · rw [daysUpTo_done hlt (by unfold rolloverFuel; omega)] at hstarts
        cases hstarts
        rw [hbehind, if_neg (by simpa using hlt)]
        rfl

/-- A catch-up emits one event, with the day it arrives at; without one nothing changes. -/
theorem route_events {evs} (h : route env a ev = .ok (b, evs)) :
    (b = a ∧ evs = []) ∨
      ∃ ts, evs = [⟨a.id, .dayRollover b.tradingDayIndex b.dayStartBalance, ts⟩] := by
  rw [route_eq_map] at h
  split at h
  · cases h; exact .inl ⟨rfl, rfl⟩
  · obtain ⟨starts, -, hmap⟩ := map_eq_ok.mp h
    obtain ⟨rfl, rfl⟩ := Prod.mk.inj hmap
    by_cases hnil : starts = []
    · rw [hnil]; exact .inl ⟨rfl, rfl⟩
    · rw [if_neg hnil]; exact .inr ⟨_, rfl⟩

end Propfirm
