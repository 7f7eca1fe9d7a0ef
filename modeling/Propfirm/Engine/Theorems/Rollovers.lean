import Propfirm.Engine.Lemmas.Days
import Propfirm.Engine.Lemmas.Targets
import Propfirm.Engine.Theorems.Promotion

/-!
# Automatic and explicit rollovers

An event that lies days ahead is caught up with in a loop. The same days can be crossed by explicit
rollovers, each of which is a call of its own: the rules are evaluated, and what they decide is done.
-/

namespace Propfirm

open Fallible Grid

variable {p : Pipeline} {env : Env} {a b : Account} {ev : PipelineEvent} {r : PipelineResult}
  {c t now : Timestamp} {had : Bool} {k : ℕ} {evs : List DomainEvent}

/-! ## Crossings -/

/-- What the rules decide at an explicit rollover, and whether it promotes the account. -/
structure Crossing where
  decision : Decision
  promotable : Bool

/-- Explicit rollovers one after the other. The first says whether the stored day had trades, the days
after it had none. -/
inductive Crossings (p : Pipeline) : Account → Bool → List Env → List Crossing → Account → Prop
  | nil {x first} : Crossings p x first [] [] x
  | cons {env a had r envs xs b} (s : Evaluated env a (.dayRollover had)) :
      p.process env a (.dayRollover had) = .ok r → Crossings p r.account false envs xs b →
        Crossings p a had (env :: envs) (⟨s.decision p, (s.marked p).promotable⟩ :: xs) b

/-- The rollover does nothing but to open the next day. -/
structure Crossing.Quiet (x : Crossing) : Prop where
  target_eq : x.decision.accountStatusTarget = none
  kind_ne : x.decision.kind ≠ .targetHit
  not_promotable : x.promotable = false

theorem rolloverDay_none_utc (hutc : a.plan.Utc) (hc : a.currentTradingDayStart = some c)
    (hreset : a.plan.IsReset c) :
    a.rolloverDay had none now = .ok (a.rollover had (c + Duration.days 1)) := by
  refine rolloverDay_ok.mpr ⟨c + Duration.days 1, ?_, rfl⟩
  simp only [Account.rolloverTarget, Account.dayStartOr, hc]
  exact hutc.nextTradingDayStart hreset

theorem Effect.dayRollover_eq (h : Effect env a (.dayRollover had) b evs) :
    a.rolloverDay had none env.rolloverNow = .ok b := by
  cases h with
  | dayRollover h => exact h

theorem rollover_todayTrades (trades : List Trade) :
    ({ a with todayTrades := trades } : Account).rollover had t = a.rollover had t := by
  cases had <;> rfl

namespace Passage

theorem crossed_routed (s : Passage p env a (.dayRollover had) r) : s.routed = a := by
  have hroute : Except.ok (a, []) = Except.ok (s.routed, s.rolloverEvents) := s.route_eq
  exact (Prod.mk.inj (Except.ok.inj hroute)).1.symm

theorem crossed_applied (s : Passage p env a (.dayRollover had) r) (hutc : a.plan.Utc)
    (hc : a.currentTradingDayStart = some c) (hreset : a.plan.IsReset c) :
    s.applied.account = a.rollover had (c + Duration.days 1) := by
  obtain ⟨trades, heffect⟩ := applyEvent_effect s.apply_eq
  have hday := heffect.dayRollover_eq
  rw [s.crossed_routed, rolloverDay_none_utc (a := { a with todayTrades := trades }) hutc hc hreset] at hday
  rw [← Except.ok.inj hday, rollover_todayTrades]

theorem crossed_filled (s : Passage p env a (.dayRollover had) r) : s.filled = s.applied.account :=
  s.filled_eq (by simp)

/-- A quiet rollover is one pass of the catch-up. -/
theorem crossed_quiet (s : Passage p env a (.dayRollover had) r) (hutc : a.plan.Utc)
    (hc : a.currentTradingDayStart = some c) (hreset : a.plan.IsReset c)
    (h : Crossing.Quiet ⟨s.decision p, (s.marked p).promotable⟩) :
    r.account = a.rollover had (c + Duration.days 1) := by
  have hmarked : s.marked p = s.applied.account := by
    rw [Evaluated.marked, applyTargetHit_fst, if_neg h.kind_ne, s.crossed_filled]
  have htarget : (s.decision p).accountStatusTarget = none := h.target_eq
  rw [s.account_eq, Evaluated.terminated, applyTermination, htarget,
    s.promoted_eq_marked h.not_promotable, hmarked, s.crossed_applied hutc hc hreset]
  rfl

end Passage

theorem Crossings.quiet {envs : List Env} {xs : List Crossing} (h : Crossings p a had envs xs b)
    (hutc : a.plan.Utc) (hc : a.currentTradingDayStart = some c) (hreset : a.plan.IsReset c)
    (hquiet : ∀ x ∈ xs, x.Quiet) :
    b = a.rolled (tradedFirst had (stops (Duration.days 1) envs.length c)) := by
  induction h generalizing c with
  | nil => rfl
  | cons s hp _ ih =>
      obtain ⟨pass⟩ := Pipeline.process_passage hp
      obtain rfl := s.subsingleton pass.toEvaluated
      have hone := pass.crossed_quiet hutc hc hreset (hquiet _ List.mem_cons_self)
      rw [hone, rollover_plan] at ih
      have hrest := ih hutc rollover_currentTradingDayStart hreset.next
        fun x hx => hquiet x (List.mem_cons_of_mem _ hx)
      rw [tradedFirst_false] at hrest
      exact hrest

/-! ## Traces of a decision -/

/-- The account apart from what the calls write besides the books. -/
def Account.outsideCalls (a : Account) : Account :=
  { a with
    status := .pending
    statusBeforeBreach := none
    targetReachedAt := none
    targetReachedOnDay := none
    openPositions := []
    todayTrades := []
    lastTickTs := none }

theorem rollover_outsideCalls (h : b.outsideCalls = a.outsideCalls) :
    (b.rollover had t).outsideCalls = (a.rollover had t).outsideCalls := by
  have hinside (x : Account) :
      (x.rollover had t).outsideCalls = (x.outsideCalls.rollover had t).outsideCalls := by
    cases had <;> rfl
  rw [hinside b, h, ← hinside a]

theorem rolled_outsideCalls {days : List (Bool × Timestamp)} (h : b.outsideCalls = a.outsideCalls) :
    (b.rolled days).outsideCalls = (a.rolled days).outsideCalls := by
  induction days generalizing a b with
  | nil => exact h
  | cons day days ih => exact ih (rollover_outsideCalls h)

theorem Passage.crossed_outsideCalls (s : Passage p env a (.dayRollover had) r) (hutc : a.plan.Utc)
    (hc : a.currentTradingDayStart = some c) (hreset : a.plan.IsReset c)
    (hp : (s.marked p).promotable = false) :
    r.account.outsideCalls = (a.rollover had (c + Duration.days 1)).outsideCalls := by
  rw [s.unpromoted_reading hp Account.outsideCalls (fun _ _ _ _ _ _ => rfl) fun _ _ _ _ => rfl,
    s.crossed_applied hutc hc hreset]

/-- Without a promotion, the rollovers open the days of the catch-up. -/
theorem Crossings.outsideCalls {envs : List Env} {xs : List Crossing} (h : Crossings p a had envs xs b)
    (hutc : a.plan.Utc) (hc : a.currentTradingDayStart = some c) (hreset : a.plan.IsReset c)
    (hno : ∀ x ∈ xs, x.promotable = false) :
    b.outsideCalls =
      (a.rolled (tradedFirst had (stops (Duration.days 1) envs.length c))).outsideCalls := by
  induction h generalizing c with
  | nil => rfl
  | @cons env a had r envs xs b s hp _ ih =>
      obtain ⟨pass⟩ := Pipeline.process_passage hp
      obtain rfl := s.subsingleton pass.toEvaluated
      have hone := pass.crossed_outsideCalls hutc hc hreset (hno _ List.mem_cons_self)
      have hplan : r.account.plan = a.plan :=
        (congrArg Account.plan hone).trans (rollover_plan (t := c + Duration.days 1))
      have hday : r.account.currentTradingDayStart = some (c + Duration.days 1) :=
        (congrArg Account.currentTradingDayStart hone :)
      have hrest := ih (hplan ▸ hutc) hday (hplan ▸ hreset.next)
        fun x hx => hno x (List.mem_cons_of_mem _ hx)
      rw [tradedFirst_false, rolled_outsideCalls hone] at hrest
      exact hrest

/-! ## The index of the day -/

theorem Passage.crossed_index (s : Passage p env a (.dayRollover had) r) :
    r.account.tradingDayIndex = if (s.marked p).promotable then 0 else a.tradingDayIndex + 1 := by
  obtain ⟨trades, heffect⟩ := applyEvent_effect s.apply_eq
  rw [s.crossed_routed] at heffect
  obtain ⟨dayStart, -, happlied⟩ := rolloverDay_ok.mp heffect.dayRollover_eq
  rw [s.account_reading Account.tradingDayIndex fun _ _ _ _ => rfl]
  rcases applyPromotion_ok s.promotion_eq with ⟨hp, heq, -⟩ | ⟨hp, -, heq, -⟩
  · rw [heq, hp, s.marked_reading p Account.tradingDayIndex fun _ _ _ _ _ _ => rfl, ← happlied]
    cases had <;> rfl
  · rw [heq, hp]
    rfl

theorem Crossings.index_le {envs : List Env} {xs : List Crossing} (h : Crossings p a had envs xs b) :
    b.tradingDayIndex ≤ a.tradingDayIndex + xs.length := by
  induction h with
  | nil => exact le_rfl
  | cons s hp _ ih =>
      obtain ⟨pass⟩ := Pipeline.process_passage hp
      rw [pass.crossed_index] at ih
      rw [List.length_cons]
      split at ih <;> omega

/-- A promotion starts the days over, so the index falls behind for good. -/
theorem Crossings.index_eq_iff {envs : List Env} {xs : List Crossing} (h : Crossings p a had envs xs b) :
    b.tradingDayIndex = a.tradingDayIndex + xs.length ↔ ∀ x ∈ xs, x.promotable = false := by
  induction h with
  | nil => simp
  | cons s hp hrest ih =>
      obtain ⟨pass⟩ := Pipeline.process_passage hp
      obtain rfl := s.subsingleton pass.toEvaluated
      have hle := hrest.index_le
      have hindex := pass.crossed_index
      rw [List.forall_mem_cons, ← ih, List.length_cons]
      cases hpr : (pass.marked p).promotable with
      | true =>
          rw [hpr] at hindex
          simp only [if_true] at hindex
          simp only [Bool.true_eq_false, false_and, iff_false]
          omega
      | false =>
          rw [hpr] at hindex
          simp only [Bool.false_eq_true, if_false] at hindex
          simp only [true_and]
          omega

/-! ## The status -/

/-- The status that the decisions of a series of rollovers lead to. -/
def crossedStatus (a : Account) (xs : List Crossing) : AccountStatus :=
  ((xs.filterMap fun x => x.decision.accountStatusTarget).getLast?).getD
    (if a.status = .active ∧ a.targetReachedAt = none ∧ ∃ x ∈ xs, x.decision.kind = .targetHit then
      .targetHitPending
    else a.status)

/-- The last end that the rules decide on is the status the account already had; if they decide on none,
no target is marked on an active account that waits for one. -/
def KeepsStatus (a : Account) (xs : List Crossing) : Prop :=
  match (xs.filterMap fun x => x.decision.accountStatusTarget).getLast? with
  | some status => status = a.status
  | none => a.status = .active → a.targetReachedAt = none → ∀ x ∈ xs, x.decision.kind ≠ .targetHit

theorem crossedStatus_eq_iff {xs : List Crossing} : crossedStatus a xs = a.status ↔ KeepsStatus a xs := by
  unfold crossedStatus KeepsStatus
  cases (xs.filterMap fun x => x.decision.accountStatusTarget).getLast? with
  | some status => exact Iff.rfl
  | none =>
      rw [Option.getD_none]
      by_cases hmarks : a.status = .active ∧ a.targetReachedAt = none ∧
          ∃ x ∈ xs, x.decision.kind = .targetHit
      · obtain ⟨hactive, htarget, x, hx, hkind⟩ := hmarks
        rw [if_pos ⟨hactive, htarget, x, hx, hkind⟩, hactive]
        exact iff_of_false nofun fun h => h rfl htarget x hx hkind
      · rw [if_neg hmarks]
        exact iff_of_true rfl fun hactive htarget x hx hkind => hmarks ⟨hactive, htarget, x, hx, hkind⟩

theorem accountStatusTarget_ne_active {d : Decision} {status : AccountStatus}
    (h : d.accountStatusTarget = some status) : status ≠ .active := by
  unfold Decision.accountStatusTarget at h
  split at h <;> cases h <;> exact nofun

theorem markTargetReached_targetReachedAt_ne : (a.markTargetReached t).targetReachedAt ≠ none := by
  unfold Account.markTargetReached
  cases htarget : a.targetReachedAt with
  | none => exact nofun
  | some at_ => simp [htarget]

theorem Passage.crossed_outsideDays (s : Passage p env a (.dayRollover had) r) :
    s.filled.outsideDays = a.outsideDays := by
  obtain ⟨trades, heffect⟩ := applyEvent_effect s.apply_eq
  rw [s.crossed_routed] at heffect
  have hday := rolloverDay_outsideDays heffect.dayRollover_eq
  rw [s.crossed_filled]
  exact hday

/-- A crossing that promotes nothing leaves the rest of the way to the decisions after it. -/
theorem Passage.crossedStatus_cons {xs : List Crossing} (s : Passage p env a (.dayRollover had) r)
    (hp : (s.marked p).promotable = false) :
    crossedStatus r.account xs = crossedStatus a (⟨s.decision p, (s.marked p).promotable⟩ :: xs) := by
  have hstatus : s.filled.status = a.status :=
    eq_of_outsideDays s.crossed_outsideDays Account.status fun _ => rfl
  have htarget : s.filled.targetReachedAt = a.targetReachedAt :=
    eq_of_outsideDays s.crossed_outsideDays Account.targetReachedAt fun _ => rfl
  have hfinal := s.account_status
  have hreached := s.account_targetReachedAt
  rw [s.promoted_eq_marked hp] at hfinal hreached
  unfold crossedStatus
  cases hend : (s.decision p).accountStatusTarget with
  | some status =>
      rw [hend, Option.getD_some] at hfinal
      have hactive : ¬(status = .active ∧ r.account.targetReachedAt = none ∧
          ∃ x ∈ xs, x.decision.kind = .targetHit) := fun h => accountStatusTarget_ne_active hend h.1
      simp only [List.filterMap_cons, hend, List.getLast?_cons, Option.getD_some, hfinal, if_neg hactive]
  | none =>
      rw [hend, Option.getD_none] at hfinal
      simp only [List.filterMap_cons, hend, hfinal, hreached]
      by_cases hkind : (s.decision p).kind = .targetHit
      · -- the mark shows only on an active account without one, and leaves none behind
        have hmarked : s.marked p = s.filled.markTargetReached env.contextNow := by
          rw [Evaluated.marked, applyTargetHit_fst, if_pos hkind]
        have hne : ¬((s.marked p).status = .active ∧ (s.marked p).targetReachedAt = none ∧
            ∃ x ∈ xs, x.decision.kind = .targetHit) :=
          fun h => markTargetReached_targetReachedAt_ne (hmarked ▸ h.2.1)
        rw [if_neg hne, hmarked, markTargetReached_status_eq, hstatus, htarget]
        simp [hkind]
      · have hmarked : s.marked p = s.filled := by
          rw [Evaluated.marked, applyTargetHit_fst, if_neg hkind]
        rw [hmarked, hstatus, htarget]
        simp [hkind]

theorem Crossings.status {envs : List Env} {xs : List Crossing} (h : Crossings p a had envs xs b)
    (hno : ∀ x ∈ xs, x.promotable = false) : b.status = crossedStatus a xs := by
  induction h with
  | nil => simp [crossedStatus]
  | cons s hp _ ih =>
      obtain ⟨pass⟩ := Pipeline.process_passage hp
      obtain rfl := s.subsingleton pass.toEvaluated
      rw [ih fun x hx => hno x (List.mem_cons_of_mem _ hx)]
      exact pass.crossedStatus_cons (hno _ List.mem_cons_self)

/-! ## The books of a day -/

structure DayStats where
  activeTradingDays : ℕ
  profitableDaysCount : ℕ
  qualifyingTradingDaysCount : ℕ
  largestDayProfit : Money
  largestDayLoss : Money
  sumPositiveDaysProfit : Money
deriving DecidableEq

/-- The counters and the anchors of a day. -/
structure DayBook extends DayStats where
  tradingDayIndex : ℕ
  dayCountedToday : Bool
  todayRealizedPnl : Money
  currentTradingDayStart : Option Timestamp
  dayStartBalance : Money
  dayStartEquity : Money
  intradayPeakEquity : Money
deriving DecidableEq

def Account.dayStats (a : Account) : DayStats where
  activeTradingDays := a.activeTradingDays
  profitableDaysCount := a.profitableDaysCount
  qualifyingTradingDaysCount := a.qualifyingTradingDaysCount
  largestDayProfit := a.largestDayProfit
  largestDayLoss := a.largestDayLoss
  sumPositiveDaysProfit := a.sumPositiveDaysProfit

def Account.dayBook (a : Account) : DayBook where
  toDayStats := a.dayStats
  tradingDayIndex := a.tradingDayIndex
  dayCountedToday := a.dayCountedToday
  todayRealizedPnl := a.todayRealizedPnl
  currentTradingDayStart := a.currentTradingDayStart
  dayStartBalance := a.dayStartBalance
  dayStartEquity := a.dayStartEquity
  intradayPeakEquity := a.intradayPeakEquity

def SameDay (a b : Account) : Prop := a.status = b.status ∧ a.dayBook = b.dayBook

/-- Closing a day as traded writes its statistics and nothing else. -/
theorem closeTradedDay_eq (h : a.closeTradedDay.dayStats = a.dayStats) : a.closeTradedDay = a := by
  have hwrites : a.closeTradedDay =
      { a with
        activeTradingDays := a.closeTradedDay.dayStats.activeTradingDays
        profitableDaysCount := a.closeTradedDay.dayStats.profitableDaysCount
        qualifyingTradingDaysCount := a.closeTradedDay.dayStats.qualifyingTradingDaysCount
        largestDayProfit := a.closeTradedDay.dayStats.largestDayProfit
        largestDayLoss := a.closeTradedDay.dayStats.largestDayLoss
        sumPositiveDaysProfit := a.closeTradedDay.dayStats.sumPositiveDaysProfit } := rfl
  rw [hwrites, h]
  rfl

theorem rolled_dayStats (starts : List Timestamp) :
    (a.rolled (starts.map fun d => (false, d))).dayStats = a.dayStats := by
  induction starts generalizing a with
  | nil => rfl
  | cons d ds ih => exact @ih (a.rollover false d)

theorem rolled_tradedFirst {had' : Bool} (starts : List Timestamp) (h : had = had' ∨ a.closeTradedDay = a) :
    a.rolled (tradedFirst had starts) = a.rolled (tradedFirst had' starts) := by
  rcases h with rfl | hclosed
  · rfl
  · cases starts with
    | nil => rfl
    | cons d ds =>
        have hflag (flag : Bool) : a.rollover flag d = a.openNextDay d := by
          cases flag
          · rfl
          · exact congrArg (fun x : Account => x.openNextDay d) hclosed
        have hrolled (flag : Bool) : a.rolled (tradedFirst flag (d :: ds)) =
            (a.rollover flag d).rolled (ds.map fun d => (false, d)) := rfl
        rw [hrolled, hrolled, hflag, hflag]

/-- Whether the first day counts as traded matters exactly if there is something to book. -/
theorem rolled_dayBook_iff {had' : Bool} {starts : List Timestamp} (hne : starts ≠ []) :
    (a.rolled (tradedFirst had starts)).dayBook = (a.rolled (tradedFirst had' starts)).dayBook ↔
      had = had' ∨ a.closeTradedDay = a := by
  refine ⟨fun hbook => ?_, fun h => congrArg Account.dayBook (rolled_tradedFirst starts h)⟩
  obtain ⟨d, ds, rfl⟩ := List.exists_cons_of_ne_nil hne
  have hstats : (a.rollover had d).dayStats = (a.rollover had' d).dayStats := by
    rw [← rolled_dayStats ds, ← @rolled_dayStats (a.rollover had' d) ds]
    exact congrArg DayBook.toDayStats hbook
  cases had <;> cases had'
  · exact .inl rfl
  · exact .inr (closeTradedDay_eq hstats.symm)
  · exact .inr (closeTradedDay_eq hstats)
  · exact .inl rfl

/-! ## Both ways -/

/-- Where the catch-up leads to an account that needs none, the call goes on as on that account. -/
theorem Pipeline.process_of_route {evs' : List DomainEvent} (h : route env a ev = .ok (b, evs))
    (hb : route env b ev = .ok (b, evs')) :
    (p.process env b ev).map PipelineResult.account = (p.process env a ev).map PipelineResult.account := by
  simp only [Pipeline.process, h, hb, bind, Except.bind]
  cases applyEvent env b ev with
  | error f => rfl
  | ok applied =>
      dsimp only
      cases applyDecision (consumeFill applied.account applied.tradeFill)
          (Evaluator.evaluate p.registry (buildContext env applied ev) env.reportNow).decision
          (buildContext env applied ev).serverTime ev.actorId with
      | error f => rfl
      | ok decided =>
          dsimp only
          cases p.notifyAll
              (Evaluator.evaluate p.registry (buildContext env applied ev) env.reportNow).violations with
          | error f => rfl
          | ok _ => rfl

theorem route_utc (hutc : a.plan.Utc) (hc : a.currentTradingDayStart = some c) (hreset : a.plan.IsReset c)
    (hahead : a.plan.dayStart (ev.eventTimestamp env.routingNow) = c + k * Duration.days 1)
    (hev : ev.isDayRollover = false) :
    ∃ evs, route env a ev = .ok (a.caughtUp (stops (Duration.days 1) k c), evs) := by
  rw [route_eq_map, if_neg (by rw [hev]; exact Bool.false_ne_true), hc, hutc.daysAhead hreset hahead]
  exact ⟨_, rfl⟩

theorem Crossings.length_eq {envs : List Env} {xs : List Crossing} (h : Crossings p a had envs xs b) :
    xs.length = envs.length := by
  induction h with
  | nil => rfl
  | cons s hp _ ih => rw [List.length_cons, List.length_cons, ih]

theorem Crossings.process_eq {envs : List Env} {xs : List Crossing} (h : Crossings p a had envs xs b)
    (hutc : a.plan.Utc) (hc : a.currentTradingDayStart = some c) (hreset : a.plan.IsReset c)
    (hahead : a.plan.dayStart (ev.eventTimestamp env.routingNow) = c + envs.length * Duration.days 1)
    (hev : ev.isDayRollover = false)
    (hflag : had = decide (a.todayRealizedPnl ≠ 0) ∨ a.closeTradedDay = a) (hquiet : ∀ x ∈ xs, x.Quiet) :
    (p.process env b ev).map PipelineResult.account = (p.process env a ev).map PipelineResult.account := by
  have hb := h.quiet hutc hc hreset hquiet
  have hplan : b.plan = a.plan := by
    rw [hb]
    exact eq_of_outsideDays rolled_outsideDays Account.plan fun _ => rfl
  have hday : b.currentTradingDayStart = some (c + envs.length * Duration.days 1) := by
    rw [hb]
    exact rolled_stops_day hc
  have hcaught : a.caughtUp (stops (Duration.days 1) envs.length c) = b := by
    rw [hb]
    exact (rolled_tradedFirst _ hflag).symm
  obtain ⟨evs, hroute⟩ := route_utc hutc hc hreset hahead hev
  rw [hcaught] at hroute
  -- the last day is that of the event
  have hreset' : b.plan.IsReset (c + envs.length * Duration.days 1) := by
    rw [hplan, ← hahead]
    exact ChallengePlan.dayStart_isReset
  have hahead' : b.plan.dayStart (ev.eventTimestamp env.routingNow) =
      c + envs.length * Duration.days 1 + (0 : ℕ) * Duration.days 1 := by
    rw [hplan, hahead]
    simp
  obtain ⟨evs', hroute'⟩ := route_utc (hplan ▸ hutc) hday hreset' hahead' hev
  exact Pipeline.process_of_route hroute hroute'

/-- The rollovers lead to the day that the catch-up leads to exactly if there is nothing to book on the
first day or both book it, no phase is passed on the way and the rules leave the status. -/
theorem Crossings.sameDay_iff {envs : List Env} {xs : List Crossing} (h : Crossings p a had envs xs b)
    (hutc : a.plan.Utc) (hc : a.currentTradingDayStart = some c) (hreset : a.plan.IsReset c)
    (hne : envs ≠ []) :
    SameDay b (a.caughtUp (stops (Duration.days 1) envs.length c)) ↔
      (had = decide (a.todayRealizedPnl ≠ 0) ∨ a.closeTradedDay = a) ∧
        (∀ x ∈ xs, x.promotable = false) ∧ KeepsStatus a xs := by
  have hstops : stops (Duration.days 1) envs.length c ≠ [] := by
    rw [Ne, ← List.length_eq_zero_iff, stops_length, List.length_eq_zero_iff]
    exact hne
  have hstatus : (a.caughtUp (stops (Duration.days 1) envs.length c)).status = a.status :=
    eq_of_outsideDays rolled_outsideDays Account.status fun _ => rfl
  have hindex : (a.caughtUp (stops (Duration.days 1) envs.length c)).tradingDayIndex =
      a.tradingDayIndex + xs.length := by
    rw [Account.caughtUp, rolled_tradingDayIndex, tradedFirst_length, stops_length, h.length_eq]
  have hbook (hno : ∀ x ∈ xs, x.promotable = false) :
      b.dayBook = (a.rolled (tradedFirst had (stops (Duration.days 1) envs.length c))).dayBook :=
    (congrArg Account.dayBook (h.outsideCalls hutc hc hreset hno) :)
  constructor
  · rintro ⟨hs, hd⟩
    have hno : ∀ x ∈ xs, x.promotable = false :=
      h.index_eq_iff.mp ((congrArg DayBook.tradingDayIndex hd).trans hindex)
    refine ⟨(rolled_dayBook_iff hstops).mp ((hbook hno).symm.trans hd), hno, crossedStatus_eq_iff.mp ?_⟩
    rw [← h.status hno, hs, hstatus]
  · rintro ⟨hflag, hno, hkeeps⟩
    refine ⟨?_, (hbook hno).trans ((rolled_dayBook_iff hstops).mpr hflag)⟩
    rw [hstatus, h.status hno]
    exact crossedStatus_eq_iff.mpr hkeeps

/-- An event days ahead of the stored day of a UTC plan, caught up with or after explicit rollovers. If
these do nothing but to open the next day, and the first of them books what the catch-up books, the
event ends alike. The account that the event finds has the status, the counters and the anchors that the
catch-up gives it exactly if they agree on the first day, promote nothing and leave the status. -/
theorem rollovers_agree {envs : List Env} {xs : List Crossing} (hutc : a.plan.Utc)
    (hc : a.currentTradingDayStart = some c) (hstored : a.plan.tradingDayStart c = .ok c)
    (hev : ev.isDayRollover = false) (hne : envs ≠ [])
    (hahead : a.plan.tradingDayStart (ev.eventTimestamp env.routingNow) =
      .ok (c + envs.length * Duration.days 1))
    (h : Crossings p a had envs xs b) :
    ((had = decide (a.todayRealizedPnl ≠ 0) ∨ a.closeTradedDay = a) → (∀ x ∈ xs, x.Quiet) →
      (p.process env b ev).map PipelineResult.account =
        (p.process env a ev).map PipelineResult.account) ∧
    ∀ s : Evaluated env a ev,
      SameDay b s.routed ↔
        (had = decide (a.todayRealizedPnl ≠ 0) ∨ a.closeTradedDay = a) ∧
          (∀ x ∈ xs, x.promotable = false) ∧ KeepsStatus a xs := by
  rw [hutc.tradingDayStart, Except.ok.injEq] at hstored hahead
  have hreset : a.plan.IsReset c := hstored ▸ ChallengePlan.dayStart_isReset
  refine ⟨h.process_eq hutc hc hreset hahead hev, fun s => ?_⟩
  obtain ⟨evs, hroute⟩ := route_utc hutc hc hreset hahead hev
  rw [s.route_eq] at hroute
  rw [(Prod.mk.inj (Except.ok.inj hroute)).1]
  exact h.sameDay_iff hutc hc hreset hne

theorem Passage.crossing_quiet (s : Passage p env a (.dayRollover had) r)
    (hkind : r.result.decision.kind = .warn) (htarget : a.targetReachedAt = none) :
    Crossing.Quiet ⟨s.decision p, (s.marked p).promotable⟩ := by
  have hp := s.not_promotable_of_no_target (by rw [hkind]; decide) htarget
  rw [s.result_eq] at hkind
  have hkind' : (s.decision p).kind = .warn := hkind
  exact ⟨by rw [Decision.accountStatusTarget, hkind'], by rw [hkind']; decide, hp⟩

/-- The default plan, with accounts terminated after three days without a trade. -/
def inactivityPlan : ChallengePlan := { ChallengePlan.default ⟨1⟩ 0 with inactivityDays := some 3 }

theorem rollovers_agree_two_days :
    ∃ (a b : Account) (xs : List Crossing),
      (Account.new ⟨1⟩ ⟨1⟩ inactivityPlan).start 0 = .ok a ∧
        Crossings (Pipeline.ofPlan inactivityPlan) a false
          [.at (Duration.days 1), .at (Duration.days 2)] xs b ∧
        ((Pipeline.ofPlan inactivityPlan).process (.at (Duration.days 2)) b
            (.tick (tickAt (2 * 86400)) 10000 10000)).map PipelineResult.account =
          ((Pipeline.ofPlan inactivityPlan).process (.at (Duration.days 2)) a
            (.tick (tickAt (2 * 86400)) 10000 10000)).map PipelineResult.account := by
  have hrun :
      (do
        let a ← (Account.new ⟨1⟩ ⟨1⟩ inactivityPlan).start 0
        let r ← (Pipeline.ofPlan inactivityPlan).process (.at (Duration.days 1)) a (.dayRollover false)
        let r' ← (Pipeline.ofPlan inactivityPlan).process (.at (Duration.days 2)) r.account
          (.dayRollover false)
        pure (a.currentTradingDayStart, r.result.decision.kind, r.account.targetReachedAt,
          r'.result.decision.kind)) =
        .ok (some 0, .warn, none, .warn) := by
    decide +kernel
  obtain ⟨a, ha, hrun⟩ := bind_eq_ok.mp hrun
  obtain ⟨r, h, hrun⟩ := bind_eq_ok.mp hrun
  obtain ⟨r', h', hrun⟩ := bind_eq_ok.mp hrun
  have hfacts := pure_eq_ok.mp hrun
  simp only [Prod.mk.injEq] at hfacts
  obtain ⟨hc, hkind, htarget, hkind'⟩ := hfacts
  obtain ⟨pass⟩ := Pipeline.process_passage h
  obtain ⟨pass'⟩ := Pipeline.process_passage h'
  obtain ⟨-, _, -, hstarted⟩ := Account.start_eq ha
  have hplan : a.plan = inactivityPlan := by rw [hstarted]; rfl
  have hfresh : a.targetReachedAt = none := by rw [hstarted]; rfl
  have hpnl : a.todayRealizedPnl = 0 := by rw [hstarted]; rfl
  have hcrossings := Crossings.cons pass.toEvaluated h (.cons pass'.toEvaluated h' .nil)
  have hahead : a.plan.tradingDayStart
      ((PipelineEvent.tick (tickAt (2 * 86400)) 10000 10000).eventTimestamp
        (Env.at (Duration.days 2)).routingNow) =
      .ok (0 + ([Env.at (Duration.days 1), .at (Duration.days 2)].length : ℕ) * Duration.days 1) := by
    rw [hplan]
    decide +kernel
  obtain ⟨hsame, -⟩ := rollovers_agree (by rw [hplan]; exact ⟨rfl, by decide⟩) hc
    (by rw [hplan]; decide +kernel) (by rfl) (List.cons_ne_nil _ _) hahead hcrossings
  refine ⟨a, r'.account, _, ha, hcrossings, hsame (.inl (by rw [hpnl]; decide)) ?_⟩
  simp only [List.forall_mem_cons, List.not_mem_nil, false_imp_iff, implies_true, and_true]
  exact ⟨pass.crossing_quiet hkind hfresh, pass'.crossing_quiet hkind' htarget⟩

/-- Three days without a trade: the third explicit rollover fails the account. Caught up with by a tick,
the same account stays active. -/
theorem rollovers_disagree :
    (do
      let a ← (Account.new ⟨1⟩ ⟨1⟩ inactivityPlan).start 0
      let direct ← (Pipeline.ofPlan inactivityPlan).run a
        [(.at (Duration.days 3), .tick (tickAt (3 * 86400)) 10000 10000)]
      let explicit ← (Pipeline.ofPlan inactivityPlan).run a
        [(.at (Duration.days 1), .dayRollover false), (.at (Duration.days 2), .dayRollover false),
          (.at (Duration.days 3), .dayRollover false),
          (.at (Duration.days 3), .tick (tickAt (3 * 86400)) 10000 10000)]
      pure ((direct.status, direct.dayBook == explicit.dayBook), explicit.status)) =
      .ok ((.active, true), .failed) := by
  decide +kernel

end Propfirm
