import Propfirm.Engine.Lemmas.Days
import Propfirm.Engine.Theorems.Promotion

/-!
# The trading day over the life of an account
-/

namespace Propfirm

open Fallible Grid

variable {p : Pipeline} {env : Env} {a : Account} {ev : PipelineEvent} {r : PipelineResult}

/-- The call promotes nothing, and an explicit rollover is at most one day behind the clock. -/
structure Passage.KeepsDay (s : Passage p env a ev r) : Prop where
  not_promotable : (s.marked p).promotable = false
  rollover_near : ev.isDayRollover = true → ∀ c d, a.currentTradingDayStart = some c →
    a.plan.tradingDayStart (ev.time env) = .ok d → d ≤ c + Duration.days 1

/-- One call of a run that keeps its day, with the times of the events so far. -/
inductive DayStep : Account × List Timestamp → Account × List Timestamp → Prop
  | step {p env a ev r seen} (h : p.process env a ev = .ok r) (s : Passage p env a ev r) :
      s.KeepsDay → DayStep (a, seen) (r.account, ev.time env :: seen)

/-- The stored day is a reset, and no event so far lies on a later day. -/
structure DayStored (a : Account) (seen : List Timestamp) (c : Timestamp) : Prop where
  utc : a.plan.Utc
  started : a.Started
  day_eq : a.currentTradingDayStart = some c
  reset : a.plan.IsReset c
  seen_le : ∀ t ∈ seen, a.plan.dayStart t ≤ c

theorem Account.FreshlyStarted.dayStored (h : a.FreshlyStarted) (hutc : a.plan.Utc) :
    ∃ c, DayStored a [] c := by
  have hstarted := h.started
  obtain ⟨id, tenantId, plan, at_, h⟩ := h
  obtain ⟨-, c, hc, rfl⟩ := Account.start_eq h
  have hplan : plan.Utc := hutc
  have hreset : plan.IsReset c := by
    rw [show (Account.new id tenantId plan).plan = plan from rfl, hplan.tradingDayStart] at hc
    exact Except.ok.inj hc ▸ ChallengePlan.dayStart_isReset
  exact ⟨c, hutc, hstarted, rfl, hreset, by simp⟩

theorem Evaluated.routed_day {seen c} (s : Evaluated env a ev) (h : DayStored a seen c)
    (hev : ev.isDayRollover = false) :
    s.routed.currentTradingDayStart = some (max c (a.plan.dayStart (ev.time env))) ∧
      (c < a.plan.dayStart (ev.time env) →
        CaughtUp a s.routed (a.plan.dayStart (ev.time env)) ∧
          s.rolloverEvents =
            [⟨a.id, .dayRollover s.routed.tradingDayIndex s.routed.dayStartBalance, ev.time env⟩]) := by
  obtain ⟨b, evs, hb, hday, hcaught⟩ :=
    autoRollover_utc h.utc h.day_eq h.reset (ev.time env) env.rolloverNow
  have hroute := s.route_eq
  simp only [route, hev, Bool.false_eq_true, if_false] at hroute
  simp only [PipelineEvent.time, hev, Bool.false_eq_true, if_false] at hb hday hcaught ⊢
  rw [hb] at hroute
  obtain ⟨rfl, rfl⟩ := Prod.mk.inj (Except.ok.inj hroute)
  exact ⟨hday, hcaught⟩

theorem Passage.applied_day {seen c} (s : Passage p env a ev r) (h : DayStored a seen c)
    (hkeeps : s.KeepsDay) :
    ∃ c', s.applied.account.currentTradingDayStart = some c' ∧ a.plan.IsReset c' ∧ c ≤ c' ∧
      a.plan.dayStart (ev.time env) ≤ c' := by
  have hplan : s.routed.plan = a.plan :=
    s.routed_reading Account.plan fun _ => rfl
  have hutc : s.routed.plan.Utc := by rw [hplan]; exact h.utc
  have hstatus : s.routed.status ≠ .pending := by rw [s.routed_status]; exact h.started.status_ne
  obtain ⟨trades, htr⟩ := applyEvent_transition s.apply_eq
  cases hev : ev.isDayRollover with
  | false =>
      have hday := (s.routed_day h hev).1
      have hreset : a.plan.IsReset (max c (a.plan.dayStart (ev.time env))) := by
        rcases max_choice c (a.plan.dayStart (ev.time env)) with hm | hm <;> rw [hm]
        · exact h.reset
        · exact ChallengePlan.dayStart_isReset
      refine ⟨_, htr.currentTradingDayStart hutc hstatus hday (by rw [hplan]; exact hreset), ?_⟩
      simp only [PipelineEvent.dayAfter, hev, Bool.false_eq_true, if_false]
      exact ⟨hreset, le_max_left _ _, le_max_right _ _⟩
  | true =>
      have hrouted : s.routed = a := by
        have hroute := s.route_eq
        simp only [route, hev, if_true] at hroute
        exact (Prod.mk.inj (Except.ok.inj hroute)).1.symm
      have hday : s.routed.currentTradingDayStart = some c := by rw [hrouted, h.day_eq]
      refine ⟨_, htr.currentTradingDayStart hutc hstatus hday (by rw [hplan]; exact h.reset), ?_⟩
      simp only [PipelineEvent.dayAfter, hev, if_true]
      exact ⟨h.reset.next, le_add_of_nonneg_right days_one_pos.le,
        hkeeps.rollover_near hev c _ h.day_eq (h.utc.tradingDayStart _)⟩

/-- A call that promotes nothing leaves the plan and the stored day as the event left them. -/
theorem Passage.KeepsDay.account_eq {s : Passage p env a ev r} (h : s.KeepsDay) :
    r.account.plan = a.plan ∧
      r.account.currentTradingDayStart = s.applied.account.currentTradingDayStart := by
  refine ⟨s.account_plan_of_not_promotable h.not_promotable, ?_⟩
  rw [s.account_currentTradingDayStart, s.promoted_eq_marked h.not_promotable,
    s.marked_currentTradingDayStart]

theorem DayStep.dayStored {x y : Account × List Timestamp} (h : ∃ c, DayStored x.1 x.2 c)
    (hstep : DayStep x y) : ∃ c, DayStored y.1 y.2 c := by
  obtain ⟨c, h⟩ := h
  cases hstep with
  | step hp s hkeeps =>
      obtain ⟨c', hday, hreset, hle, hnew⟩ := s.applied_day h hkeeps
      obtain ⟨hplan, haccount⟩ := hkeeps.account_eq
      refine ⟨c', hplan ▸ h.utc, s.started h.started, haccount.trans hday, hplan ▸ hreset, ?_⟩
      rw [hplan]
      intro t ht
      rcases List.mem_cons.mp ht with rfl | ht
      · exact hnew
      · exact (h.seen_le t ht).trans hle

/-- In a run from a started account of a UTC plan, without promotions and with explicit rollovers at
most a day behind, the stored day is present and no earlier than that of any event so far, and an
event on a later day is caught up with before it is evaluated. -/
theorem day_rollover_keeps_working {a₀ : Account} {seen : List Timestamp} (h₀ : a₀.FreshlyStarted)
    (hutc : a₀.plan.Utc) (hrun : Relation.ReflTransGen DayStep (a₀, []) (a, seen)) :
    ∃ c, a.currentTradingDayStart = some c ∧
      (∀ t ∈ seen, ∃ d, a.plan.tradingDayStart t = .ok d ∧ d ≤ c) ∧
      ∀ (env : Env) (ev : PipelineEvent) (s : Evaluated env a ev), ev.isDayRollover = false →
        ∃ d, a.plan.tradingDayStart (ev.time env) = .ok d ∧
          s.routed.currentTradingDayStart = some (max c d) ∧
          (c < d →
            a.tradingDayIndex < s.routed.tradingDayIndex ∧ s.routed.todayRealizedPnl = 0 ∧
              s.rolloverEvents =
                [⟨a.id, .dayRollover s.routed.tradingDayIndex s.routed.dayStartBalance,
                  ev.time env⟩]) := by
  obtain ⟨c, h⟩ :=
    invariant_of_run (fun x : Account × List Timestamp => ∃ c, DayStored x.1 x.2 c)
      (fun _ _ h hs => hs.dayStored h) hrun (h₀.dayStored hutc)
  refine ⟨c, h.day_eq, fun t ht => ⟨_, h.utc.tradingDayStart t, h.seen_le t ht⟩, fun env ev s hev => ?_⟩
  obtain ⟨hday, hcaught⟩ := s.routed_day h hev
  refine ⟨_, h.utc.tradingDayStart _, hday, fun hlt => ?_⟩
  obtain ⟨hc, hevs⟩ := hcaught hlt
  exact ⟨hc.index_lt, hc.realized_eq, hevs⟩

/-- A call that leaves the phase as it was promoted nothing. -/
theorem Passage.KeepsDay.of_phase {s : Passage p env a ev r} (hphase : a.plan.phase = .phase1)
    (hphase' : r.account.plan.phase = .phase1) (hev : ev.isDayRollover = false) : s.KeepsDay := by
  refine ⟨?_, fun h => absurd (hev.symm.trans h) Bool.false_ne_true⟩
  rcases s.account_phase with ⟨hnot, -⟩ | ⟨-, -, -, hplan⟩
  · exact hnot
  · rw [hplan, hphase] at hphase'
    cases hphase'

/-- Ticks of two days, and one of the day after. -/
theorem day_rollover_keeps_working_ticks :
    ∃ (a₀ a : Account) (env : Env) (ev : PipelineEvent) (s : Evaluated env a ev), a₀.FreshlyStarted ∧
      a₀.plan.Utc ∧
      Relation.ReflTransGen DayStep (a₀, []) (a, [Duration.seconds 86401, Duration.seconds 1]) ∧
      a.tradingDayIndex = 1 ∧ ev.time env = Duration.seconds 172801 ∧
      (∃ c, a.currentTradingDayStart = some c ∧
        ∃ d, a.plan.tradingDayStart (Duration.seconds 86401) = .ok d ∧ d ≤ c) ∧
      1 < s.routed.tradingDayIndex := by
  have hrun :
      (do
        let a ← (Account.new ⟨1⟩ ⟨1⟩ promptPlan).start 0
        let r ← (Pipeline.ofPlan promptPlan).process (.at (Duration.seconds 1)) a
          (.tick (tickAt 1) 10000 10000)
        let r' ← (Pipeline.ofPlan promptPlan).process (.at (Duration.seconds 86401)) r.account
          (.tick (tickAt 86401) 10000 10000)
        let _ ← (Pipeline.ofPlan promptPlan).process (.at (Duration.seconds 172801)) r'.account
          (.tick (tickAt 172801) 10000 10000)
        let day ← r'.account.plan.tradingDayStart (Duration.seconds 172801)
        pure (r.account.plan.phase, r'.account.plan.phase, r'.account.tradingDayIndex,
          r'.account.currentTradingDayStart, day)) =
        .ok (.phase1, .phase1, 1, some (Duration.seconds 86400), Duration.seconds 172800) := by
    decide +kernel
  obtain ⟨a₀, hstart, hrun⟩ := bind_eq_ok.mp hrun
  obtain ⟨r, hr, hrun⟩ := bind_eq_ok.mp hrun
  obtain ⟨r', hr', hrun⟩ := bind_eq_ok.mp hrun
  obtain ⟨r'', hr'', hrun⟩ := bind_eq_ok.mp hrun
  obtain ⟨day, hnext, hrun⟩ := bind_eq_ok.mp hrun
  have hfacts := pure_eq_ok.mp hrun
  simp only [Prod.mk.injEq] at hfacts
  obtain ⟨hphase, hphase', hindex, hday, rfl⟩ := hfacts
  obtain ⟨pass⟩ := Pipeline.process_passage hr
  obtain ⟨pass'⟩ := Pipeline.process_passage hr'
  obtain ⟨pass''⟩ := Pipeline.process_passage hr''
  have hfresh : a₀.FreshlyStarted := ⟨_, _, _, _, hstart⟩
  have hplan : a₀.plan = promptPlan := by
    obtain ⟨-, dayStart, -, rfl⟩ := Account.start_eq hstart
    rfl
  have hutc : a₀.plan.Utc := by
    rw [hplan]
    exact ⟨rfl, by decide⟩
  have hfirst := @DayStep.step _ _ _ _ _ [] hr pass (.of_phase (by rw [hplan]; rfl) hphase rfl)
  have htwo := (Relation.ReflTransGen.single hfirst).tail (.step hr' pass' (.of_phase hphase hphase' rfl))
  obtain ⟨c, hc, hseen, hlater⟩ := day_rollover_keeps_working hfresh hutc htwo
  obtain rfl : Duration.seconds 86400 = c := Option.some.inj (hday.symm.trans hc)
  obtain ⟨d, hd, -, hrolled⟩ := hlater _ _ pass''.toEvaluated rfl
  obtain rfl : Duration.seconds 172800 = d := Except.ok.inj (hnext.symm.trans hd)
  have hlt := (hrolled (by decide +kernel)).1
  rw [hindex] at hlt
  exact ⟨a₀, r'.account, _, _, pass''.toEvaluated, hfresh, hutc, htwo, hindex, rfl,
    ⟨_, hc, hseen _ List.mem_cons_self⟩, hlt⟩

/-- After a promotion no day is stored, and the events of later days no longer roll it over. -/
theorem promotion_stops_rollover :
    (do
      let started ← (Account.new ⟨1⟩ ⟨1⟩ promptPlan).start 0
      let promoted ← (Pipeline.ofPlan promptPlan).run started [brokerTick 1 10800]
      let later ← (Pipeline.ofPlan promptPlan).run promoted [brokerTick (5 * 86400) 10700]
      pure (promoted.plan.phase, promoted.currentTradingDayStart, later.plan.phase,
        later.currentTradingDayStart, later.tradingDayIndex)) =
      .ok (.phase2, none, .phase2, none, 0) := by
  decide +kernel

end Propfirm
