import Propfirm.Engine.Theorems.CatchUp
import Propfirm.Engine.Theorems.Fills
import Propfirm.Engine.Theorems.Floors
import Propfirm.Rules.Theorems.MoneyLimits

/-!
# The two totals of the consistency rule

The best day is compared with the profit of all days or with that of the winning days. What an account
keeps of its days moves in four ways only, whatever the call.
-/

namespace Propfirm

open Fallible

variable {p : Pipeline} {env : Env} {a b : Account} {ev : PipelineEvent} {evs : List DomainEvent}
  {r : PipelineResult} {c : Processed} {calls : List Processed} {params : Option RuleParams} {cap : Decimal}

/-! ## Earnings -/

/-- The results of an account: all of them, those of the current day, of the best day, of the winning days. -/
structure Earnings where
  total : Money
  today : Money
  best : Money
  gains : Money
deriving DecidableEq

def Account.earnings (a : Account) : Earnings :=
  ⟨a.totalRealizedPnl, a.todayRealizedPnl, a.largestDayProfit, a.sumPositiveDaysProfit⟩

namespace Earnings

variable {x : Earnings} {net : Money}

def fill (x : Earnings) (net : Money) : Earnings :=
  { x with total := x.total + net, today := x.today + net }

/-- The day ends and is entered. -/
def close (x : Earnings) : Earnings :=
  { x with today := 0, best := max x.best x.today, gains := x.gains + max x.today 0 }

/-- The day ends as one without trades. -/
def skip (x : Earnings) : Earnings := { x with today := 0 }

/-- A promotion keeps the total only. -/
def newPhase (x : Earnings) : Earnings := { x with today := 0, best := 0, gains := 0 }

def after (x : Earnings) : PipelineEvent → Earnings
  | .tradeFilled trade => x.fill trade.netPnl
  | .dayRollover true => x.close
  | .dayRollover false => x.skip
  | _ => x

/-- The best day is one of the winning days, if there is any. -/
structure Sound (x : Earnings) : Prop where
  best_nonneg : 0 ≤ x.best
  best_le : x.best ≤ x.gains

theorem Sound.close (h : x.Sound) : x.close.Sound where
  best_nonneg := le_max_of_le_left h.best_nonneg
  best_le := by
    have hgains : 0 ≤ x.gains := h.best_nonneg.trans h.best_le
    refine max_le ?_ ?_
    · exact le_add_of_le_of_nonneg h.best_le (le_max_right x.today 0)
    · exact le_add_of_nonneg_of_le hgains (le_max_left x.today 0)

theorem Sound.newPhase : x.newPhase.Sound := ⟨le_rfl, le_rfl⟩

theorem Sound.after (h : x.Sound) (ev : PipelineEvent) : (x.after ev).Sound := by
  cases ev with
  | tradeFilled trade => exact ⟨h.best_nonneg, h.best_le⟩
  | dayRollover had =>
      cases had with
      | true => exact h.close
      | false => exact ⟨h.best_nonneg, h.best_le⟩
  | _ => exact h

/-- The days entered so far made no more than the winning ones among them. -/
def Entered (x : Earnings) : Prop := x.total - x.today ≤ x.gains

theorem Entered.fill (h : x.Entered) : (x.fill net).Entered := by
  unfold Entered Earnings.fill at *
  rwa [add_sub_add_right_eq_sub]

theorem Entered.close (h : x.Entered) : x.close.Entered := by
  unfold Entered Earnings.close at *
  have htoday := le_max_left x.today 0
  dsimp only
  linarith

theorem Entered.skip (h : x.Entered) (htoday : x.today = 0) : x.skip.Entered := by
  unfold Entered Earnings.skip at *
  rwa [htoday] at h

theorem Entered.after (h : x.Entered) (hskip : ev = .dayRollover false → x.today = 0) :
    (x.after ev).Entered := by
  cases ev with
  | tradeFilled trade => exact h.fill
  | dayRollover had =>
      cases had with
      | true => exact h.close
      | false => exact h.skip (hskip rfl)
  | _ => exact h

end Earnings

/-! ## Through a call -/

theorem rollover_earnings (had : Bool) (t : Timestamp) :
    (a.rollover had t).earnings = if had then a.earnings.close else a.earnings.skip := by
  cases had with
  | true =>
      have hfolded := @folded_closeTradedDay a
      change Earnings.mk _ _ a.closeTradedDay.largestDayProfit a.closeTradedDay.sumPositiveDaysProfit = _
      rw [hfolded.profit_eq, hfolded.sum_eq]
      rfl
  | false => rfl

/-- Days without trades leave no trace. -/
theorem rolled_earnings (starts : List Timestamp) (htoday : a.todayRealizedPnl = 0) :
    (a.rolled (starts.map fun d => (false, d))).earnings = a.earnings := by
  induction starts generalizing a with
  | nil => rfl
  | cons d ds ih =>
      have hskip : (a.rollover false d).earnings = a.earnings := by
        rw [rollover_earnings, Account.earnings, htoday]
        rfl
      exact (ih rfl).trans hskip

theorem caughtUp_earnings (starts : List Timestamp) :
    (a.caughtUp starts).earnings = a.earnings ∨ (a.caughtUp starts).earnings = a.earnings.close := by
  cases starts with
  | nil => exact .inl rfl
  | cons d ds =>
      have hfirst : (a.caughtUp (d :: ds)).earnings =
          (a.rollover (decide (a.todayRealizedPnl ≠ 0)) d).earnings :=
        rolled_earnings ds rfl
      rw [hfirst]
      by_cases hnet : a.todayRealizedPnl ≠ 0
      · rw [decide_eq_true hnet]
        exact .inr (rollover_earnings true d)
      · rw [decide_eq_false hnet, rollover_earnings, Account.earnings, not_not.mp hnet]
        exact .inl rfl

theorem Effect.earnings (h : Effect env a ev b evs) : b.earnings = a.earnings.after ev := by
  by_cases hquiet : ev.isQuiet = true
  · have hkept : a.earnings.after ev = a.earnings := by
      cases ev <;> first | rfl | cases hquiet
    exact (h.transition.quiet_reading hquiet Account.earnings fun _ => rfl).trans hkept.symm
  cases h with
  | tradeFilled h =>
      have hmark (x : Account) : x.markActiveTradingDay.earnings = x.earnings := by
        unfold Account.markActiveTradingDay
        split <;> rfl
      rw [hmark, Earnings.after, ← h]
      rfl
  | dayRollover h =>
      obtain ⟨dayStart, -, rfl⟩ := rolloverDay_ok.mp h
      rename_i had
      refine (rollover_earnings had dayStart).trans ?_
      cases had <;> rfl
  | tick | tickEstimated => rfl
  | payoutApprove hq h =>
      obtain ⟨-, rfl⟩ := recordPayout_eq h
      rfl
  | _ => exact absurd rfl hquiet

/-- Before any event but an explicit rollover, the day may be closed. -/
theorem Evaluated.routed_earnings (s : Evaluated env a ev) :
    s.routed.earnings = a.earnings ∨ ev.isDayRollover = false ∧ s.routed.earnings = a.earnings.close := by
  have hroute := s.route_eq
  rw [route_eq_map] at hroute
  split at hroute
  · rw [← (Prod.mk.inj (Except.ok.inj hroute)).1]
    exact .inl rfl
  · rename_i hev
    obtain ⟨starts, -, heq⟩ := map_eq_ok.mp hroute
    rw [← (Prod.mk.inj heq).1]
    exact (caughtUp_earnings starts).imp_right fun h => ⟨Bool.eq_false_iff.mpr hev, h⟩

theorem Evaluated.applied_earnings (s : Evaluated env a ev) :
    s.applied.account.earnings = s.routed.earnings.after ev := by
  obtain ⟨trades, heffect⟩ := applyEvent_effect s.apply_eq
  exact heffect.earnings

theorem Passage.account_earnings (s : Passage p env a ev r) :
    r.account.earnings = s.applied.account.earnings ∨
      r.account.plan.phase ≠ a.plan.phase ∧ r.account.earnings = s.applied.account.earnings.newPhase := by
  by_cases hphase : r.account.plan.phase = a.plan.phase
  · left
    exact s.unpromoted_reading (s.not_promotable_of_phase hphase) Account.earnings
      (fun _ _ _ _ _ _ => rfl) fun _ _ _ _ => rfl
  · refine .inr ⟨hphase, ?_⟩
    rcases s.account_phase with ⟨-, hplan⟩ | ⟨-, -, hpromoted, -⟩
    · exact absurd (congrArg ChallengePlan.phase hplan) hphase
    · rw [s.account_reading Account.earnings fun _ _ _ _ => rfl, hpromoted,
        ← s.marked_reading p Account.earnings fun _ _ _ _ _ _ => rfl]
      rfl

namespace Processed

theorem context_account (c : Processed) : c.context.account = c.seen := by
  obtain ⟨s⟩ := c.passage
  rw [c.context_eq s.toEvaluated, c.seen_eq s.toEvaluated, Evaluated.ctx, buildContext_account]

theorem seen_earnings (c : Processed) :
    c.seen.earnings = c.before.earnings.after c.ev ∨
      c.ev.isDayRollover = false ∧ c.seen.earnings = c.before.earnings.close.after c.ev := by
  obtain ⟨s⟩ := c.passage
  rw [c.seen_eq s.toEvaluated, s.applied_earnings]
  rcases s.routed_earnings with h | ⟨hev, h⟩
  · exact .inl (by rw [h])
  · exact .inr ⟨hev, by rw [h]⟩

theorem after_earnings (c : Processed) :
    c.after.earnings = c.seen.earnings ∨ ¬c.KeepsPhase ∧ c.after.earnings = c.seen.earnings.newPhase := by
  obtain ⟨s⟩ := c.passage
  rw [c.seen_eq s.toEvaluated]
  exact s.account_earnings

/-- A rollover that reports a day without trades follows one. -/
def CountsDay (c : Processed) : Prop := c.ev = .dayRollover false → c.before.todayRealizedPnl = 0

theorem seen_entered (c : Processed) (hday : c.CountsDay) (h : c.before.earnings.Entered) :
    c.seen.earnings.Entered := by
  rcases c.seen_earnings with heq | ⟨hev, heq⟩
  · exact heq ▸ h.after hday
  · refine heq ▸ h.close.after fun hskip => ?_
    rw [hskip] at hev
    cases hev

theorem after_entered (c : Processed) (hday : c.CountsDay) (hphase : c.KeepsPhase)
    (h : c.before.earnings.Entered) : c.after.earnings.Entered := by
  rcases c.after_earnings with heq | ⟨hnot, -⟩
  · exact heq ▸ c.seen_entered hday h
  · exact absurd hphase hnot

/-- The engine does not catch up before an explicit rollover. -/
theorem seen_of_rollover (c : Processed) (hev : c.ev.isDayRollover = true) :
    c.seen.earnings = c.before.earnings.after c.ev := by
  rcases c.seen_earnings with heq | ⟨hnot, -⟩
  · exact heq
  · rw [hev] at hnot
    cases hnot

/-- A rollover leaves nothing of the day. -/
theorem seen_today (c : Processed) (hev : c.ev.isDayRollover = true) : c.seen.earnings.today = 0 := by
  rw [c.seen_of_rollover hev]
  cases hcase : c.ev with
  | dayRollover had => cases had <;> rfl
  | _ => rw [hcase] at hev; cases hev

end Processed

/-! ## Over a run -/

theorem Account.Fresh.earnings (h : a.Fresh) : a.earnings = ⟨0, 0, 0, 0⟩ := by
  rcases h with ⟨id, tenantId, plan, rfl⟩ | ⟨id, tenantId, plan, at_, h⟩
  · rfl
  · obtain ⟨-, dayStart, -, rfl⟩ := Account.start_eq h
    rfl

theorem Run.earnings_entered (ha : a.Fresh) (h : Run a calls b)
    (hcalls : ∀ c ∈ calls, c.CountsDay ∧ c.KeepsPhase) : b.earnings.Entered := by
  refine h.invariant (fun x => x.earnings.Entered) (fun c hc => c.after_entered hc.1 hc.2) hcalls ?_
  rw [ha.earnings]
  exact (sub_self (0 : Money)).le

/-! ## The rule -/

/-- The context with the plan's total replaced. -/
def RuleContext.under (ctx : RuleContext) (consistencyType : ConsistencyType) : RuleContext :=
  { ctx with account := { ctx.account with plan := { ctx.account.plan with consistencyType } } }

namespace ConsistencyRule

variable {ctx : RuleContext} {total : Money} {label : String}

theorem warns_iff_of_cap (hdenominator : denominator ctx.account = some (total, label))
    (hcap : effectiveCap params ctx = .ok (some cap)) :
    (consistencyRule params).Warns ctx ↔
      0 < total ∧ 0 < ctx.account.largestDayProfit ∧ cap * total < ctx.account.largestDayProfit := by
  by_cases htotal : 0 < total
  · rw [warns_iff hdenominator htotal hcap, and_iff_right htotal]
  · refine iff_of_false ?_ fun h => htotal h.1
    rw [StdRule.Warns, StdRule.evaluate_decisionKind]
    change ¬(judgeWith .exact params ctx).map _ = _
    change effectiveCapWith .exact params ctx = _ at hcap
    simp [judgeWith, hdenominator, hcap, bind, Except.bind, not_lt.mp htotal, pure, Except.pure, Except.map,
      Verdict.decisionKind]

theorem effectiveCap_under (consistencyType : ConsistencyType) :
    effectiveCap params (ctx.under consistencyType) = effectiveCap params ctx := by
  cases params <;> rfl

theorem warns_total_iff (hcap : effectiveCap params ctx = .ok (some cap)) :
    (consistencyRule params).Warns (ctx.under .bestDayPctOfTotal) ↔
      0 < ctx.account.totalRealizedPnl ∧ 0 < ctx.account.largestDayProfit ∧
        cap * ctx.account.totalRealizedPnl < ctx.account.largestDayProfit :=
  warns_iff_of_cap rfl ((effectiveCap_under _).trans hcap)

theorem warns_positiveDays_iff (hcap : effectiveCap params ctx = .ok (some cap)) :
    (consistencyRule params).Warns (ctx.under .bestDayPctOfPositiveDays) ↔
      0 < ctx.account.sumPositiveDaysProfit ∧ 0 < ctx.account.largestDayProfit ∧
        cap * ctx.account.sumPositiveDaysProfit < ctx.account.largestDayProfit :=
  warns_iff_of_cap rfl ((effectiveCap_under _).trans hcap)

end ConsistencyRule

/-- While the phase lasts and every day is entered, counting all days is the stricter of the two. -/
theorem total_warns_of_positiveDays (ha : a.Fresh) (hrun : Run a (c :: calls) b)
    (hcalls : ∀ c' ∈ calls, c'.CountsDay ∧ c'.KeepsPhase) (hday : c.CountsDay)
    (hev : c.ev.isDayRollover = true)
    (hcap : ConsistencyRule.effectiveCap params c.context = .ok (some cap)) (hnonneg : 0 ≤ cap)
    (htotal : 0 < c.context.account.totalRealizedPnl)
    (h : (consistencyRule params).Warns (c.context.under .bestDayPctOfPositiveDays)) :
    (consistencyRule params).Warns (c.context.under .bestDayPctOfTotal) := by
  obtain ⟨-, hbest, hlt⟩ := (ConsistencyRule.warns_positiveDays_iff hcap).mp h
  refine (ConsistencyRule.warns_total_iff hcap).mpr ⟨htotal, hbest, ?_⟩
  have hle : c.context.account.totalRealizedPnl ≤ c.context.account.sumPositiveDaysProfit := by
    cases hrun with
    | cons _ hbefore =>
        have hentered := c.seen_entered hday (Run.earnings_entered ha hbefore hcalls)
        rw [Earnings.Entered, c.seen_today hev, sub_zero] at hentered
        rw [c.context_account]
        exact hentered
  exact (mul_le_mul_of_nonneg_left hle hnonneg).trans_lt hlt

end Propfirm
