import Propfirm.Engine.Theorems.Promotion

/-!
# What a promotion resets

A promotion opens a phase. The account it leaves is compared with one that has just been started with
the same balance and equity, and its time limit with one that starts to run at the promotion.
-/

namespace Propfirm

open Fallible

variable {a b : Account} {d : Decision} {t : Timestamp} {actorId : String} {evs : List DomainEvent}

/-! ## The slate -/

/-- What an account gathers in the course of a phase. -/
structure PhaseSlate where
  activeTradingDays : ℕ
  tradingDayIndex : ℕ
  dayCountedToday : Bool
  profitableDaysCount : ℕ
  qualifyingTradingDaysCount : ℕ
  todayRealizedPnl : Money
  largestDayProfit : Money
  largestDayLoss : Money
  sumPositiveDaysProfit : Money
  intradayPeakEquity : Money
  peakEquity : Money
  peakBalance : Money
  dayStartBalance : Money
  dayStartEquity : Money
  targetReachedAt : Option Timestamp
  targetReachedOnDay : Option ℕ
deriving DecidableEq

def Account.slate (a : Account) : PhaseSlate where
  activeTradingDays := a.activeTradingDays
  tradingDayIndex := a.tradingDayIndex
  dayCountedToday := a.dayCountedToday
  profitableDaysCount := a.profitableDaysCount
  qualifyingTradingDaysCount := a.qualifyingTradingDaysCount
  todayRealizedPnl := a.todayRealizedPnl
  largestDayProfit := a.largestDayProfit
  largestDayLoss := a.largestDayLoss
  sumPositiveDaysProfit := a.sumPositiveDaysProfit
  intradayPeakEquity := a.intradayPeakEquity
  peakEquity := a.peakEquity
  peakBalance := a.peakBalance
  dayStartBalance := a.dayStartBalance
  dayStartEquity := a.dayStartEquity
  targetReachedAt := a.targetReachedAt
  targetReachedOnDay := a.targetReachedOnDay

def PhaseSlate.clean (balance equity : Money) : PhaseSlate where
  activeTradingDays := 0
  tradingDayIndex := 0
  dayCountedToday := false
  profitableDaysCount := 0
  qualifyingTradingDaysCount := 0
  todayRealizedPnl := 0
  largestDayProfit := 0
  largestDayLoss := 0
  sumPositiveDaysProfit := 0
  intradayPeakEquity := equity
  peakEquity := equity
  peakBalance := balance
  dayStartBalance := balance
  dayStartEquity := equity
  targetReachedAt := none
  targetReachedOnDay := none

/-- A freshly started account has a clean slate. -/
theorem Account.FreshlyStarted.slate (h : a.FreshlyStarted) : a.slate = .clean a.balance a.equity := by
  obtain ⟨id, tenantId, plan, at_, h⟩ := h
  obtain ⟨-, dayStart, -, rfl⟩ := Account.start_eq h
  rfl

theorem applyTermination_slate : (applyTermination a d t actorId).1.slate = a.slate := by
  unfold applyTermination
  cases d.accountStatusTarget <;> rfl

/-- Three fields of the slate are not among those a promotion writes. -/
theorem promoted_slate (next : ChallengePhase) :
    (a.promoted next).slate =
      { PhaseSlate.clean a.balance a.equity with
        profitableDaysCount := a.profitableDaysCount
        qualifyingTradingDaysCount := a.qualifyingTradingDaysCount
        intradayPeakEquity := a.intradayPeakEquity } := rfl

/-! ## The time limit -/

/-- The plan's time limit does not fail the account before it has run its days from `t` on. -/
def Account.TimeLimitFrom (a : Account) (t : Timestamp) : Prop :=
  ∀ days, a.plan.timeLimitDays = some days → ∀ ctx : RuleContext, ctx.account = a →
    ctx.serverTime < t + Duration.days days →
      ((timeLimitRule none).evaluate ctx).map Verdict.decisionKind ≠ .ok .fail

/-- The deadline that the account carries leaves the days of the limit from `t` on. -/
def Account.DeadlineLeaves (a : Account) (t : Timestamp) : Prop :=
  ∀ days, a.plan.timeLimitDays = some days → ∀ deadline,
    TimeLimitRule.planDeadline a = .ok (some deadline) → t + Duration.days days ≤ deadline + 1

theorem timeLimitRule_fails_iff {ctx : RuleContext} :
    ((timeLimitRule none).evaluate ctx).map Verdict.decisionKind = .ok .fail ↔
      ∃ deadline, TimeLimitRule.planDeadline ctx.account = .ok (some deadline) ∧
        deadline < ctx.serverTime := by
  rw [StdRule.evaluate_decisionKind, map_eq_ok]
  constructor
  · rintro ⟨v, hv, hkind⟩
    obtain ⟨deadline, hd, hv⟩ := bind_eq_ok.mp hv
    cases deadline with
    | none => cases hv; cases hkind
    | some deadline =>
        refine ⟨deadline, hd, ?_⟩
        by_contra hle
        simp only [hle, if_false] at hv
        split at hv
        · cases hv; cases hkind
        · split at hv <;> cases hv <;> cases hkind
  · rintro ⟨deadline, hd, hlt⟩
    have hjudge : TimeLimitRule.judge none ctx =
        .ok (.fail
          { severity := .hard
            message := [.lit "Account time limit exceeded: deadline was ", .time deadline] }) :=
      bind_eq_ok.mpr ⟨some deadline, hd, by simp only [hlt, if_true]; rfl⟩
    exact ⟨_, hjudge, rfl⟩

theorem timeLimitFrom_iff : a.TimeLimitFrom t ↔ a.DeadlineLeaves t := by
  constructor
  · intro h days hdays deadline hd
    by_contra hlt
    -- one tick past the deadline the rule fails, though the days have not run
    refine h days hdays (.new a (deadline + 1) (fun _ => ⟨0⟩) 0) rfl (not_le.mp hlt) ?_
    exact timeLimitRule_fails_iff.mpr ⟨deadline, hd, Int.lt_succ deadline⟩
  · rintro h days hdays ctx rfl hlt hfail
    obtain ⟨deadline, hd, hlate⟩ := timeLimitRule_fails_iff.mp hfail
    exact absurd (Int.lt_add_one_iff.mp (hlt.trans_le (h days hdays deadline hd))) (not_le.mpr hlate)

/-! ## Promotions -/

/-- Neither the mark, the promotion nor a breach recorded after it writes the deadline. -/
theorem deadlineLeaves_terminated {next : ChallengePhase} :
    (applyTermination ((applyTargetHit a d t).1.promoted next) d t actorId).1.DeadlineLeaves t ↔
      a.DeadlineLeaves t := by
  have hread (x y : Account) (hlimit : x.plan.timeLimitDays = y.plan.timeLimitDays)
      (hdeadline : x.deadline = y.deadline) (hstart : x.startedAt = y.startedAt) :
      x.DeadlineLeaves t ↔ y.DeadlineLeaves t := by
    unfold Account.DeadlineLeaves TimeLimitRule.planDeadline
    rw [hlimit, hdeadline, hstart]
  have hmarked : (applyTargetHit a d t).1.DeadlineLeaves t ↔ a.DeadlineLeaves t :=
    hread _ _ (congrArg ChallengePlan.timeLimitDays applyTargetHit_plan)
      (applyTargetHit_reading Account.deadline fun _ _ _ _ => rfl)
      (applyTargetHit_reading Account.startedAt fun _ _ _ _ => rfl)
  refine Iff.trans ?_ hmarked
  unfold applyTermination
  cases d.accountStatusTarget <;> exact hread _ _ rfl rfl rfl

/-- A promotion leaves a clean slate and a restarted time limit exactly when the account it promotes
has no profitable and no qualifying days, its intraday peak is its equity, and its deadline leaves
the days of the limit. The stored trading day is cleared in every case. -/
theorem promotion_cleanSlate_iff (h : applyDecision a d t actorId = .ok (b, evs))
    (hpromoted : b.plan.phase ≠ a.plan.phase) :
    b.currentTradingDayStart = none ∧
      ((b.slate = .clean a.balance a.equity ∧ b.TimeLimitFrom t) ↔
        (a.profitableDaysCount = 0 ∧ a.qualifyingTradingDaysCount = 0 ∧
          a.intradayPeakEquity = a.equity) ∧ a.DeadlineLeaves t) := by
  obtain ⟨-, rfl⟩ := applyDecision_promoted h hpromoted
  refine ⟨?_, and_congr ?_ (timeLimitFrom_iff.trans deadlineLeaves_terminated)⟩
  · unfold applyTermination
    cases d.accountStatusTarget <;> rfl
  · rw [applyTermination_slate, promoted_slate,
      applyTargetHit_reading Account.balance fun _ _ _ _ => rfl,
      applyTargetHit_reading Account.equity fun _ _ _ _ => rfl,
      applyTargetHit_reading Account.profitableDaysCount fun _ _ _ _ => rfl,
      applyTargetHit_reading Account.qualifyingTradingDaysCount fun _ _ _ _ => rfl,
      applyTargetHit_reading Account.intradayPeakEquity fun _ _ _ _ => rfl]
    simp [PhaseSlate.clean]

/-- A waiting account started at the epoch, with thirty days to go. -/
def slateAccount (profitableDaysCount : ℕ) : Account :=
  { waitingAccount (.default ⟨1⟩ 0) with
    startedAt := some 0
    deadline := some (Duration.days 30)
    profitableDaysCount }

theorem promotion_cleanSlate_unprofitable :
    ∃ b evs, applyDecision (slateAccount 0) (.fromReports []) 0 "" = .ok (b, evs) ∧
      b.plan.phase = .phase2 ∧ b.slate = .clean 10000 10000 ∧ b.TimeLimitFrom 0 := by
  have hrun : (applyDecision (slateAccount 0) (.fromReports []) 0 "").map
      (fun x => x.1.plan.phase) = .ok .phase2 := by decide +kernel
  obtain ⟨⟨b, evs⟩, h, hphase⟩ := map_eq_ok.mp hrun
  have hpromoted : b.plan.phase ≠ (slateAccount 0).plan.phase := by
    rw [show b.plan.phase = .phase2 from hphase]; decide
  have hleaves : (slateAccount 0).DeadlineLeaves 0 := by
    intro days hdays deadline hd
    cases hdays
    cases hd
    decide
  exact ⟨b, evs, h, hphase, (promotion_cleanSlate_iff h hpromoted).2.mpr ⟨⟨rfl, rfl, rfl⟩, hleaves⟩⟩

/-- The profitable days of the last phase are there in the next one, and so is its deadline: an
account promoted on the tenth day is failed by the limit of thirty days on the thirty-first. -/
theorem promotion_keeps_days_and_deadline :
    (applyDecision (slateAccount 3) (.fromReports []) 0 "").map
        (fun x => (x.1.plan.phase, x.1.profitableDaysCount)) = .ok (.phase2, 3) ∧
      (applyDecision (slateAccount 0) (.fromReports []) (Duration.days 10) "").map
        (fun x =>
          (((timeLimitRule none).evaluate
            (.new x.1 (Duration.days 31) (fun _ => ⟨0⟩) 0)).map Verdict.decisionKind)) =
        .ok (.ok .fail) := by
  decide +kernel

end Propfirm
