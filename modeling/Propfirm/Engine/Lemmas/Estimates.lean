import Propfirm.Engine.Lemmas.Aside
import Propfirm.Engine.Lemmas.Rollover
import Propfirm.Rules.Lemmas.Registry

/-!
# What the estimate of the equity does not reach

The estimate is kept on a track of its own. No rule of the default library reads it, and no stage of a
call carries it over into another field.
-/

namespace Propfirm

open Fallible

variable {p : Pipeline} {env : Env} {a b : Account} {ev : PipelineEvent}

/-! ## Forgetting the estimate -/

def Account.withoutEstimate (a : Account) : Account := { a with estimatedEquity := 0 }

/-- The event with the quote of an estimated tick blanked. -/
def PipelineEvent.withoutQuote : PipelineEvent → PipelineEvent
  | .tickEstimated t => .tickEstimated ⟨t.symbol, ⟨0, 0, t.quote.ts⟩⟩
  | ev => ev

def EquityInput.withoutEstimate : EquityInput → EquityInput
  | .brokerReported equity balance => .brokerReported equity balance
  | .estimated _ _ => .estimated 0 0

def RuleContext.withoutEstimate (ctx : RuleContext) : RuleContext :=
  { ctx with
    account := ctx.account.withoutEstimate
    equityInput := ctx.equityInput.withoutEstimate }

def AppliedEvent.withoutEstimate (x : AppliedEvent) : AppliedEvent :=
  { x with account := x.account.withoutEstimate, events := [] }

/-! ## Rules -/

theorem judge_withoutEstimate {r : StdRule} (hr : r ∈ defaultRules) (ctx : RuleContext) :
    r.judge ctx.withoutEstimate = r.judge ctx := by
  obtain ⟨account, openPositions, todayTrades, pendingOrder, latestTrade, crossReferenceTrades,
    instruments, serverTime, kind, ruleConfig, equityInput, violationId, wallClock⟩ := ctx
  simp only [defaultRules, List.mem_cons, List.not_mem_nil, or_false] at hr
  -- a rule asks at most whether the equity is an estimate
  cases equityInput <;>
    rcases hr with rfl | rfl | rfl | rfl | rfl | rfl | rfl | rfl | rfl | rfl | rfl | rfl | rfl | rfl |
      rfl | rfl | rfl | rfl | rfl | rfl | rfl | rfl | rfl | rfl | rfl | rfl | rfl | rfl <;> rfl

theorem toRule_report_withoutEstimate {r : StdRule} (hr : r ∈ defaultRules) (ctx : RuleContext)
    (now : Timestamp) : r.toRule.report ctx.withoutEstimate now = r.toRule.report ctx now := by
  have hevaluate : r.toRule.evaluate ctx.withoutEstimate = r.toRule.evaluate ctx := by
    simp only [StdRule.toRule, StdRule.evaluate, judge_withoutEstimate hr]
    rfl
  simp only [Rule.report, Rule.verdict, hevaluate]
  rfl

theorem isEnabled_withoutEstimate {r : StdRule} (hr : r ∈ defaultRules) (ctx : RuleContext) :
    r.isEnabled ctx.withoutEstimate = r.isEnabled ctx := by
  have hall : ∀ r ∈ defaultRules, r.isEnabled ctx.withoutEstimate = r.isEnabled ctx := by
    simp only [defaultRules, List.forall_mem_cons, List.not_mem_nil, false_imp_iff, implies_true,
      and_true]
    refine ⟨?_, ?_, ?_, ?_, ?_, ?_, ?_, ?_, ?_, ?_, ?_, ?_, ?_, ?_, ?_, ?_, ?_, ?_, ?_, ?_, ?_, ?_, ?_,
      ?_, ?_, ?_, ?_, ?_⟩ <;> rfl
  exact hall r hr

/-- The reports of the default rules do not depend on the estimate. -/
theorem evaluate_withoutEstimate {registry : RuleRegistry} (h : registry.IsDefault) (ctx : RuleContext)
    (now : Timestamp) : registry.evaluate ctx.withoutEstimate now = registry.evaluate ctx now := by
  obtain ⟨rules, hsub, hrules⟩ := h.exists_sublist
  simp only [RuleRegistry.evaluate, hrules, List.filter_map, List.map_map, Function.comp_def]
  have hruns : ∀ r ∈ rules, r.toRule.runsIn ctx.withoutEstimate = r.toRule.runsIn ctx := by
    intro r hr
    have henabled : r.toRule.isEnabled ctx.withoutEstimate = r.toRule.isEnabled ctx :=
      isEnabled_withoutEstimate (hsub.subset hr) ctx
    rw [Rule.runsIn, henabled]
    rfl
  rw [List.filter_congr hruns]
  exact List.map_congr_left fun r hr =>
    toRule_report_withoutEstimate (hsub.subset (List.mem_of_mem_filter hr)) ctx now

/-! ## Stages -/

theorem rolled_withoutEstimate (days : List (Bool × Timestamp)) :
    a.withoutEstimate.rolled days = (a.rolled days).withoutEstimate := by
  induction days generalizing a with
  | nil => rfl
  | cons day days ih =>
      have hone : a.withoutEstimate.rollover day.1 day.2 = (a.rollover day.1 day.2).withoutEstimate := by
        cases day.1 <;> rfl
      exact (congrArg (Account.rolled · days) hone).trans ih

theorem eventTimestamp_withoutQuote (now : Timestamp) :
    ev.withoutQuote.eventTimestamp now = ev.eventTimestamp now := by
  cases ev <;> rfl

theorem isDayRollover_withoutQuote : ev.withoutQuote.isDayRollover = ev.isDayRollover := by
  cases ev <;> rfl

theorem route_withoutEstimate :
    route env a.withoutEstimate ev.withoutQuote =
      (route env a ev).map fun x => (x.1.withoutEstimate, x.2) := by
  rw [route_eq_map, route_eq_map, isDayRollover_withoutQuote, eventTimestamp_withoutQuote]
  have hcaught (starts : List Timestamp) :
      a.withoutEstimate.caughtUp starts = (a.caughtUp starts).withoutEstimate :=
    rolled_withoutEstimate _
  split
  · rfl
  · simp only [hcaught]
    change (a.plan.daysAhead a.currentTradingDayStart (ev.eventTimestamp env.routingNow)).map _ = _
    cases a.plan.daysAhead a.currentTradingDayStart (ev.eventTimestamp env.routingNow) <;> rfl

/-! ### Operations of the branches -/

theorem start_withoutEstimate {at_ : Timestamp} :
    a.withoutEstimate.start at_ = (a.start at_).map Account.withoutEstimate := by
  unfold Account.start
  change (if a.status = .pending then a.plan.tradingDayStart at_ >>= _ else _) = _
  split
  · cases a.plan.tradingDayStart at_ <;> rfl
  · rfl

theorem rolloverDay_withoutEstimate {had ts now} :
    a.withoutEstimate.rolloverDay had ts now = (a.rolloverDay had ts now).map Account.withoutEstimate := by
  unfold Account.rolloverDay
  change a.rolloverTarget ts now >>= _ = _
  cases a.rolloverTarget ts now with
  | error f => rfl
  | ok dayStart => cases had <;> rfl

theorem markActiveTradingDay_withoutEstimate :
    a.withoutEstimate.markActiveTradingDay = a.markActiveTradingDay.withoutEstimate := by
  unfold Account.markActiveTradingDay
  change (if a.dayCountedToday then _ else _) = _
  split <;> rfl

theorem clearBreach_withoutEstimate :
    a.withoutEstimate.clearBreach = a.clearBreach.map Account.withoutEstimate := by
  simp only [Account.clearBreach, Account.withoutEstimate]
  cases a.status <;> rfl

theorem markPayoutPending_withoutEstimate :
    a.withoutEstimate.markPayoutPending = a.markPayoutPending.map Account.withoutEstimate := by
  unfold Account.markPayoutPending
  cases h : a.status <;> simp [Account.withoutEstimate, h, Except.map, raise]

theorem recordPayout_withoutEstimate {amount feeRefund : Money} {paidAt : Timestamp} :
    recordPayout a.withoutEstimate amount feeRefund paidAt =
      (recordPayout a amount feeRefund paidAt).map Account.withoutEstimate := by
  unfold recordPayout
  change (if a.status = .funded ∨ a.status = .payoutPending then _ else _) = _
  split <;> rfl

theorem setEstimatedEquity_withoutEstimate (equity balance : Money) :
    (a.setEstimatedEquity equity balance).withoutEstimate =
      a.withoutEstimate.setEstimatedEquity 0 balance := rfl

theorem applyBranch_withoutEstimate :
    (applyBranch env a.withoutEstimate ev.withoutQuote).map AppliedEvent.withoutEstimate =
      (applyBranch env a ev).map AppliedEvent.withoutEstimate := by
  cases ev with
  | accountStarted at_ =>
      simp only [applyBranch, PipelineEvent.withoutQuote, start_withoutEstimate]
      cases a.start at_ <;> rfl
  | orderSubmitted order => rfl
  | tradeFilled trade =>
      simp only [applyBranch, PipelineEvent.withoutQuote]
      change (fillPosition env.positionId a.openPositions trade >>= _).map _ = _
      cases fillPosition env.positionId a.openPositions trade with
      | error f => rfl
      | ok position =>
          have hmarked (pnl : Money) :
              (a.withoutEstimate.applyRealizedPnl pnl trade.commission trade.swap
                trade.executedAt).markActiveTradingDay =
                (a.applyRealizedPnl pnl trade.commission trade.swap
                  trade.executedAt).markActiveTradingDay.withoutEstimate :=
            markActiveTradingDay_withoutEstimate
              (a := a.applyRealizedPnl pnl trade.commission trade.swap trade.executedAt)
          simp only [bind, Except.bind, hmarked]
          rfl
  | tick tick equity balance =>
      simp only [applyBranch, PipelineEvent.withoutQuote]
      change (admitTick env.branchNow a.lastTickTs tick >>= _).map _ = _
      cases admitTick env.branchNow a.lastTickTs tick <;> rfl
  | tickEstimated tick =>
      simp only [applyBranch, PipelineEvent.withoutQuote, Except.map, AppliedEvent.withoutEstimate,
        setEstimatedEquity_withoutEstimate]
      rfl
  | dayRollover had =>
      simp only [applyBranch, PipelineEvent.withoutQuote, rolloverDay_withoutEstimate]
      cases a.rolloverDay had none env.rolloverNow <;> rfl
  | endOfDay => rfl
  | onDemand => rfl
  | emergencyStop reason actorId at_ => rfl
  | overrideBreach o =>
      simp only [applyBranch, PipelineEvent.withoutQuote, clearBreach_withoutEstimate]
      cases o.validate with
      | error f => rfl
      | ok _ =>
          change (if o.accountId ≠ a.id then _ else _ : Outcome AppliedEvent).map _ =
            (if o.accountId ≠ a.id then _ else _ : Outcome AppliedEvent).map _
          split
          · rfl
          · cases a.clearBreach <;> rfl
  | payoutRequest =>
      simp only [applyBranch, PipelineEvent.withoutQuote, markPayoutPending_withoutEstimate]
      change (acceptedQuote a env.branchNow _ >>= _).map _ = _
      cases acceptedQuote a env.branchNow "payout request rejected: " with
      | error f => rfl
      | ok quote => cases a.markPayoutPending <;> rfl
  | payoutApprove =>
      simp only [applyBranch, PipelineEvent.withoutQuote, recordPayout_withoutEstimate]
      change (acceptedQuote a env.branchNow _ >>= _).map _ = _
      cases acceptedQuote a env.branchNow "payout approval rejected: " with
      | error f => rfl
      | ok quote =>
          change ((recordPayout a quote.amount quote.feeRefund env.branchNow).map _ >>= _).map _ =
            (recordPayout a quote.amount quote.feeRefund env.branchNow >>= _).map _
          cases recordPayout a quote.amount quote.feeRefund env.branchNow <;> rfl

theorem applyEvent_withoutEstimate :
    (applyEvent env a.withoutEstimate ev.withoutQuote).map AppliedEvent.withoutEstimate =
      (applyEvent env a ev).map AppliedEvent.withoutEstimate := by
  simp only [applyEvent, eventTimestamp_withoutQuote]
  change ((a.plan.tradingDayStart (ev.eventTimestamp env.applyNow)) >>= _).map _ = _
  cases a.plan.tradingDayStart (ev.eventTimestamp env.applyNow) with
  | error f => rfl
  | ok dayStart =>
      exact applyBranch_withoutEstimate
        (a := { a with todayTrades := a.todayTrades.filter fun t => decide (dayStart ≤ t.executedAt) })

theorem buildContext_withoutEstimate {x y : AppliedEvent} (h : x.withoutEstimate = y.withoutEstimate) :
    (buildContext env x ev.withoutQuote).withoutEstimate = (buildContext env y ev).withoutEstimate := by
  have hblank (z : AppliedEvent) (ev : PipelineEvent) :
      (buildContext env z ev.withoutQuote).withoutEstimate =
        (buildContext env z.withoutEstimate ev.withoutQuote).withoutEstimate := by
    cases ev <;> rfl
  have hquote : (buildContext env y ev.withoutQuote).withoutEstimate =
      (buildContext env y ev).withoutEstimate := by
    cases ev <;> rfl
  rw [hblank, h, ← hblank, hquote]

/-! ## A call -/

/-- What a call returns, the estimate apart. -/
def PipelineResult.observed (r : PipelineResult) : Account × EvaluationResult :=
  (r.account.withoutEstimate, r.result)

/-- What a call observes of an event that was applied. -/
def Pipeline.observe (p : Pipeline) (env : Env) (ev : PipelineEvent) (applied : AppliedEvent) :
    Outcome (Account × EvaluationResult) := do
  let result := Evaluator.evaluate p.registry (buildContext env applied ev) env.reportNow
  let decided ← applyDecision (consumeFill applied.account applied.tradeFill) result.decision
    env.contextNow ev.actorId
  p.notifyAll result.violations
  pure ((stampTick decided.1 ev).withoutEstimate, result)

theorem process_observed :
    (p.process env a ev).map PipelineResult.observed = (do
      let routed ← route env a ev
      let applied ← applyEvent env routed.1 ev
      p.observe env ev applied) := by
  unfold Pipeline.process Pipeline.observe
  cases route env a ev with
  | error f => rfl
  | ok routed =>
      simp only [bind, Except.bind]
      cases applyEvent env routed.1 ev with
      | error f => rfl
      | ok applied =>
          simp only [buildContext_serverTime]
          cases applyDecision (consumeFill applied.account applied.tradeFill)
              (Evaluator.evaluate p.registry (buildContext env applied ev) env.reportNow).decision
              env.contextNow ev.actorId with
          | error f => rfl
          | ok decided =>
              simp only
              cases p.notifyAll
                (Evaluator.evaluate p.registry (buildContext env applied ev) env.reportNow).violations <;> rfl

theorem applyDecision_withoutEstimate {d : Decision} {t : Timestamp} {actorId : String}
    (h : a.withoutEstimate = b.withoutEstimate) :
    (applyDecision a d t actorId).map (fun x => x.1.withoutEstimate) =
      (applyDecision b d t actorId).map fun x => x.1.withoutEstimate := by
  have hblank (c : Account) : (applyDecision c d t actorId).map (fun x => x.1.withoutEstimate) =
      (applyDecision c.withoutEstimate d t actorId).map fun x => x.1.withoutEstimate := by
    have haside : c.withoutEstimate = c.setAside { c.aside with estimatedEquity := 0 } := rfl
    rw [haside, applyDecision_setAside]
    cases hdecided : applyDecision c d t actorId with
    | error f => rfl
    | ok decided => rw [← applyDecision_aside hdecided]; rfl
  rw [hblank, h, ← hblank]

theorem consumeFill_withoutEstimate (fill : Option (Trade × Position)) :
    (consumeFill a fill).withoutEstimate = consumeFill a.withoutEstimate fill := by
  cases fill <;> rfl

theorem observe_withoutEstimate {x y : AppliedEvent} (hp : p.registry.IsDefault)
    (h : x.withoutEstimate = y.withoutEstimate) :
    p.observe env ev.withoutQuote x = p.observe env ev y := by
  have hresult : Evaluator.evaluate p.registry (buildContext env x ev.withoutQuote) env.reportNow =
      Evaluator.evaluate p.registry (buildContext env y ev) env.reportNow := by
    have hreports : p.registry.evaluate (buildContext env x ev.withoutQuote) env.reportNow =
        p.registry.evaluate (buildContext env y ev) env.reportNow := by
      rw [← evaluate_withoutEstimate hp, buildContext_withoutEstimate h, evaluate_withoutEstimate hp]
    rw [Evaluator.evaluate, Evaluator.evaluate, hreports]
  have hfilled : (consumeFill x.account x.tradeFill).withoutEstimate =
      (consumeFill y.account y.tradeFill).withoutEstimate := by
    rw [consumeFill_withoutEstimate, consumeFill_withoutEstimate]
    exact congrArg (fun z : AppliedEvent => consumeFill z.account z.tradeFill) h
  have hactor : ev.withoutQuote.actorId = ev.actorId := by cases ev <;> rfl
  unfold Pipeline.observe
  rw [hresult, hactor]
  refine bind_congr_of_map (applyDecision_withoutEstimate hfilled) fun c d hcd => ?_
  have hstamp : (stampTick c.1 ev.withoutQuote).withoutEstimate = (stampTick d.1 ev).withoutEstimate := by
    cases ev with
    | tick tick equity balance =>
        exact congrArg (fun z : Account => stampTick z (.tick tick equity balance)) hcd
    | tickEstimated tick => exact congrArg (fun z : Account => stampTick z (.tickEstimated tick)) hcd
    | _ => exact hcd
  rw [hstamp]

/-- Neither the estimate on the account nor the quote of an estimated tick enters what a call returns. -/
theorem process_withoutEstimate (hp : p.registry.IsDefault) :
    (p.process env a.withoutEstimate ev.withoutQuote).map PipelineResult.observed =
      (p.process env a ev).map PipelineResult.observed := by
  rw [process_observed, process_observed, route_withoutEstimate]
  cases route env a ev with
  | error f => rfl
  | ok routed =>
      change applyEvent env routed.1.withoutEstimate ev.withoutQuote >>= _ =
        applyEvent env routed.1 ev >>= _
      exact bind_congr_of_map applyEvent_withoutEstimate fun x y hxy => observe_withoutEstimate hp hxy

theorem process_congr {ev' : PipelineEvent} (hp : p.registry.IsDefault)
    (hab : a.withoutEstimate = b.withoutEstimate) (hev : ev.withoutQuote = ev'.withoutQuote) :
    (p.process env a ev).map PipelineResult.observed =
      (p.process env b ev').map PipelineResult.observed := by
  rw [← process_withoutEstimate hp, hab, hev, process_withoutEstimate hp]

end Propfirm
