import Propfirm.Engine.Theorems.Caps

/-!
# Orders that a rule rejects

Three rules reject orders: margin, trading hours and the cap on total lots. Their verdict is the one that
ends an account, and the pipeline does not tell the two apart.
-/

namespace Propfirm

open Fallible

variable {p : Pipeline} {env : Env} {a : Account} {order : Order} {r : PipelineResult} {ctx : RuleContext}

def orderRejectionRules : List RuleId := [.named .margin, .named .tradingHours, .named .maxTotalLots]

/-- The rule calls for the end of the account, by its verdict or by its policy for failures. -/
def Rule.Fails (rule : Rule) (ctx : RuleContext) : Prop := rule.Breaches ctx ∨ rule.FailsAccount ctx

namespace RuleRegistry

def Rejects (registry : RuleRegistry) (ctx : RuleContext) : Prop :=
  ∃ rule ∈ registry.rules, rule.runsIn ctx = true ∧ rule.id ∈ orderRejectionRules ∧ rule.Fails ctx

/-- The rules that fail are rules that reject orders. -/
def OnlyRejects (registry : RuleRegistry) (ctx : RuleContext) : Prop :=
  ∀ rule ∈ registry.rules, rule.runsIn ctx = true → rule.Fails ctx → rule.id ∈ orderRejectionRules

def ReportsNoTarget (registry : RuleRegistry) (ctx : RuleContext) : Prop :=
  ∀ rule ∈ registry.rules, rule.runsIn ctx = true → (rule.verdict ctx).decisionKind ≠ .targetHit

end RuleRegistry

/-- The trading day stored for the account is that of `t`. -/
def Account.OnDayOf (a : Account) (t : Timestamp) : Prop :=
  ∃ day, a.currentTradingDayStart = some day ∧ a.plan.tradingDayStart t = .ok day

def Account.money (a : Account) : List Money :=
  [a.initialBalance, a.balance, a.equity, a.estimatedEquity, a.estimatedBalance, a.peakEquity,
    a.peakBalance, a.dayStartBalance, a.todayRealizedPnl, a.totalRealizedPnl, a.totalCommissions,
    a.totalSwaps, a.largestDayProfit, a.largestDayLoss, a.sumPositiveDaysProfit, a.dayStartEquity,
    a.intradayPeakEquity, a.balanceAtLastPayout]

/-- A rejection of the order is reported, and the account goes on as before. -/
structure Spared (registry : RuleRegistry) (ctx : RuleContext) (a : Account) (r : PipelineResult) : Prop where
  reported : registry.Rejects ctx → r.result.decision.isTerminating = true
  status_eq : r.account.status = a.status
  memory_eq : r.account.statusBeforeBreach = a.statusBeforeBreach
  money_eq : r.account.money = a.money

/-! ## Rejections -/

namespace Evaluated

/-- Where only such rules fail, the decision ends the account exactly when one of them does. -/
theorem isTerminating_iff_rejects (s : Evaluated env a (.orderSubmitted order))
    (honly : p.registry.OnlyRejects s.ctx) :
    (s.decision p).isTerminating = true ↔ p.registry.Rejects s.ctx := by
  rw [decision, Decision.isTerminating_iff]
  constructor
  · rintro ⟨report, hreport, hkind⟩
    obtain ⟨rule, hrule, hruns, rfl⟩ := RuleRegistry.mem_evaluate.mp hreport
    have hfails : rule.Fails s.ctx := Rule.verdict_terminates.mp hkind
    exact ⟨rule, hrule, hruns, honly rule hrule hruns hfails, hfails⟩
  · rintro ⟨rule, hrule, hruns, -, hfails⟩
    exact ⟨_, RuleRegistry.mem_evaluate.mpr ⟨rule, hrule, hruns, rfl⟩, Rule.verdict_terminates.mpr hfails⟩

theorem order_not_targetHit (s : Evaluated env a (.orderSubmitted order))
    (htarget : p.registry.ReportsNoTarget s.ctx) : (s.decision p).kind ≠ .targetHit := by
  intro h
  obtain ⟨report, hreport, hkind⟩ := reported_iff.mp (Decision.reported_of_kind (by decide) h)
  obtain ⟨rule, hrule, hruns, rfl⟩ := RuleRegistry.mem_evaluate.mp hreport
  exact htarget rule hrule hruns hkind

/-- The default library looks at targets on ticks only. -/
theorem order_reportsNoTarget (s : Evaluated env a (.orderSubmitted order))
    (hregistry : p.registry.IsDefault) : p.registry.ReportsNoTarget s.ctx := by
  intro rule hrule hruns hkind
  obtain ⟨std, hstd, rfl⟩ := hregistry.exists_std hrule
  rw [← Verdict.decisionKind_map Violation.ruleId, toRule_verdict_outcome (defaultRules_params hstd),
    StdRule.outcome] at hkind
  cases hjudge : std.judge s.ctx with
  | error f => rw [hjudge] at hkind; cases hkind
  | ok v =>
      rw [hjudge] at hkind
      obtain rfl := eq_profitTarget_of_targetHit hstd hjudge (by simpa using hkind)
      simp [Rule.runsIn, StdRule.toRule, profitTargetRule, s.order_kind, EvaluationScope.appliesTo] at hruns

/-- On its own day an order changes nothing but the list of the day's trades. -/
theorem order_account (s : Evaluated env a (.orderSubmitted order)) (hday : a.OnDayOf order.submittedAt) :
    ∃ trades, s.applied.account = { a with todayTrades := trades } := by
  have hrouted : s.routed = a := by
    obtain ⟨day, hstored, hday⟩ := hday
    have hahead : a.plan.daysAhead a.currentTradingDayStart order.submittedAt = .ok [] := by
      simp only [ChallengePlan.daysAhead, hday, hstored]
      exact daysUpTo_done (lt_irrefl day) (by unfold rolloverFuel; omega)
    have hroute := s.route_eq
    rw [route_eq_map] at hroute
    simp only [PipelineEvent.isDayRollover, PipelineEvent.eventTimestamp, hahead] at hroute
    exact (Prod.mk.inj (Except.ok.inj hroute)).1.symm
  obtain ⟨trades, htr⟩ := applyEvent_transition s.apply_eq
  refine ⟨trades, ?_⟩
  generalize s.applied.account = b at htr
  cases htr
  rw [hrouted]

end Evaluated

/-! ## The account -/

theorem Passage.order_marked (s : Passage p env a (.orderSubmitted order) r)
    (htarget : p.registry.ReportsNoTarget s.ctx) (hday : a.OnDayOf order.submittedAt) :
    ∃ trades, s.marked p = { a with todayTrades := trades } := by
  obtain ⟨trades, happlied⟩ := s.order_account hday
  refine ⟨trades, ?_⟩
  rw [Evaluated.marked, applyTargetHit_fst, if_neg (s.order_not_targetHit htarget), s.filled_eq (by simp),
    happlied]

/-- The rules that failed, as the result reports them. -/
def PipelineResult.failing (r : PipelineResult) : List RuleId :=
  (r.result.reports.filter fun report =>
    report.verdict.decisionKind ∈ [.fail, .liquidate, .emergency]).map RuleReport.ruleId

theorem Passage.mem_failing (s : Passage p env a (.orderSubmitted order) r) {id : RuleId} :
    id ∈ r.failing ↔
      ∃ rule ∈ p.registry.rules, rule.runsIn s.ctx = true ∧ rule.id = id ∧ rule.Fails s.ctx := by
  have hkind (k : DecisionKind) : k ∈ [DecisionKind.fail, .liquidate, .emergency] ↔ k.Terminates := by
    simp [DecisionKind.Terminates]
  simp only [PipelineResult.failing, s.result_eq, List.mem_map, List.mem_filter, decide_eq_true_eq, hkind]
  constructor
  · rintro ⟨report, ⟨hreport, hterminates⟩, rfl⟩
    obtain ⟨rule, hrule, hruns, rfl⟩ := RuleRegistry.mem_evaluate.mp hreport
    exact ⟨rule, hrule, hruns, rfl, Rule.verdict_terminates.mp hterminates⟩
  · rintro ⟨rule, hrule, hruns, rfl, hfails⟩
    exact ⟨_, ⟨RuleRegistry.mem_evaluate.mpr ⟨rule, hrule, hruns, rfl⟩,
      Rule.verdict_terminates.mpr hfails⟩, rfl⟩

/-- The account is only spared where there is nothing to reject, and no promotion that the order would
set off. -/
theorem rejection_spares_iff (h : p.process env a (.orderSubmitted order) = .ok r)
    (s : Evaluated env a (.orderSubmitted order)) (hstatus : a.status.evaluationMode = .evaluate)
    (hday : a.OnDayOf order.submittedAt) (honly : p.registry.OnlyRejects s.ctx)
    (htarget : p.registry.ReportsNoTarget s.ctx) :
    Spared p.registry s.ctx a r ↔ ¬p.registry.Rejects s.ctx ∧ a.promotable = false := by
  obtain ⟨pass⟩ := Pipeline.process_passage h
  obtain rfl := s.subsingleton pass.toEvaluated
  obtain ⟨trades, hmarked⟩ := pass.order_marked htarget hday
  have hpromotable : (pass.marked p).promotable = a.promotable := by rw [hmarked]; rfl
  have htarget : (pass.decision p).accountStatusTarget.isSome = (pass.decision p).isTerminating := by
    unfold Decision.accountStatusTarget Decision.isTerminating
    cases (pass.decision p).kind <;> rfl
  have hrejects := pass.isTerminating_iff_rejects honly
  constructor
  · intro hspared
    have hnot : (pass.decision p).isTerminating = false := by
      rw [← Bool.not_eq_true]
      intro hterminating
      have hfinal := pass.account_status
      rw [hspared.status_eq] at hfinal
      unfold Decision.accountStatusTarget at hfinal
      unfold Decision.isTerminating at hterminating
      split at hterminating <;> simp_all [AccountStatus.evaluationMode]
    refine ⟨fun hreject => ?_, ?_⟩
    · rw [hrejects.mpr hreject] at hnot
      cases hnot
    · rw [← Bool.not_eq_true, ← hpromotable]
      intro hp
      have hnone : (pass.decision p).accountStatusTarget = none := by
        rw [← Option.not_isSome_iff_eq_none, htarget, hnot]
        exact Bool.false_ne_true
      have hfinal := pass.account_status
      rw [hnone, pass.promoted_status_of_promotable hp, hspared.status_eq] at hfinal
      rw [hpromotable, Account.promotable, hfinal] at hp
      simp at hp
  · rintro ⟨hnone, hp⟩
    have hnot : (pass.decision p).isTerminating = false := by
      rw [← Bool.not_eq_true, hrejects]
      exact hnone
    have haccount : r.account = { a with todayTrades := trades } := by
      have hterminated : pass.terminated p pass.promoted = pass.promoted := by
        rw [hnot, Option.isSome_eq_false_iff, Option.isNone_iff_eq_none] at htarget
        rw [Evaluated.terminated, applyTermination, htarget]
      rw [pass.account_eq, hterminated, pass.promoted_eq_marked (hpromotable.trans hp), hmarked]
      rfl
    exact
      { reported := fun hreject => absurd hreject hnone
        status_eq := by rw [haccount]
        memory_eq := by rw [haccount]
        money_eq := by rw [haccount]; rfl }

theorem rejection_spares_accepted :
    ∃ (a : Account) (r : PipelineResult) (s : Evaluated (.at 1) a (.orderSubmitted (openOrder 1 1))),
      (Pipeline.ofPlan cappedPlan).process (.at 1) a (.orderSubmitted (openOrder 1 1)) = .ok r ∧
        Spared (Pipeline.ofPlan cappedPlan).registry s.ctx a r := by
  have hrun :
      (do
        let a ← (Account.new ⟨1⟩ ⟨1⟩ cappedPlan).start 0
        let r ← (Pipeline.ofPlan cappedPlan).process (.at 1) a (.orderSubmitted (openOrder 1 1))
        let day ← a.plan.tradingDayStart 1
        pure (a.status.evaluationMode, a.promotable, decide (a.currentTradingDayStart = some day),
          r.failing)) = .ok (.evaluate, false, true, []) := by
    decide +kernel
  obtain ⟨a, hstart, hrun⟩ := bind_eq_ok.mp hrun
  obtain ⟨r, h, hrun⟩ := bind_eq_ok.mp hrun
  obtain ⟨day, hday, hrun⟩ := bind_eq_ok.mp hrun
  have hfacts := pure_eq_ok.mp hrun
  simp only [Prod.mk.injEq, decide_eq_true_eq] at hfacts
  obtain ⟨hstatus, hpromotable, hstored, hfailing⟩ := hfacts
  obtain ⟨pass⟩ := Pipeline.process_passage h
  have hnone (rule : Rule) (hrule : rule ∈ (Pipeline.ofPlan cappedPlan).registry.rules)
      (hruns : rule.runsIn pass.ctx = true) : ¬rule.Fails pass.ctx := by
    intro hfails
    have hmem := pass.mem_failing.mpr ⟨rule, hrule, hruns, rfl, hfails⟩
    rw [hfailing] at hmem
    cases hmem
  refine ⟨a, r, pass.toEvaluated, h, ?_⟩
  apply (rejection_spares_iff h pass.toEvaluated hstatus ⟨day, hstored, hday⟩ ?_ ?_).mpr
  · refine ⟨?_, hpromotable⟩
    rintro ⟨rule, hrule, hruns, -, hfails⟩
    exact hnone rule hrule hruns hfails
  · exact fun rule hrule hruns hfails => absurd hfails (hnone rule hrule hruns)
  · exact pass.order_reportsNoTarget (.inr ⟨_, rfl⟩)

/-- An order above the cap on lots ends the account, although no other rule fails. -/
theorem rejection_ends_account :
    ∃ (a : Account) (r : PipelineResult) (s : Evaluated (.at 1) a (.orderSubmitted (openOrder 2 1))),
      (Pipeline.ofPlan cappedPlan).process (.at 1) a (.orderSubmitted (openOrder 2 1)) = .ok r ∧
        a.status.evaluationMode = .evaluate ∧ a.OnDayOf 1 ∧
        (Pipeline.ofPlan cappedPlan).registry.OnlyRejects s.ctx ∧
        (Pipeline.ofPlan cappedPlan).registry.ReportsNoTarget s.ctx ∧
        a.status = .active ∧ r.account.status = .failed ∧ a.statusBeforeBreach = none ∧
        r.account.statusBeforeBreach = some .active := by
  have hrun :
      (do
        let a ← (Account.new ⟨1⟩ ⟨1⟩ cappedPlan).start 0
        let r ← (Pipeline.ofPlan cappedPlan).process (.at 1) a (.orderSubmitted (openOrder 2 1))
        let day ← a.plan.tradingDayStart 1
        pure ((a.status, a.statusBeforeBreach), (r.account.status, r.account.statusBeforeBreach),
          decide (a.currentTradingDayStart = some day), r.failing)) =
        .ok ((.active, none), (.failed, some .active), true, [.named .maxTotalLots]) := by
    decide +kernel
  obtain ⟨a, hstart, hrun⟩ := bind_eq_ok.mp hrun
  obtain ⟨r, h, hrun⟩ := bind_eq_ok.mp hrun
  obtain ⟨day, hday, hrun⟩ := bind_eq_ok.mp hrun
  have hfacts := pure_eq_ok.mp hrun
  simp only [Prod.mk.injEq, decide_eq_true_eq] at hfacts
  obtain ⟨⟨hstatus, hmemory⟩, ⟨hstatus', hmemory'⟩, hstored, hfailing⟩ := hfacts
  obtain ⟨pass⟩ := Pipeline.process_passage h
  refine ⟨a, r, pass.toEvaluated, h, by rw [hstatus]; rfl, ⟨day, hstored, hday⟩, ?_,
    pass.order_reportsNoTarget (.inr ⟨_, rfl⟩), hstatus, hstatus', hmemory, hmemory'⟩
  intro rule hrule hruns hfails
  have hmem := pass.mem_failing.mpr ⟨rule, hrule, hruns, rfl, hfails⟩
  rw [hfailing, List.mem_singleton] at hmem
  rw [hmem]
  simp [orderRejectionRules]

end Propfirm
