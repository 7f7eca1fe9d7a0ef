import Propfirm.Pure
import Propfirm.Rules.Lemmas.Registry

/-!
# Money that nobody attests

On a tick with estimated equity only the calendar ends an account: the time limit, and orders held
overnight or over the weekend. The profit target fails an account past its deadline too, but the time
limit has then failed it anyway.
-/

namespace Propfirm

variable {plan : ChallengePlan} {ctx ctx' : RuleContext} {now : Timestamp}

/-- The rules that may end an account on an estimated tick. -/
def calendarRules : List StdRule :=
  [timeLimitRule none, overnightHoldingRule none, weekendHoldingRule none]

theorem calendarRules_sublist {r : StdRule} (h : r ∈ calendarRules) : r ∈ defaultRules := by
  simp only [calendarRules, List.mem_cons, List.not_mem_nil, or_false] at h
  rcases h with rfl | rfl | rfl <;> simp [defaultRules]

/-- On a tick only four rules of the default library can fail an account. -/
theorem eq_of_tick_fail {r : StdRule} {v : Verdict Finding} (hr : r ∈ defaultRules)
    (hkind : ctx.kind = .onTick) (hruns : plan.runs ctx r = true) (hv : r.judge ctx = .ok v)
    (hfail : v.decisionKind = .fail) : r = profitTargetRule none ∨ r ∈ calendarRules := by
  have hscope : r.scope.appliesTo .onTick = true := by
    rw [ChallengePlan.runs, Bool.and_eq_true, Rule.runsIn, Bool.and_eq_true, hkind] at hruns
    exact hruns.2.2
  have hmem : .fail ∈ r.id.verdictKinds := hfail ▸ judge_within hr v hv
  have hall : ∀ r ∈ defaultRules, r.scope.appliesTo .onTick = true → .fail ∈ r.id.verdictKinds →
      r.id ∈ [RuleName.profitTarget, .timeLimit, .overnightHolding, .weekendHolding] := by
    decide
  have hid := hall r hr hscope hmem
  simp only [List.mem_cons, List.not_mem_nil, or_false] at hid
  simp only [calendarRules, List.mem_cons, List.not_mem_nil, or_false]
  exact hid.imp (defaultRules_eq_of_id hr (by simp [defaultRules]))
    (.imp (defaultRules_eq_of_id hr (by simp [defaultRules]))
      (.imp (defaultRules_eq_of_id hr (by simp [defaultRules]))
        (defaultRules_eq_of_id hr (by simp [defaultRules]))))

/-- When the profit target fails an account, so does the time limit. -/
theorem timeLimit_fails {v : Verdict Finding} (hkind : ctx.kind = .onTick)
    (hv : (profitTargetRule none).judge ctx = .ok v) (hfail : v.decisionKind = .fail) :
    plan.runs ctx (timeLimitRule none) = true ∧
      ∃ w, (timeLimitRule none).judge ctx = .ok w ∧ w.decisionKind = .fail := by
  obtain ⟨deadline, hdeadline, hlate⟩ : ∃ deadline, ctx.account.deadline = some deadline ∧
      deadline < ctx.serverTime := by
    simp only [profitTargetRule, ProfitTargetRule.judge] at hv
    repeat' split at hv
    all_goals first
      | exact ⟨_, ‹_›, ‹_›⟩
      | (cases hv; cases hfail)
  constructor
  · have henabled : (timeLimitRule none).isEnabled ctx = true := by
      simp [timeLimitRule, TimeLimitRule.isEnabled, packEnabled, hdeadline]
    simp only [ChallengePlan.runs, Rule.runsIn, hkind, Bool.and_eq_true]
    exact ⟨rfl, henabled, rfl⟩
  · simp only [timeLimitRule, TimeLimitRule.judge, TimeLimitRule.effectiveDeadline,
      TimeLimitRule.planDeadline, hdeadline, bind, Except.bind, hlate, if_true]
    exact ⟨_, rfl, rfl⟩

theorem reported_fail_iff (hkind : ctx.kind = .onTick) :
    reported ((RuleRegistry.withDefaultRulesForPlan plan).evaluate ctx now) .fail = true ↔
      ∃ r ∈ calendarRules, plan.runs ctx r = true ∧
        ∃ v, r.judge ctx = .ok v ∧ v.decisionKind = .fail := by
  rw [reported_default_iff (by decide)]
  constructor
  · rintro ⟨r, hr, hruns, v, hv, hfail⟩
    rcases eq_of_tick_fail hr hkind hruns hv hfail with rfl | hmem
    · exact ⟨timeLimitRule none, by simp [calendarRules], timeLimit_fails hkind hv hfail⟩
    · exact ⟨r, hmem, hruns, v, hv, hfail⟩
  · rintro ⟨r, hr, h⟩
    exact ⟨r, calendarRules_sublist hr, h⟩

/-- The calendar rules read neither the money of an account nor where it comes from. -/
def RuleContext.withoutMoney (ctx : RuleContext) : RuleContext :=
  { ctx with
    account := { ctx.account with equity := 0, balance := 0 }
    equityInput := .estimated 0 0
    violationId := fun _ => ⟨0⟩
    wallClock := 0 }

theorem calendarRules_withoutMoney (plan : ChallengePlan) (ctx : RuleContext) {r : StdRule}
    (hr : r ∈ calendarRules) :
    r.judge ctx.withoutMoney = r.judge ctx ∧ plan.runs ctx.withoutMoney r = plan.runs ctx r := by
  simp only [calendarRules, List.mem_cons, List.not_mem_nil, or_false] at hr
  rcases hr with rfl | rfl | rfl <;> exact ⟨rfl, rfl⟩

theorem reported_fail_withoutMoney (hkind : ctx.kind = .onTick) {now' : Timestamp}
    (h : ctx'.withoutMoney = ctx.withoutMoney) :
    reported ((RuleRegistry.withDefaultRulesForPlan plan).evaluate ctx' now') .fail =
      reported ((RuleRegistry.withDefaultRulesForPlan plan).evaluate ctx now) .fail := by
  have hkind' : ctx'.kind = .onTick := (congrArg RuleContext.kind h).trans hkind
  rw [Bool.eq_iff_iff, reported_fail_iff hkind, reported_fail_iff hkind']
  refine exists_congr fun r => and_congr_right fun hr => ?_
  obtain ⟨hjudge, hruns⟩ := calendarRules_withoutMoney plan ctx hr
  obtain ⟨hjudge', hruns'⟩ := calendarRules_withoutMoney plan ctx' hr
  rw [← hjudge, ← hruns, ← hjudge', ← hruns', h]

namespace Pure

/-- Whether a tick with estimated equity ends the account does not depend on its equity or balance. -/
theorem unattested_money_cannot_terminate (plan : ChallengePlan) (digest digest' : List FieldValue → String)
    (draws draws' : EvaluateDraws) (pack pack' : RulePack) (account : Account) (equity balance : Money)
    (serverTime : Timestamp) (inputs : EvaluateInputs) (h : inputs.equitySource = .estimated) :
    (evaluate digest draws account pack (.withDefaultRulesForPlan plan) .onTick serverTime
        inputs).isTerminating =
      (evaluate digest' draws' { account with equity, balance } pack' (.withDefaultRulesForPlan plan)
        .onTick serverTime inputs).isTerminating := by
  have hestimated (draws : EvaluateDraws) (account : Account) :
      (context draws account .onTick serverTime inputs).equityIsBrokerReported = false := by
    simp [context, RuleContext.equityIsBrokerReported, EquityInput.isBrokerReported, h]
  have hmoney : (context draws' { account with equity, balance } .onTick serverTime inputs).withoutMoney =
      (context draws account .onTick serverTime inputs).withoutMoney := by
    simp only [context, h]
    rfl
  simp only [PureVerdict.isTerminating, evaluate, Decision.fromReports_isTerminating,
    not_reported_emergency, not_reported_liquidate (hestimated _ _), Bool.false_or]
  exact (reported_fail_withoutMoney rfl hmoney).symm

/-- An account that has lost everything by the estimate, and one that has not, go on alike. -/
theorem unattested_money_cannot_terminate_ruin :
    (EvaluateInputs.default.equitySource = .estimated) ∧
      (evaluate (fun _ => "") ⟨fun _ => ⟨0⟩, 0, 0⟩ (Account.new ⟨1⟩ ⟨1⟩ (.default ⟨1⟩ 0))
          ⟨"plan", 1, ""⟩ (.withDefaultRulesForPlan (.default ⟨1⟩ 0)) .onTick 0 .default).isTerminating =
        (evaluate (fun _ => "") ⟨fun _ => ⟨0⟩, 0, 0⟩
          { Account.new ⟨1⟩ ⟨1⟩ (.default ⟨1⟩ 0) with equity := 0, balance := 0 } ⟨"plan", 1, ""⟩
          (.withDefaultRulesForPlan (.default ⟨1⟩ 0)) .onTick 0 .default).isTerminating :=
  ⟨rfl, unattested_money_cannot_terminate _ _ _ _ _ _ _ _ _ _ _ _ rfl⟩

end Pure

end Propfirm
