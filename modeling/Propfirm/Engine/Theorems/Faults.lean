import Propfirm.Rules.Lemmas.Registry

/-!
# Rules that fail

The registry turns the error or the panic of a rule into a verdict and goes on with the next rule.
-/

namespace Propfirm

variable {rule : Rule} {ctx : RuleContext} {now : Timestamp}

/-- The loop of the registry over the rules to come, with the reports pushed so far. -/
def RuleRegistry.evaluateFrom (ctx : RuleContext) (now : Timestamp) (reports : List RuleReport) :
    List Rule → Outcome (List RuleReport)
  | [] => .ok reports
  | rule :: rules =>
      if !rule.isEnabled ctx then evaluateFrom ctx now reports rules
      else if !rule.scope.appliesTo ctx.kind then evaluateFrom ctx now reports rules
      else evaluateFrom ctx now (reports ++ [rule.report ctx now]) rules

def DecisionKind.Terminates (k : DecisionKind) : Prop := k = .fail ∨ k = .liquidate ∨ k = .emergency

namespace Rule

/-- The rule was evaluated and calls for the end of the account. -/
def Breaches (rule : Rule) (ctx : RuleContext) : Prop :=
  ∃ v, rule.evaluate ctx = .ok v ∧ v.decisionKind.Terminates

/-- The rule returned an error or panicked, and its policy for that is to fail the account. -/
def FailsAccount (rule : Rule) (ctx : RuleContext) : Prop :=
  (∃ f, rule.evaluate ctx = .error f) ∧ rule.params.bind RuleParams.failurePolicy = some "fail"

end Rule

/-! ## The loop -/

theorem RuleRegistry.evaluateFrom_eq (reports : List RuleReport) (rules : List Rule) :
    evaluateFrom ctx now reports rules =
      .ok (reports ++ (rules.filter fun rule => rule.runsIn ctx).map fun rule => rule.report ctx now) := by
  induction rules generalizing reports with
  | nil => simp [evaluateFrom]
  | cons rule rules ih =>
      unfold evaluateFrom
      cases henabled : rule.isEnabled ctx with
      | false => simp [ih, Rule.runsIn, henabled]
      | true =>
          cases happlies : rule.scope.appliesTo ctx.kind with
          | false => simp [ih, Rule.runsIn, henabled, happlies]
          | true => simp [ih, Rule.runsIn, henabled, happlies]

/-- The reports are those that each rule would get in a registry of its own. -/
theorem RuleRegistry.evaluate_eq_flatMap (r : RuleRegistry) (ctx : RuleContext) (now : Timestamp) :
    r.evaluate ctx now = r.rules.flatMap fun rule => (empty.register rule).evaluate ctx now := by
  unfold evaluate
  induction r.rules with
  | nil => rfl
  | cons rule rules ih =>
      rw [List.flatMap_cons, ← ih]
      cases hruns : rule.runsIn ctx <;> simp [empty, register, hruns]

/-! ## Verdicts -/

theorem Rule.failureVerdict_decisionKind (rule : Rule) (base : Violation) :
    (rule.failureVerdict base).decisionKind.Terminates ↔
      rule.params.bind RuleParams.failurePolicy = some "fail" := by
  unfold failureVerdict
  cases hpolicy : rule.params.bind RuleParams.failurePolicy with
  | none => simp [Verdict.decisionKind, DecisionKind.Terminates]
  | some policy =>
      rw [Option.getD_some]
      split <;> simp_all [Verdict.decisionKind, DecisionKind.Terminates]

theorem Rule.verdict_terminates :
    (rule.verdict ctx).decisionKind.Terminates ↔ rule.Breaches ctx ∨ rule.FailsAccount ctx := by
  unfold verdict Breaches FailsAccount
  cases h : rule.evaluate ctx with
  | ok v => simp
  | error f =>
      cases f with
      | error e => simp [failureVerdict_decisionKind]
      | panic msg | overflow msg => simp [failureVerdict_decisionKind]

theorem StdRule.breaches_iff {r : StdRule} :
    r.toRule.Breaches ctx ↔ ∃ v, r.judge ctx = .ok v ∧ v.decisionKind.Terminates := by
  unfold Rule.Breaches
  cases h : r.judge ctx with
  | ok v => simp [StdRule.toRule, StdRule.evaluate, h, Except.map]
  | error f => simp [StdRule.toRule, StdRule.evaluate, h, Except.map]

theorem Decision.isTerminating_iff (reports : List RuleReport) :
    (fromReports reports).isTerminating = true ↔
      ∃ r ∈ reports, r.verdict.decisionKind.Terminates := by
  simp only [fromReports_isTerminating, Bool.or_eq_true, reported_iff, DecisionKind.Terminates]
  constructor
  · rintro ((⟨r, hr, h⟩ | ⟨r, hr, h⟩) | ⟨r, hr, h⟩)
    · exact ⟨r, hr, .inr (.inr h)⟩
    · exact ⟨r, hr, .inr (.inl h)⟩
    · exact ⟨r, hr, .inl h⟩
  · rintro ⟨r, hr, h | h | h⟩
    · exact .inr ⟨r, hr, h⟩
    · exact .inl (.inr ⟨r, hr, h⟩)
    · exact .inl (.inl ⟨r, hr, h⟩)

/-- Whatever its rules do, a registry returns one report for each rule that is enabled and applies, in
the order of registration, and each as if the rule were alone. The decision ends the account exactly
when a rule that was evaluated says so, or one that failed has the policy to. -/
theorem faults_contained (r : RuleRegistry) (ctx : RuleContext) (now : Timestamp) :
    RuleRegistry.evaluateFrom ctx now [] r.rules = .ok (r.evaluate ctx now) ∧
      (r.evaluate ctx now).map RuleReport.ruleId =
        (r.rules.filter fun rule => rule.isEnabled ctx && rule.scope.appliesTo ctx.kind).map Rule.id ∧
      (r.evaluate ctx now =
        r.rules.flatMap fun rule => (RuleRegistry.empty.register rule).evaluate ctx now) ∧
      ((Decision.fromReports (r.evaluate ctx now)).isTerminating = true ↔
        ∃ rule ∈ r.rules, rule.runsIn ctx = true ∧ (rule.Breaches ctx ∨ rule.FailsAccount ctx)) := by
  refine ⟨?_, ?_, r.evaluate_eq_flatMap ctx now, ?_⟩
  · rw [RuleRegistry.evaluateFrom_eq, List.nil_append, RuleRegistry.evaluate]
  · rw [RuleRegistry.evaluate, List.map_map]
    rfl
  · rw [Decision.isTerminating_iff]
    constructor
    · rintro ⟨report, hreport, h⟩
      obtain ⟨rule, hmem, hruns, rfl⟩ := RuleRegistry.mem_evaluate.mp hreport
      exact ⟨rule, hmem, hruns, Rule.verdict_terminates.mp h⟩
    · rintro ⟨rule, hmem, hruns, h⟩
      have hreport : rule.report ctx now ∈ r.evaluate ctx now :=
        RuleRegistry.mem_evaluate.mpr ⟨rule, hmem, hruns, rfl⟩
      exact ⟨_, hreport, Rule.verdict_terminates.mpr h⟩

end Propfirm
