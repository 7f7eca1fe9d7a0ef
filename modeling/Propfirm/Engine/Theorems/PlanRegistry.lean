import Propfirm.Pure.Lemmas.Erasure
import Propfirm.Rules.Lemmas.Registry

/-!
# Rules that a plan leaves out

The registry of a plan lacks the rules that the plan switches off. No report goes missing by that.
-/

namespace Propfirm

variable {reports : List RuleReport} {ctx : RuleContext} {now : Timestamp}

/-! ## Without what is drawn -/

def Violation.anonymous (v : Violation) : Violation := { v with id := ⟨0⟩ }

/-- A report without the identifier of its violation and its time. -/
def RuleReport.anonymous (r : RuleReport) : RuleReport :=
  { r with verdict := r.verdict.map Violation.anonymous, evaluatedAt := 0 }

def DecisionReason.map (f : Violation → Violation) : DecisionReason → DecisionReason
  | .allRulesPassed => .allRulesPassed
  | .warnings vs => .warnings (vs.map f)
  | .earlyWarnings vs => .earlyWarnings (vs.map f)
  | .targetHitReached v => .targetHitReached (f v)
  | .hardViolation v => .hardViolation (f v)
  | .softFailReached v => .softFailReached (f v)
  | .liquidationRequested v => .liquidationRequested (f v)
  | .emergencyStop v => .emergencyStop (f v)
  | .gapFlaggedReached v => .gapFlaggedReached (f v)

def Decision.anonymous (d : Decision) : Decision :=
  { d with
    reason := d.reason.map Violation.anonymous
    allViolations := d.allViolations.map Violation.anonymous }

/-- The context with other draws from outside. -/
def RuleContext.redrawn (ctx : RuleContext) (violationId : RuleId → ViolationId) (wallClock : Timestamp) :
    RuleContext :=
  { ctx with violationId, wallClock }

/-! ## Decisions -/

theorem pickWinner_map (f : Violation → Violation) (xs : List (ℕ × Violation)) :
    pickWinner (xs.map (Prod.map id f)) = (pickWinner xs).map (Prod.map id f) := by
  cases xs with
  | nil => rfl
  | cons x xs => exact congrArg some (Select.foldl_later_map f x xs)

theorem classified_anonymous (k : DecisionKind) :
    classified (reports.map RuleReport.anonymous) k =
      (classified reports k).map (Prod.map id Violation.anonymous) := by
  simp only [classified, List.filterMap_map, List.map_filterMap]
  congr 1
  funext r
  simp only [Function.comp_def, RuleReport.anonymous, Verdict.decisionKind_map, Verdict.violation_map]
  split <;> simp [Function.comp_def]

/-- The decision is that on the reports without their draws, up to the draws. -/
theorem Decision.fromReports_anonymous (reports : List RuleReport) :
    fromReports (reports.map RuleReport.anonymous) = (fromReports reports).anonymous := by
  have hall : (reports.map RuleReport.anonymous).filterMap (fun r => r.verdict.violation) =
      (reports.filterMap fun r => r.verdict.violation).map Violation.anonymous := by
    simp [List.filterMap_map, List.map_filterMap, Function.comp_def, RuleReport.anonymous]
  unfold fromReports
  simp only [classified_anonymous, pickWinner_map, hall]
  repeat' split
  all_goals
    simp_all [Decision.anonymous, DecisionReason.map, Function.comp_def]

/-! ## Reports -/

theorem buildViolation_redrawn {id : RuleId} {name : String} {kind : ViolationKind} {f : Finding}
    (ids : RuleId → ViolationId) (wall : Timestamp) :
    (buildViolation id name kind (ctx.redrawn ids wall) f).anonymous =
      (buildViolation id name kind ctx f).anonymous := by
  unfold buildViolation
  cases f.breach with
  | none => rfl
  | some breach => rfl

theorem Rule.failureVerdict_map (rule : Rule) (f : Violation → Violation) (base : Violation) :
    (rule.failureVerdict base).map f = rule.failureVerdict (f base) := by
  unfold failureVerdict
  split <;> rfl

theorem judge_redrawn {r : StdRule} (hr : r ∈ defaultRules) (ids : RuleId → ViolationId)
    (wall : Timestamp) : r.judge (ctx.redrawn ids wall) = r.judge ctx := by
  rw [← judge_erase hr ctx, ← judge_erase hr (ctx.redrawn ids wall)]
  rfl

theorem runsIn_redrawn {r : StdRule} (hr : r ∈ defaultRules) (ids : RuleId → ViolationId)
    (wall : Timestamp) : r.toRule.runsIn (ctx.redrawn ids wall) = r.toRule.runsIn ctx := by
  have henabled : r.isEnabled (ctx.redrawn ids wall) = r.isEnabled ctx := by
    rw [← isEnabled_erase hr ctx, ← isEnabled_erase hr (ctx.redrawn ids wall)]
    rfl
  change (r.isEnabled (ctx.redrawn ids wall) && _) = (r.isEnabled ctx && _)
  rw [henabled]
  rfl

theorem report_redrawn {r : StdRule} (hr : r ∈ defaultRules) (ids : RuleId → ViolationId)
    (wall now' : Timestamp) :
    (r.toRule.report (ctx.redrawn ids wall) now').anonymous = (r.toRule.report ctx now).anonymous := by
  have hverdict : (r.toRule.verdict (ctx.redrawn ids wall)).map Violation.anonymous =
      (r.toRule.verdict ctx).map Violation.anonymous := by
    simp only [Rule.verdict, StdRule.toRule, StdRule.evaluate, judge_redrawn hr]
    cases r.judge ctx with
    | ok v =>
        cases v <;> simp [Except.map, Verdict.map, buildViolation_redrawn]
    | error f =>
        cases f <;>
          simp [Except.map, Rule.failureVerdict_map, Rule.failureViolation, buildViolation_redrawn]
  simp only [RuleReport.anonymous, Rule.report, hverdict]
  rfl

theorem withDefaultRules_evaluate (ctx : RuleContext) (now : Timestamp) :
    RuleRegistry.withDefaultRules.evaluate ctx now =
      (defaultRules.filter fun r => r.toRule.runsIn ctx).map fun r => r.toRule.report ctx now := by
  have hrules : RuleRegistry.withDefaultRules.rules = defaultRules.map StdRule.toRule :=
    registerAll_defaultRules_rules (.refl _)
  simp [RuleRegistry.evaluate, hrules, List.filter_map, List.map_map, Function.comp_def]

/-- For an account bound to a plan, the registry of the plan and that of all default rules give the
same reports in the same order, and the same decision, up to identifiers and times. -/
theorem plan_registry_agrees (ctx : RuleContext) (ids : RuleId → ViolationId)
    (wall now now' : Timestamp) :
    ((RuleRegistry.withDefaultRulesForPlan ctx.account.plan).evaluate ctx now).map RuleReport.anonymous =
        (RuleRegistry.withDefaultRules.evaluate (ctx.redrawn ids wall) now').map RuleReport.anonymous ∧
      (Decision.fromReports
          ((RuleRegistry.withDefaultRulesForPlan ctx.account.plan).evaluate ctx now)).anonymous =
        (Decision.fromReports
          (RuleRegistry.withDefaultRules.evaluate (ctx.redrawn ids wall) now')).anonymous := by
  have hreports :
      ((RuleRegistry.withDefaultRulesForPlan ctx.account.plan).evaluate ctx now).map
          RuleReport.anonymous =
        (RuleRegistry.withDefaultRules.evaluate (ctx.redrawn ids wall) now').map
          RuleReport.anonymous := by
    have hfilter : defaultRules.filter (ctx.account.plan.runs ctx) =
        defaultRules.filter fun r => r.toRule.runsIn (ctx.redrawn ids wall) :=
      List.filter_congr fun r hr =>
        (ChallengePlan.runs_eq (not_drops_of_isEnabled hr)).trans (runsIn_redrawn hr ids wall).symm
    rw [withDefaultRulesForPlan_evaluate, withDefaultRules_evaluate, hfilter, List.map_map, List.map_map]
    exact List.map_congr_left fun r hr =>
      (report_redrawn (List.mem_filter.mp hr).1 ids wall now').symm
  refine ⟨hreports, ?_⟩
  rw [← Decision.fromReports_anonymous, ← Decision.fromReports_anonymous, hreports]

end Propfirm
