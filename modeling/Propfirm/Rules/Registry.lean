import Propfirm.Rules.Evaluators.Patterns
import Propfirm.Rules.Evaluators.Timing

/-!
# The rule registry
-/

namespace Propfirm

/-- The standard library, in registration order, with parameters taken from the plan. -/
def defaultRules : List StdRule :=
  [dailyDrawdownRule none, maxDrawdownRule none, trailingDrawdownRule none, profitTargetRule none,
    minTradingDaysRule none, minProfitableDaysRule none, consistencyRule none, newsTradingRule none,
    overnightHoldingRule none, weekendHoldingRule none, maxPositionSizeRule none,
    maxOpenPositionsRule none, maxDailyTradesRule none, timeLimitRule none, cooldownRule none,
    hedgingRule none, gridTradingRule none, copyTradingRule none, stopLossRequiredRule none,
    takeProfitRequiredRule none, hftScalpingRule none, perTradeMaxLossRule none,
    inactivityRule none, maxTotalLotsRule none, tradingHoursRule, marginRule,
    crossAccountHedgingRule none, lowcapExposureRule none]

/-- The rules of the standard library that a plan leaves out of its registry. -/
def ChallengePlan.drops (plan : ChallengePlan) : RuleName → Bool
  | .hftScalping => !plan.hftBanEnabled
  | .perTradeMaxLoss => plan.perTradeMaxLossPct.isNone && plan.perTradeMaxLossMoney.isNone
  | .inactivity => plan.inactivityDays.isNone
  | .minProfitableDays => plan.minProfitableDays.isNone
  | .crossAccountHedging => !plan.crossAccountHedgingProhibited
  | .lowcapExposure => plan.lowcapExposureLimitPct.isNone
  | .hedging => plan.hedgingAllowed
  | .gridTrading => plan.gridTradingAllowed
  | .copyTrading => plan.copyTradingAllowed
  | .newsTrading => plan.newsTradingAllowed
  | .cooldown => decide (plan.cooldownSeconds = 0)
  | _ => false

/-! ## Registration -/

/-- The rules in evaluation order, and the index of each identifier. -/
structure RuleRegistry where
  rules : List Rule
  byId : RuleId → Option ℕ

namespace RuleRegistry

def empty : RuleRegistry := ⟨[], fun _ => none⟩

def register (r : RuleRegistry) (rule : Rule) : RuleRegistry :=
  match r.byId rule.id with
  | some idx => { r with rules := r.rules.set idx rule }
  | none =>
      { rules := r.rules ++ [rule]
        byId := Function.update r.byId rule.id (some r.rules.length) }

/-- The index of a list, entered from its front. -/
def reindex (rules : List Rule) : RuleId → Option ℕ :=
  rules.zipIdx.foldl (fun index x => Function.update index x.1.id (some x.2)) fun _ => none

def unregister (r : RuleRegistry) (id : RuleId) : RuleRegistry :=
  match r.byId id with
  | some idx => { rules := r.rules.eraseIdx idx, byId := reindex (r.rules.eraseIdx idx) }
  | none => r

/-- The code panics where an index lies outside the list. -/
def get (r : RuleRegistry) (id : RuleId) : Option Rule := (r.byId id).bind fun idx => r.rules[idx]?

def registerAll (r : RuleRegistry) (rules : List Rule) : RuleRegistry := rules.foldl register r

def withDefaultRules : RuleRegistry := empty.registerAll (defaultRules.map StdRule.toRule)

def withDefaultRulesForPlan (plan : ChallengePlan) : RuleRegistry :=
  empty.registerAll ((defaultRules.filter fun r => !plan.drops r.id).map StdRule.toRule)

/-- One of the registries the engine builds from its default library. -/
def IsDefault (r : RuleRegistry) : Prop :=
  r = withDefaultRules ∨ ∃ plan, r = withDefaultRulesForPlan plan

end RuleRegistry

/-! ## Evaluation -/

structure RuleReport where
  ruleId : RuleId
  ruleName : String
  verdict : RuleVerdict
  scope : EvaluationScope
  priority : ℕ
  evaluatedAt : Timestamp
  contextKind : RuleContextKind
deriving DecidableEq

def EvaluationScope.appliesTo (scope : EvaluationScope) : RuleContextKind → Bool
  | .onOrderSubmit => scope == .preTrade || scope == .onDemand
  | .onTradeFill => scope == .postTrade || scope == .onDemand
  | .onTick => scope == .onTick || scope == .onDemand
  | .onDayRollover | .onEndOfDay => scope == .periodic || scope == .onDemand
  | .onDemand => true

/-- The scope whose rules are asked for in a context, besides those on demand. -/
def RuleContextKind.scope : RuleContextKind → EvaluationScope
  | .onOrderSubmit => .preTrade
  | .onTradeFill => .postTrade
  | .onTick => .onTick
  | .onDayRollover | .onEndOfDay => .periodic
  | .onDemand => .onDemand

def RuleRegistry.applicable (r : RuleRegistry) (kind : RuleContextKind) : List Rule :=
  r.rules.filter fun rule => rule.scope == kind.scope || rule.scope == .onDemand

namespace Rule

def failureVerdict (rule : Rule) (base : Violation) : RuleVerdict :=
  match (rule.params.bind RuleParams.failurePolicy).getD "warn" with
  | "soft_fail" => .softFail base
  | "fail" => .fail base
  | "gap_flagged" => .gapFlagged base
  | _ => .warn base

def failureViolation (rule : Rule) (ctx : RuleContext) (message : Text) : Violation :=
  buildViolation rule.id rule.name rule.kind ctx { severity := .warning, message }

/-- The verdict recorded for a rule: its own, or the one its failure policy gives. -/
def verdict (rule : Rule) (ctx : RuleContext) : RuleVerdict :=
  match rule.evaluate ctx with
  | .ok v => v
  | .error (.error e) =>
      rule.failureVerdict (rule.failureViolation ctx (.lit "rule evaluation error: " :: e.display))
  | .error (.panic msg) | .error (.overflow msg) =>
      rule.failureVerdict (rule.failureViolation ctx
        [.lit "rule panicked (caught by registry, process preserved): ", .lit msg])

def runsIn (rule : Rule) (ctx : RuleContext) : Bool :=
  rule.isEnabled ctx && rule.scope.appliesTo ctx.kind

def report (rule : Rule) (ctx : RuleContext) (now : Timestamp) : RuleReport where
  ruleId := rule.id
  ruleName := rule.name
  verdict := rule.verdict ctx
  scope := rule.scope
  priority := rule.priority
  evaluatedAt := now
  contextKind := ctx.kind

end Rule

/-- One report for each rule that runs, in registration order. -/
def RuleRegistry.evaluate (r : RuleRegistry) (ctx : RuleContext) (now : Timestamp) :
    List RuleReport :=
  (r.rules.filter fun rule => rule.runsIn ctx).map fun rule => rule.report ctx now

end Propfirm
