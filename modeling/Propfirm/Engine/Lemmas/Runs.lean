import Propfirm.Engine.Lemmas.Targets
import Propfirm.Lib.Path

/-!
# Runs of the pipeline
-/

namespace Propfirm

open Fallible

/-- A call that succeeded. -/
structure Processed where
  pipeline : Pipeline
  env : Env
  before : Account
  ev : PipelineEvent
  result : PipelineResult
  process_eq : pipeline.process env before ev = .ok result

namespace Processed

abbrev of {p : Pipeline} {env : Env} {a : Account} {ev : PipelineEvent} {r : PipelineResult}
    (h : p.process env a ev = .ok r) : Processed :=
  ⟨p, env, a, ev, r, h⟩

def after (c : Processed) : Account := c.result.account

theorem passage (c : Processed) : Nonempty (Passage c.pipeline c.env c.before c.ev c.result) :=
  Pipeline.process_passage c.process_eq

/-- The account that the rules judged. -/
def seen (c : Processed) : Account :=
  let applied : Outcome Account := do
    let (routed, _) ← route c.env c.before c.ev
    let applied ← applyEvent c.env routed c.ev
    pure applied.account
  applied.toOption.getD c.before

theorem seen_eq (c : Processed) (s : Evaluated c.env c.before c.ev) : c.seen = s.applied.account := by
  simp only [seen, s.route_eq, bind, Except.bind, s.apply_eq, pure, Except.pure]
  rfl

/-- The context that the rules judged. -/
def context (c : Processed) : RuleContext :=
  let built : Outcome RuleContext := do
    let (routed, _) ← route c.env c.before c.ev
    let applied ← applyEvent c.env routed c.ev
    pure (buildContext c.env applied c.ev)
  built.toOption.getD (.new c.before c.env.contextNow c.env.violationId c.env.ruleNow)

theorem context_eq (c : Processed) (s : Evaluated c.env c.before c.ev) : c.context = s.ctx := by
  simp only [context, s.route_eq, bind, Except.bind, s.apply_eq, pure, Except.pure]
  rfl

theorem reports_eq (c : Processed) :
    c.result.result.reports = c.pipeline.registry.evaluate c.context c.env.reportNow := by
  obtain ⟨s⟩ := c.passage
  rw [s.result_eq, c.context_eq s.toEvaluated]
  rfl

/-- The call reports a verdict of the class by a rule of the name. -/
def Reports (c : Processed) (name : RuleName) (k : DecisionKind) : Prop :=
  ∃ report ∈ c.result.result.reports, report.ruleId = .named name ∧ report.verdict.decisionKind = k

theorem context_serverTime (c : Processed) : c.context.serverTime = c.env.contextNow := by
  obtain ⟨s⟩ := c.passage
  rw [c.context_eq s.toEvaluated]
  exact buildContext_serverTime _

theorem context_plan (c : Processed) : c.context.account.plan = c.before.plan := by
  obtain ⟨s⟩ := c.passage
  rw [c.context_eq s.toEvaluated]
  exact s.ctx_plan

theorem context_ruleConfig (c : Processed) : c.context.ruleConfig = .fromPlan c.context.account.plan := by
  obtain ⟨s⟩ := c.passage
  rw [c.context_eq s.toEvaluated, Evaluated.ctx, buildContext_ruleConfig, buildContext_account]

theorem context_of_order (c : Processed) {order : Order} (hev : c.ev = .orderSubmitted order) :
    c.context.kind = .onOrderSubmit ∧ c.context.pendingOrder = some order := by
  obtain ⟨p, env, a, ev, r, hprocess⟩ := c
  obtain rfl : ev = .orderSubmitted order := hev
  obtain ⟨s⟩ := Pipeline.process_passage hprocess
  rw [context_eq _ s.toEvaluated]
  exact ⟨s.order_kind, rfl⟩

end Processed

/-- Calls in a row, latest first, by whatever pipelines and at whatever times. -/
abbrev Run : Account → List Processed → Account → Prop := Path Processed.before Processed.after

theorem Pipeline.run_ok {p : Pipeline} {a b : Account} {evs : List (Env × PipelineEvent)}
    (h : p.run a evs = .ok b) :
    ∃ calls, Run a calls b ∧ calls.map Processed.ev = (evs.map Prod.snd).reverse := by
  induction evs generalizing a with
  | nil =>
      cases h
      exact ⟨[], .nil, rfl⟩
  | cons e evs ih =>
      obtain ⟨env, ev⟩ := e
      obtain ⟨r, hr, h⟩ := bind_eq_ok.mp h
      obtain ⟨calls, hrun, hevs⟩ := ih h
      refine ⟨calls ++ [Processed.of hr], Path.append (.cons (Processed.of hr) .nil) hrun, ?_⟩
      rw [List.map_append, hevs]
      simp

end Propfirm
