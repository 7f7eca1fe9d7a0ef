import Propfirm.Engine.Theorems.Caps
import Propfirm.Rules.Lemmas.Limits
import Propfirm.Rules.Lemmas.Pack

/-!
# Bans on holding positions

Both bans have a branch for an order that is pending. The scope of the rules keeps it from being reached
when the order is submitted.
-/

namespace Propfirm

open Fallible

variable {params : Option RuleParams} {ctx : RuleContext} {order : Order}

/-- Overnight or over the weekend. -/
inductive HoldingBan where
  | overnight
  | weekend

namespace HoldingBan

def rule : HoldingBan → Option RuleParams → StdRule
  | .overnight => overnightHoldingRule
  | .weekend => weekendHoldingRule

def ruleName : HoldingBan → RuleName
  | .overnight => .overnightHolding
  | .weekend => .weekendHolding

def allowed : HoldingBan → ChallengePlan → Bool
  | .overnight => ChallengePlan.overnightHoldingAllowed
  | .weekend => ChallengePlan.weekendHoldingAllowed

/-- The hours of the ban: from 22:00 to 7:00, or from 21:00 on Friday through Sunday. -/
def InWindow : HoldingBan → Timestamp → Prop
  | .overnight, t => 22 ≤ t.hour ∨ t.hour < 7
  | .weekend, t => t.weekday = 4 ∧ 21 ≤ t.hour ∨ t.weekday = 5 ∨ t.weekday = 6

theorem rule_id (ban : HoldingBan) (params : Option RuleParams) : (ban.rule params).id = ban.ruleName := by
  cases ban <;> rfl

theorem rule_scope (ban : HoldingBan) (params : Option RuleParams) : (ban.rule params).scope = .onTick := by
  cases ban <;> rfl

theorem rule_isEnabled (ban : HoldingBan) (params : Option RuleParams) (ctx : RuleContext) :
    (ban.rule params).isEnabled ctx = packProhibits params (ban.allowed ctx.account.plan) := by
  cases ban <;> rfl

/-- Where it runs, the rule stops an order. -/
theorem fails {ban : HoldingBan} (hallowed : ban.allowed ctx.account.plan = false)
    (hconfig : ctx.ruleConfig = .fromPlan ctx.account.plan) (hwindow : ban.InWindow ctx.serverTime)
    (horder : ctx.pendingOrder = some order) : (ban.rule params).Fails ctx := by
  rw [StdRule.fails_iff_judge]
  cases ban with
  | overnight =>
      change ctx.account.plan.overnightHoldingAllowed = false at hallowed
      have hin : hourInWindow 22 7 ctx.serverTime.hour = true := by
        simpa [hourInWindow, InWindow] using hwindow
      change ∃ f, OvernightHoldingRule.judge ctx = _
      simp [OvernightHoldingRule.judge, hallowed, hconfig, RuleConfig.fromPlan, hin, horder]
  | weekend =>
      change ctx.account.plan.weekendHoldingAllowed = false at hallowed
      have hin : WeekendHoldingRule.inWeekend ⟨21⟩ ctx.serverTime = true := by
        simpa [WeekendHoldingRule.inWeekend, InWindow] using hwindow
      change ∃ f, WeekendHoldingRule.judge ctx = _
      simp [WeekendHoldingRule.judge, hallowed, hconfig, RuleConfig.fromPlan, hin, horder]

end HoldingBan

theorem not_allowed_of_packProhibits {allowed : Bool} (h : packProhibits params allowed = true) :
    allowed = false := by
  cases params <;> simp_all [packProhibits]

theorem HoldingBan.runsIn_iff {ban : HoldingBan}
    (hban : packProhibits params (ban.allowed ctx.account.plan) = true) :
    (ban.rule params).toRule.runsIn ctx = true ↔ ctx.kind = .onTick ∨ ctx.kind = .onDemand := by
  change ((ban.rule params).isEnabled ctx && (ban.rule params).scope.appliesTo ctx.kind) = true ↔ _
  rw [rule_isEnabled, hban, rule_scope, Bool.true_and]
  cases ctx.kind <;> simp [EvaluationScope.appliesTo]

section Reports

variable {ban : HoldingBan} {registry : RuleRegistry} {now : Timestamp} (hbuilt : registry.IsBuilt)
  (hmem : (ban.rule params).toRule ∈ registry.rules)
  (hban : packProhibits params (ban.allowed ctx.account.plan) = true)

include hbuilt hmem hban

theorem HoldingBan.kind_of_report {report : RuleReport} (hreport : report ∈ registry.evaluate ctx now)
    (hid : report.ruleId = .named ban.ruleName) : ctx.kind = .onTick ∨ ctx.kind = .onDemand := by
  obtain ⟨rule, hrule, hruns, rfl⟩ := RuleRegistry.mem_evaluate.mp hreport
  obtain rfl := hbuilt.eq_of_id hrule hmem (hid.trans (congrArg RuleId.named (ban.rule_id params).symm))
  exact (HoldingBan.runsIn_iff hban).mp hruns

theorem HoldingBan.reports_fail_iff (hconfig : ctx.ruleConfig = .fromPlan ctx.account.plan)
    (hwindow : ban.InWindow ctx.serverTime) (horder : ctx.pendingOrder = some order) :
    registry.Reports ctx now ban.ruleName .fail ↔ ctx.kind = .onTick ∨ ctx.kind = .onDemand := by
  have hfails : (ban.rule params).Fails ctx :=
    HoldingBan.fails (not_allowed_of_packProhibits hban) hconfig hwindow horder
  obtain ⟨f, hjudge⟩ := StdRule.fails_iff_judge.mp hfails
  rw [← ban.rule_id params, hbuilt.reports_iff hmem, StdRule.verdict_decisionKind hjudge]
  exact (and_iff_left rfl).trans (HoldingBan.runsIn_iff hban)

end Reports

/-- An order is never judged by the rule of a ban. The same order would be stopped on a tick or on demand. -/
theorem holding_ban_binds_iff (ban : HoldingBan) (c : Processed) (hev : c.ev = .orderSubmitted order)
    (hbuilt : c.pipeline.registry.IsBuilt) (hmem : (ban.rule params).toRule ∈ c.pipeline.registry.rules)
    (hban : packProhibits params (ban.allowed c.before.plan) = true)
    (hwindow : ban.InWindow c.env.contextNow) :
    (∀ report ∈ c.result.result.reports, report.ruleId ≠ .named ban.ruleName) ∧
      ∀ kind,
        (c.pipeline.registry.Reports { c.context with kind } c.env.reportNow ban.ruleName .fail ∧
            (Decision.fromReports
              (c.pipeline.registry.evaluate { c.context with kind } c.env.reportNow)).isTerminating = true) ↔
          kind = .onTick ∨ kind = .onDemand := by
  obtain ⟨hkind, horder⟩ := c.context_of_order hev
  rw [← c.context_plan] at hban
  rw [← c.context_serverTime] at hwindow
  constructor
  · intro report hreport hid
    rw [c.reports_eq] at hreport
    rcases ban.kind_of_report hbuilt hmem hban hreport hid with htick | hdemand
    · rw [hkind] at htick
      cases htick
    · rw [hkind] at hdemand
      cases hdemand
  · intro kind
    have hreports : c.pipeline.registry.Reports { c.context with kind } c.env.reportNow ban.ruleName .fail ↔
        kind = .onTick ∨ kind = .onDemand :=
      @HoldingBan.reports_fail_iff params { c.context with kind } _ _ _ _ hbuilt hmem hban
        c.context_ruleConfig hwindow horder
    refine ⟨fun h => hreports.mp h.1, fun h => ⟨hreports.mpr h, ?_⟩⟩
    obtain ⟨report, hreport, -, hfail⟩ := hreports.mpr h
    exact (Decision.isTerminating_iff _).mpr ⟨report, hreport, .inl hfail⟩

/-- Neither holding overnight nor over the weekend. -/
def dayTradingPlan : ChallengePlan := { ChallengePlan.default ⟨1⟩ 0 with overnightHoldingAllowed := false }

def saturdayNight : Timestamp := Duration.days 2 + Duration.hours 23

theorem HoldingBan.inWindow_saturdayNight (ban : HoldingBan) : ban.InWindow saturdayNight := by
  cases ban with
  | overnight => exact .inl (by decide)
  | weekend => exact .inr (.inl (by decide))

theorem HoldingBan.mem_dayTradingPlan (ban : HoldingBan) :
    (ban.rule none).toRule ∈ (Pipeline.ofPlan dayTradingPlan).registry.rules := by
  refine RuleRegistry.IsDefault.mem (.inr ⟨_, rfl⟩) ?_ ?_
  · cases ban <;> simp [rule, defaultRules]
  · cases ban <;> exact fun _ => rfl

theorem saturdayNight_order :
    ∃ (a : Account) (r : PipelineResult),
      (Pipeline.ofPlan dayTradingPlan).process (.at saturdayNight) a
          (.orderSubmitted (openOrder 1 saturdayNight)) = .ok r ∧
        a.plan = dayTradingPlan ∧ r.result.decision.kind = .pass := by
  have hrun :
      (do
        let a ← (Account.new ⟨1⟩ ⟨1⟩ dayTradingPlan).start 0
        let r ← (Pipeline.ofPlan dayTradingPlan).process (.at saturdayNight) a
          (.orderSubmitted (openOrder 1 saturdayNight))
        pure r.result.decision.kind) = .ok .pass := by
    decide +kernel
  obtain ⟨a, hstart, hrun⟩ := bind_eq_ok.mp hrun
  obtain ⟨r, hprocess, hrun⟩ := bind_eq_ok.mp hrun
  have hpass := pure_eq_ok.mp hrun
  obtain ⟨-, dayStart, -, rfl⟩ := Account.start_eq hstart
  exact ⟨_, r, hprocess, rfl, hpass⟩

theorem holding_ban_binds_on_tick :
    ∃ c : Processed, c.ev = .orderSubmitted (openOrder 1 saturdayNight) ∧
      c.pipeline.registry.Reports { c.context with kind := .onTick } c.env.reportNow .weekendHolding
        .fail := by
  obtain ⟨a, r, hprocess, hplan, -⟩ := saturdayNight_order
  have hban : packProhibits none (HoldingBan.weekend.allowed a.plan) = true := by rw [hplan]; rfl
  obtain ⟨-, hbinds⟩ := holding_ban_binds_iff .weekend (.of hprocess) rfl (.inl (.inr ⟨_, rfl⟩))
    (HoldingBan.mem_dayTradingPlan .weekend) hban (HoldingBan.inWindow_saturdayNight .weekend)
  exact ⟨.of hprocess, rfl, ((hbinds .onTick).mpr (.inl rfl)).1⟩

/-- An order on a Saturday night passes, though the registry has the rules of both bans. -/
theorem holding_ban_skipped :
    ∃ c : Processed, c.ev = .orderSubmitted (openOrder 1 saturdayNight) ∧
      (∀ ban : HoldingBan, ban.allowed c.before.plan = false ∧ ban.InWindow c.env.contextNow ∧
        (ban.rule none).toRule ∈ c.pipeline.registry.rules) ∧
      c.result.result.decision.kind = .pass := by
  obtain ⟨a, r, hprocess, hplan, hpass⟩ := saturdayNight_order
  refine ⟨.of hprocess, rfl, fun ban => ⟨?_, ban.inWindow_saturdayNight, ban.mem_dayTradingPlan⟩, hpass⟩
  change ban.allowed a.plan = false
  rw [hplan]
  cases ban <;> rfl

end Propfirm
