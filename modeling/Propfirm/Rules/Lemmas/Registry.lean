import Propfirm.Engine.Lemmas.Decision
import Propfirm.Rules.Lemmas.Verdicts

/-!
# The registries built from plans
-/

namespace Propfirm

open Fallible

variable {plan : ChallengePlan} {ctx : RuleContext} {now : Timestamp}

/-! ## Registration -/

namespace RuleRegistry

theorem register_fresh {r : RuleRegistry} {rule : Rule} (h : r.byId rule.id = none) :
    r.register rule =
      ⟨r.rules ++ [rule], Function.update r.byId rule.id (some r.rules.length)⟩ := by
  simp only [register, h]

theorem registerAll_rules {r : RuleRegistry} {rules : List Rule}
    (hfresh : ∀ rule ∈ rules, r.byId rule.id = none) (hnodup : (rules.map Rule.id).Nodup) :
    (r.registerAll rules).rules = r.rules ++ rules := by
  induction rules generalizing r with
  | nil => simp [registerAll]
  | cons rule rules ih =>
      obtain ⟨hnot, hnodup⟩ := List.nodup_cons.mp hnodup
      have htail : ∀ rule' ∈ rules, (r.register rule).byId rule'.id = none := by
        intro rule' hmem
        have hne : rule'.id ≠ rule.id := fun he => hnot (he ▸ List.mem_map_of_mem hmem)
        simp [register_fresh (hfresh rule (by simp)), hne, hfresh rule' (by simp [hmem])]
      calc (r.registerAll (rule :: rules)).rules
          = (r.register rule).rules ++ rules := ih htail hnodup
        _ = r.rules ++ rule :: rules := by simp [register_fresh (hfresh rule (by simp))]

end RuleRegistry

theorem defaultRules_id_nodup : (defaultRules.map StdRule.id).Nodup := by decide

/-- No rule of the default library takes parameters from a pack. -/
theorem defaultRules_params {r : StdRule} (hr : r ∈ defaultRules) : r.params = none := by
  have h : ∀ r ∈ defaultRules, r.params = none := by simp [defaultRules]; decide
  exact h r hr

theorem registerAll_defaultRules_rules {rules : List StdRule} (hsub : rules.Sublist defaultRules) :
    (RuleRegistry.empty.registerAll (rules.map StdRule.toRule)).rules = rules.map StdRule.toRule := by
  have hnodup : ((rules.map StdRule.toRule).map Rule.id).Nodup := by
    have hinj : Function.Injective RuleId.named := fun _ _ h => RuleId.named.inj h
    have := ((hsub.map StdRule.id).nodup defaultRules_id_nodup).map hinj
    simpa [Function.comp_def, StdRule.toRule] using this
  rw [RuleRegistry.registerAll_rules (fun _ _ => rfl) hnodup]
  rfl

theorem withDefaultRulesForPlan_rules (plan : ChallengePlan) :
    (RuleRegistry.withDefaultRulesForPlan plan).rules =
      (defaultRules.filter fun r => !plan.drops r.id).map StdRule.toRule :=
  registerAll_defaultRules_rules List.filter_sublist

theorem mem_withDefaultRulesForPlan {r : StdRule} (hr : r ∈ defaultRules) (hdrops : plan.drops r.id = false) :
    r.toRule ∈ (RuleRegistry.withDefaultRulesForPlan plan).rules := by
  rw [withDefaultRulesForPlan_rules]
  exact List.mem_map_of_mem (List.mem_filter.mpr ⟨hr, by rw [hdrops]; rfl⟩)

theorem RuleRegistry.IsDefault.exists_sublist {registry : RuleRegistry} (h : registry.IsDefault) :
    ∃ rules : List StdRule, rules.Sublist defaultRules ∧ registry.rules = rules.map StdRule.toRule := by
  rcases h with rfl | ⟨plan, rfl⟩
  · exact ⟨defaultRules, .refl _, registerAll_defaultRules_rules (.refl _)⟩
  · exact ⟨_, List.filter_sublist, withDefaultRulesForPlan_rules plan⟩

theorem RuleRegistry.IsDefault.exists_std {registry : RuleRegistry} {rule : Rule} (h : registry.IsDefault)
    (hrule : rule ∈ registry.rules) : ∃ r ∈ defaultRules, r.toRule = rule := by
  obtain ⟨rules, hsub, hrules⟩ := h.exists_sublist
  rw [hrules] at hrule
  obtain ⟨r, hr, rfl⟩ := List.mem_map.mp hrule
  exact ⟨r, hsub.subset hr, rfl⟩

/-- A rule that no plan leaves out is in every registry of the default library. -/
theorem RuleRegistry.IsDefault.mem {registry : RuleRegistry} {r : StdRule} (h : registry.IsDefault)
    (hr : r ∈ defaultRules) (hdrops : ∀ plan : ChallengePlan, plan.drops r.id = false) :
    r.toRule ∈ registry.rules := by
  rcases h with rfl | ⟨plan, rfl⟩
  · rw [withDefaultRules, registerAll_defaultRules_rules (.refl _)]
    exact List.mem_map_of_mem hr
  · exact mem_withDefaultRulesForPlan hr (hdrops plan)

/-! ## Reports -/

theorem RuleRegistry.mem_evaluate {r : RuleRegistry} {report : RuleReport} :
    report ∈ r.evaluate ctx now ↔
      ∃ rule ∈ r.rules, rule.runsIn ctx = true ∧ rule.report ctx now = report := by
  simp [evaluate, and_assoc]

@[simp] theorem buildViolation_ruleId (id : RuleId) (name : String) (kind : ViolationKind)
    (ctx : RuleContext) (f : Finding) : (buildViolation id name kind ctx f).ruleId = id := by
  unfold buildViolation
  split <;> rfl

@[simp] theorem buildViolation_severity {id : RuleId} {name : String} {kind : ViolationKind} {f : Finding} :
    (buildViolation id name kind ctx f).severity = f.severity := by
  unfold buildViolation
  cases f.breach <;> rfl

/-- The record built from a finding does not change the kind of the verdict. -/
theorem StdRule.evaluate_decisionKind (r : StdRule) (ctx : RuleContext) :
    (r.evaluate ctx).map Verdict.decisionKind = (r.judge ctx).map Verdict.decisionKind := by
  unfold StdRule.evaluate
  cases r.judge ctx with
  | error f => rfl
  | ok v => simp [Except.map]

theorem StdRule.verdict_decisionKind {r : StdRule} {v : Verdict Finding} (h : r.judge ctx = .ok v) :
    (r.toRule.verdict ctx).decisionKind = v.decisionKind := by
  simp [Rule.verdict, StdRule.toRule, StdRule.evaluate, h, Except.map]

/-- A rule of the name is among those that report, with a verdict of the class. -/
def RuleRegistry.Reports (registry : RuleRegistry) (ctx : RuleContext) (now : Timestamp) (name : RuleName)
    (k : DecisionKind) : Prop :=
  ∃ report ∈ registry.evaluate ctx now, report.ruleId = .named name ∧ report.verdict.decisionKind = k

/-- Where a rule is the only one of its name, it is the one that reports. -/
theorem RuleRegistry.reports_iff {registry : RuleRegistry} {r : StdRule} {k : DecisionKind}
    (hmem : r.toRule ∈ registry.rules)
    (honly : ∀ rule ∈ registry.rules, rule.id = .named r.id → rule = r.toRule) :
    registry.Reports ctx now r.id k ↔
      r.toRule.runsIn ctx = true ∧ (r.toRule.verdict ctx).decisionKind = k := by
  constructor
  · rintro ⟨report, hreport, hid, hkind⟩
    obtain ⟨rule, hrule, hruns, rfl⟩ := mem_evaluate.mp hreport
    obtain rfl := honly rule hrule hid
    exact ⟨hruns, hkind⟩
  · rintro ⟨hruns, hkind⟩
    exact ⟨_, mem_evaluate.mpr ⟨_, hmem, hruns, rfl⟩, rfl, hkind⟩

theorem RuleRegistry.IsDefault.eq_toRule {registry : RuleRegistry} {r : StdRule} {rule : Rule}
    (h : registry.IsDefault) (hr : r ∈ defaultRules) (hrule : rule ∈ registry.rules)
    (hid : rule.id = .named r.id) : rule = r.toRule := by
  obtain ⟨r', hr', rfl⟩ := h.exists_std hrule
  rw [List.inj_on_of_nodup_map defaultRules_id_nodup hr' hr (RuleId.named.inj hid)]

/-- What is recorded for a rule, without the texts; a failure counts as a warning. -/
def StdRule.outcome (r : StdRule) (ctx : RuleContext) : Verdict RuleId :=
  match r.judge ctx with
  | .ok v => v.map fun _ => .named r.id
  | .error _ => .warn (.named r.id)

theorem toRule_verdict_outcome {r : StdRule} (hr : r.params = none) :
    (r.toRule.verdict ctx).map Violation.ruleId = r.outcome ctx := by
  have hpolicy (base : Violation) : r.toRule.failureVerdict base = .warn base := by
    simp [Rule.failureVerdict, StdRule.toRule, hr]
  unfold Rule.verdict StdRule.outcome
  cases h : r.judge ctx with
  | ok v =>
      cases v <;> simp [StdRule.toRule, StdRule.evaluate, h, Except.map, Verdict.map]
  | error f =>
      have he : r.toRule.evaluate ctx = .error f := by
        simp [StdRule.toRule, StdRule.evaluate, h, Except.map]
      have hrule (message : Text) :
          (r.toRule.failureViolation ctx message).ruleId = .named r.id := buildViolation_ruleId ..
      rw [he]
      cases f <;> simp only [hpolicy, Verdict.map, hrule]

def ChallengePlan.runs (plan : ChallengePlan) (ctx : RuleContext) (r : StdRule) : Bool :=
  !plan.drops r.id && r.toRule.runsIn ctx

/-- A plan that keeps a rule wherever it is enabled leaves out nothing that would run. -/
theorem ChallengePlan.runs_eq {plan : ChallengePlan} {ctx : RuleContext} {r : StdRule}
    (h : r.isEnabled ctx = true → plan.drops r.id = false) : plan.runs ctx r = r.toRule.runsIn ctx := by
  cases henabled : r.isEnabled ctx with
  | false =>
      have hoff : r.toRule.runsIn ctx = false := Bool.and_eq_false_iff.mpr (.inl henabled)
      simp [runs, hoff]
  | true => simp [runs, h henabled]

theorem withDefaultRulesForPlan_evaluate (plan : ChallengePlan) (ctx : RuleContext) (now : Timestamp) :
    (RuleRegistry.withDefaultRulesForPlan plan).evaluate ctx now =
      (defaultRules.filter (plan.runs ctx)).map fun r => r.toRule.report ctx now := by
  simp only [RuleRegistry.evaluate, withDefaultRulesForPlan_rules, List.filter_map, List.filter_filter,
    List.map_map, Function.comp_def]
  congr 2
  funext r
  simp [ChallengePlan.runs, Bool.and_comm]

/-- A rule that is enabled in a context is registered for the plan of its account. -/
theorem not_drops_of_isEnabled {r : StdRule} (hr : r ∈ defaultRules) (h : r.isEnabled ctx = true) :
    ctx.account.plan.drops r.id = false := by
  have hall : ∀ r ∈ defaultRules, r.isEnabled ctx = true → ctx.account.plan.drops r.id = false := by
    simp only [defaultRules, List.forall_mem_cons, List.not_mem_nil, false_imp_iff, implies_true,
      and_true]
    refine ⟨fun _ => rfl, fun _ => rfl, fun _ => rfl, fun _ => rfl, fun _ => rfl, ?minProfitableDays,
      fun _ => rfl, ?news, fun _ => rfl, fun _ => rfl, fun _ => rfl, fun _ => rfl, fun _ => rfl,
      fun _ => rfl, ?cooldown, ?hedging, ?grid, ?copy, fun _ => rfl, fun _ => rfl, ?hft, ?perTrade,
      ?inactivity, fun _ => rfl, fun _ => rfl, fun _ => rfl, ?crossHedging, ?lowcap⟩
    all_goals intro h
    case minProfitableDays | inactivity | lowcap => exact Option.isNone_eq_false_iff.mpr h
    case news | hedging | grid | copy => exact Bool.not_inj h
    case hft | crossHedging => exact congrArg not h
    case cooldown => exact decide_eq_false (Nat.pos_iff_ne_zero.mp (of_decide_eq_true h))
    case perTrade =>
      rcases Bool.or_eq_true_iff.mp h with hpct | hmoney
      · exact Bool.and_eq_false_iff.mpr (.inl (Option.isNone_eq_false_iff.mpr hpct))
      · exact Bool.and_eq_false_iff.mpr (.inr (Option.isNone_eq_false_iff.mpr hmoney))
  exact hall r hr h

/-- What is reported, warnings apart, is what the rules that run judge. -/
theorem reported_default_iff {k : DecisionKind} (hk : k ≠ .warn) :
    reported ((RuleRegistry.withDefaultRulesForPlan plan).evaluate ctx now) k = true ↔
      ∃ r ∈ defaultRules, plan.runs ctx r = true ∧ ∃ v, r.judge ctx = .ok v ∧ v.decisionKind = k := by
  have hjudged {r : StdRule} (hr : r ∈ defaultRules) :
      (r.toRule.verdict ctx).decisionKind = k ↔ ∃ v, r.judge ctx = .ok v ∧ v.decisionKind = k := by
    rw [← Verdict.decisionKind_map Violation.ruleId, toRule_verdict_outcome (defaultRules_params hr),
      StdRule.outcome]
    cases r.judge ctx with
    | ok v => simp
    | error f => simpa using fun h => hk h.symm
  rw [reported_iff, withDefaultRulesForPlan_evaluate]
  simp only [List.mem_map, List.mem_filter]
  constructor
  · rintro ⟨-, ⟨r, ⟨hr, hruns⟩, rfl⟩, hkind⟩
    exact ⟨r, hr, hruns, (hjudged hr).mp hkind⟩
  · rintro ⟨r, hr, hruns, hv⟩
    exact ⟨_, ⟨r, ⟨hr, hruns⟩, rfl⟩, (hjudged hr).mpr hv⟩

theorem reported_default {k : DecisionKind} (hk : k ≠ .warn)
    (h : reported ((RuleRegistry.withDefaultRulesForPlan plan).evaluate ctx now) k = true) :
    ∃ r ∈ defaultRules, ∃ v, r.judge ctx = .ok v ∧ v.decisionKind = k := by
  obtain ⟨r, hr, -, hv⟩ := (reported_default_iff hk).mp h
  exact ⟨r, hr, hv⟩

/-- No rule of the default library calls an emergency. -/
theorem not_reported_emergency :
    reported ((RuleRegistry.withDefaultRulesForPlan plan).evaluate ctx now) .emergency = false := by
  rw [← Bool.not_eq_true]
  intro h
  obtain ⟨r, hr, v, hv, hkind⟩ := reported_default (by decide) h
  have hmem : .emergency ∈ r.id.verdictKinds := hkind ▸ judge_within hr v hv
  exact absurd hmem (by cases r.id <;> decide)

theorem defaultRules_eq_of_id {r r' : StdRule} (hr : r ∈ defaultRules) (hr' : r' ∈ defaultRules)
    (h : r.id = r'.id) : r = r' :=
  List.inj_on_of_nodup_map defaultRules_id_nodup hr hr' h

theorem eq_profitTarget_of_targetHit {r : StdRule} {v : Verdict Finding} (hr : r ∈ defaultRules)
    (hv : r.judge ctx = .ok v) (hkind : v.decisionKind = .targetHit) : r = profitTargetRule none := by
  have hmem : .targetHit ∈ r.id.verdictKinds := hkind ▸ judge_within hr v hv
  have hid : r.id = .profitTarget := by
    revert hmem
    cases r.id <;> simp
  exact defaultRules_eq_of_id hr (by simp [defaultRules]) hid

/-- Four rules of the default library can liquidate. -/
theorem eq_of_liquidate {r : StdRule} {v : Verdict Finding} (hr : r ∈ defaultRules)
    (hv : r.judge ctx = .ok v) (hkind : v.decisionKind = .liquidate) :
    r = dailyDrawdownRule none ∨ r = maxDrawdownRule none ∨ r = trailingDrawdownRule none ∨
      r = perTradeMaxLossRule none := by
  have hmem : .liquidate ∈ r.id.verdictKinds := hkind ▸ judge_within hr v hv
  have hid : r.id = .dailyDrawdown ∨ r.id = .maxDrawdown ∨ r.id = .trailingDrawdown ∨
      r.id = .perTradeMaxLoss := by
    revert hmem
    cases r.id <;> simp
  exact hid.imp (defaultRules_eq_of_id hr (by simp [defaultRules]))
    (.imp (defaultRules_eq_of_id hr (by simp [defaultRules]))
      (.imp (defaultRules_eq_of_id hr (by simp [defaultRules]))
        (defaultRules_eq_of_id hr (by simp [defaultRules]))))

/-- No rule of the default library liquidates without broker-reported equity. -/
theorem not_reported_liquidate (hctx : ctx.equityIsBrokerReported = false) :
    reported ((RuleRegistry.withDefaultRulesForPlan plan).evaluate ctx now) .liquidate = false := by
  rw [← Bool.not_eq_true]
  intro h
  obtain ⟨r, hr, v, hv, hkind⟩ := reported_default (by decide) h
  have hcontra (kinds : List DecisionKind) (hwithin : Within kinds (r.judge ctx))
      (hnot : .liquidate ∉ kinds) : False := hnot (hkind ▸ hwithin v hv)
  rcases eq_of_liquidate hr hv hkind with rfl | rfl | rfl | rfl
  · exact hcontra [.pass, .gapFlagged]
      (within_ite (by simp) (withBrokerEquity_estimated hctx (by simp))) (by simp)
  · exact hcontra [.pass, .gapFlagged]
      (within_ite (by simp) (withBrokerEquity_estimated hctx (by simp))) (by simp)
  · refine hcontra [.pass, .gapFlagged] ?_ (by simp)
    change Within _ (TrailingDrawdownRule.judge none ctx)
    unfold TrailingDrawdownRule.judge
    split
    · simp
    · exact withBrokerEquity_estimated hctx (by simp)
  · exact hcontra [.pass, .warn, .earlyWarning] (perTradeMaxLoss_estimated hctx) (by simp)

/-- A target is reported only when the net profit of the account has reached it. -/
theorem reachedProfitTarget_of_reported
    (h : reported ((RuleRegistry.withDefaultRulesForPlan plan).evaluate ctx now) .targetHit = true) :
    ctx.account.reachedProfitTarget = true := by
  obtain ⟨r, hr, v, hv, hkind⟩ := reported_default (by decide) h
  obtain rfl := eq_profitTarget_of_targetHit hr hv hkind
  simp only [profitTargetRule, ProfitTargetRule.judge, ProfitTargetRule.target] at hv
  simp only [Account.reachedProfitTarget, decide_eq_true_eq]
  split at hv
  · cases hv; cases hkind
  · split at hv
    · rename_i htarget; exact htarget.2
    · repeat' split at hv
      all_goals (cases hv; cases hkind)

end Propfirm
