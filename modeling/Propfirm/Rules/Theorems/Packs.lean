import Propfirm.Rules.Lemmas.Pack
import Propfirm.Rules.Theorems.Utilization

/-!
# What a pack asks for and what its registry does
-/

namespace Propfirm

open Fallible

variable {pack : PackWithRules} {registry : RuleRegistry} {e : RuleEntry} {ctx : RuleContext}

/-! ## Validation -/

theorem checkIds_ok {packId : String} {seen : List String} {entries : List RuleEntry} :
    PackWithRules.checkIds packId seen entries = .ok () ↔
      (entries.map RuleEntry.id).Nodup ∧ ∀ e ∈ entries, e.id ∉ seen := by
  induction entries generalizing seen with
  | nil => simp [PackWithRules.checkIds]
  | cons entry entries ih =>
      unfold PackWithRules.checkIds
      by_cases hseen : entry.id ∈ seen
      · simp [hseen, raise]
      · rw [if_neg hseen, ih]
        simp only [List.map_cons, List.nodup_cons, List.mem_cons, List.mem_map]
        grind

/-- A pack is valid if it has a name and entries, and no two entries share an identifier. -/
theorem validate_ok :
    pack.validate = .ok () ↔
      pack.id.isEmpty = false ∧ pack.rules ≠ [] ∧ (pack.rules.map RuleEntry.id).Nodup := by
  unfold PackWithRules.validate
  cases hid : pack.id.isEmpty with
  | true => simp [raise]
  | false =>
      by_cases hrules : pack.rules = []
      · simp [hrules, raise]
      · simp [hrules, checkIds_ok]

/-! ## Enforcement -/

/-- The pack passes its validation, and a registry is built from it. -/
structure PackWithRules.Deploys (pack : PackWithRules) (registry : RuleRegistry) : Prop where
  validate_eq : pack.validate = .ok ()
  build_eq : RuleRegistry.buildFromPack pack = .ok registry

/-- The rule of the entry is registered under the entry's own parameters, and what it finds is reported. -/
def RuleRegistry.Enforces (registry : RuleRegistry) (e : RuleEntry) : Prop :=
  ∃ rule ∈ registry.rules, e.built = some rule ∧
    (takesParams e.kind → rule.params = some (.fromEntry e)) ∧
    ∀ ctx now, rule.runsIn ctx = true → rule.report ctx now ∈ registry.evaluate ctx now

theorem enforces_iff {rule : Rule} (hbuilt : e.built = some rule) :
    registry.Enforces e ↔ rule ∈ registry.rules := by
  constructor
  · rintro ⟨rule', hmem, hbuilt', -⟩
    rwa [Option.some.inj (hbuilt.symm.trans hbuilt')]
  · intro hmem
    refine ⟨rule, hmem, hbuilt, fun hkind => ?_, fun ctx now hruns => ?_⟩
    · obtain ⟨factory, hfactory, rfl⟩ := Option.map_eq_some_iff.mp hbuilt
      exact (isFactory hfactory).params_eq hkind _
    · exact RuleRegistry.mem_evaluate.mpr ⟨rule, hmem, hruns, rfl⟩

/-- The identifiers of entries are told apart, but rules are registered by their kinds: of two enabled
entries of a kind only the later is enforced. -/
theorem entries_enforced_iff (h : pack.Deploys registry) :
    (∀ e ∈ pack.rules, e.enabled = true → registry.Enforces e) ↔
      ∀ e ∈ pack.rules, ∀ e' ∈ pack.rules, e.enabled = true → e'.enabled = true → e.kind = e'.kind →
        takesParams e.kind → RuleParams.fromEntry e = .fromEntry e' := by
  obtain ⟨hsome, rfl⟩ := buildFromPack_ok.mp h.build_eq
  have hmem {rule : Rule} :
      rule ∈ pack.builtRules ↔ ∃ e ∈ pack.rules, e.enabled = true ∧ e.built = some rule := by
    simp [PackWithRules.builtRules, List.mem_filterMap, and_assoc]
  constructor
  · intro hall e he e' he' henabled henabled' hkind
    obtain ⟨rule, hbuilt⟩ := Option.isSome_iff_exists.mp (hsome e he henabled)
    obtain ⟨rule', hbuilt'⟩ := Option.isSome_iff_exists.mp (hsome e' he' henabled')
    have hlast := RuleRegistry.mem_registerAll.mp ((enforces_iff hbuilt).mp (hall e he henabled))
    have hlast' := RuleRegistry.mem_registerAll.mp ((enforces_iff hbuilt').mp (hall e' he' henabled'))
    have hid := (RuleEntry.id_eq_iff_of_built hbuilt hbuilt').mpr hkind
    exact (RuleEntry.eq_iff_of_built hbuilt hbuilt' hkind).mp (hlast.eq hlast' hid)
  · intro hparams e he henabled
    obtain ⟨rule, hbuilt⟩ := Option.isSome_iff_exists.mp (hsome e he henabled)
    rw [enforces_iff hbuilt, RuleRegistry.mem_registerAll]
    -- the rule that took the place of this one is the same rule
    obtain ⟨rule', hlast, hid⟩ := exists_lastOfKey Rule.id
      (List.mem_map_of_mem (hmem.mpr ⟨e, he, henabled, hbuilt⟩))
    obtain ⟨e', he', henabled', hbuilt'⟩ := hmem.mp hlast.mem
    have hkind := (RuleEntry.id_eq_iff_of_built hbuilt hbuilt').mp hid.symm
    have heq := (RuleEntry.eq_iff_of_built hbuilt hbuilt' hkind).mpr
      (hparams e he e' he' henabled henabled' hkind)
    rwa [heq]

def drawdownPack (entries : List RuleEntry) : PackWithRules :=
  { id := "drawdown", version := 1, contentHash := "", rules := entries }

theorem entries_enforced_alone :
    ∃ registry, (drawdownPack [.new "loss" "max_drawdown" (5 / 100)]).Deploys registry ∧
      registry.Enforces (.new "loss" "max_drawdown" (5 / 100)) := by
  let pack := drawdownPack [.new "loss" "max_drawdown" (5 / 100)]
  have hdeploys : pack.Deploys (.registerAll .empty pack.builtRules) := ⟨rfl, rfl⟩
  refine ⟨_, hdeploys, (entries_enforced_iff hdeploys).mpr ?_ _ (List.mem_singleton.mpr rfl) rfl⟩
  intro e he e' he' _ _ _ _
  rw [List.mem_singleton.mp he, List.mem_singleton.mp he']

/-- The later of the two limits is the looser: a drawdown past the tighter one is not reported. -/
theorem entries_enforced_partly :
    ∃ registry,
      (drawdownPack [.new "tight" "max_drawdown" (5 / 100),
        .new "loose" "max_drawdown" (10 / 100)]).Deploys registry ∧
      ¬registry.Enforces (.new "tight" "max_drawdown" (5 / 100)) ∧
      (maxDrawdownRule (some (.fromEntry (.new "tight" "max_drawdown" (5 / 100))))).Liquidates
        (dayContext (.default ⟨1⟩ 0) 10000 9300) ∧
      reported (registry.evaluate (dayContext (.default ⟨1⟩ 0) 10000 9300) 0) .liquidate = false := by
  refine ⟨_, ⟨rfl, rfl⟩, fun henforces => ?_, ?_, by decide +kernel⟩
  · rw [enforces_iff rfl] at henforces
    have hparams := congrArg Rule.params (List.mem_singleton.mp henforces)
    have hvalue := congrArg RuleParams.value (Option.some.inj hparams)
    exact absurd hvalue (by decide +kernel)
  · unfold StdRule.Liquidates
    decide +kernel

/-! ## Priorities and tolerances -/

/-- The rule finds its limit exceeded. A loss on estimated equity is found with a warning. -/
def Rule.FindsExcess (rule : Rule) (ctx : RuleContext) : Prop :=
  ∃ kind, (kind = .liquidate ∨ kind = .warn) ∧ (rule.evaluate ctx).map Verdict.decisionKind = .ok kind

inductive MoneyRule where
  | daily
  | total
  | trailing
  | target
  | trade
deriving DecidableEq

def RuleEntry.tolerance (e : RuleEntry) : Money := toleranceMoney (e.toleranceCents.getD 1)

namespace MoneyRule

variable {params : Option RuleParams} {m : MoneyRule}

def kind : MoneyRule → String
  | .daily => "daily_drawdown"
  | .total => "max_drawdown"
  | .trailing => "trailing_drawdown"
  | .target => "profit_target"
  | .trade => "per_trade_max_loss"

def rule : MoneyRule → Option RuleParams → StdRule
  | .daily => dailyDrawdownRule
  | .total => maxDrawdownRule
  | .trailing => trailingDrawdownRule
  | .target => profitTargetRule
  | .trade => perTradeMaxLossRule

/-- By how much the limit of a drawdown or loss rule is exceeded. -/
def excess (m : MoneyRule) (params : Option RuleParams) (ctx : RuleContext) : Option Money :=
  match m with
  | .daily =>
      (DailyDrawdownRule.referenceAndLoss ctx.account).map fun x =>
        x.2 - DailyDrawdownRule.effectiveLimit params ctx x.1
  | .total =>
      ctx.equityInput.brokerEquity.map fun equity =>
        MaxDrawdownRule.effectiveFloor params ctx - ctx.account.measured equity
  | .trailing =>
      ctx.equityInput.brokerEquity.bind fun equity =>
        (TrailingDrawdownRule.effectiveTrailMoney params ctx).map fun trail =>
          ctx.account.peakEquity - trail - equity
  | .target => none
  | .trade =>
      (ctx.latestTrade.bind PerTradeMaxLossRule.exitLoss).bind fun loss =>
        (PerTradeMaxLossRule.effectiveLimitMoney params ctx).map fun limit => loss - limit

theorem factory_eq (m : MoneyRule) : defaultFactoryForKind m.kind = some m.rule := by
  cases m <;> rfl

section Excess

variable {kind : DecisionKind} (hkind : kind = .liquidate ∨ kind = .warn)

include hkind

theorem daily_excess (h : ((dailyDrawdownRule params).evaluate ctx).map Verdict.decisionKind = .ok kind) :
    ∃ x ∈ excess .daily params ctx, toleranceMoney ((params.bind RuleParams.toleranceCents).getD 1) < x := by
  obtain ⟨hpct, equity, hreports⟩ :=
    DailyDrawdownRule.reports_of_kind h (by rcases hkind with rfl | rfl <;> simp)
  cases href : DailyDrawdownRule.referenceAndLoss ctx.account with
  | none =>
      rw [DailyDrawdownRule.evaluate_kind_none hreports hpct href] at h
      cases h
      simp at hkind
  | some x =>
      rw [DailyDrawdownRule.evaluate_kind hreports hpct href] at h
      split at h
      · rename_i hbreach
        exact ⟨_, by simp [excess, href], lt_sub_iff_add_lt'.mpr hbreach⟩
      · split at h
        · split at h
          · cases h
          · cases h
            simp at hkind
        · cases h
          simp at hkind

theorem total_excess (h : ((maxDrawdownRule params).evaluate ctx).map Verdict.decisionKind = .ok kind) :
    ∃ x ∈ excess .total params ctx, toleranceMoney ((params.bind RuleParams.toleranceCents).getD 1) < x := by
  obtain ⟨hpct, equity, hreports⟩ :=
    MaxDrawdownRule.reports_of_kind h (by rcases hkind with rfl | rfl <;> simp)
  rw [MaxDrawdownRule.evaluate_kind hreports hpct, Except.ok.injEq] at h
  rcases hkind with rfl | rfl
  · have hbreach := limitKind_eq_liquidate.mp h
    exact ⟨_, by simp [excess, hreports.equityInput_eq], lt_sub_comm.mp hbreach⟩
  · exact absurd h limitKind_ne_warn

theorem trailing_excess
    (h : ((trailingDrawdownRule params).evaluate ctx).map Verdict.decisionKind = .ok kind) :
    ∃ x ∈ excess .trailing params ctx, 0 < x := by
  obtain ⟨trail, equity, htrail, hreports⟩ :=
    TrailingDrawdownRule.reports_of_kind h (by rcases hkind with rfl | rfl <;> simp)
  rw [TrailingDrawdownRule.evaluate_kind hreports htrail, Except.ok.injEq] at h
  rcases hkind with rfl | rfl
  · have hbreach := limitKind_eq_liquidate.mp h
    exact ⟨_, by simp [excess, hreports.equityInput_eq, htrail], sub_pos.mpr hbreach⟩
  · exact absurd h limitKind_ne_warn

theorem trade_excess (h : ((perTradeMaxLossRule params).evaluate ctx).map Verdict.decisionKind = .ok kind) :
    ∃ x ∈ excess .trade params ctx, toleranceMoney ((params.bind RuleParams.toleranceCents).getD 1) < x := by
  obtain ⟨loss, maxLoss, hloss, hlimit, hbreach⟩ := PerTradeMaxLossRule.exceeded_of_kind h hkind
  exact ⟨_, by simp [excess, hloss, hlimit], lt_sub_iff_add_lt'.mpr hbreach⟩

end Excess

theorem excess_of_findsExcess (hm : m ≠ .target ∧ m ≠ .trailing)
    (h : (m.rule params).toRule.FindsExcess ctx) :
    ∃ x ∈ m.excess params ctx, toleranceMoney ((params.bind RuleParams.toleranceCents).getD 1) < x := by
  obtain ⟨kind, hkind, h⟩ := h
  cases m with
  | daily => exact daily_excess hkind h
  | total => exact total_excess hkind h
  | trade => exact trade_excess hkind h
  | target => exact absurd rfl hm.1
  | trailing => exact absurd rfl hm.2

/-- With a tolerance, a trailing drawdown just past the limit is within it and found all the same. -/
theorem trailing_breaches_within (he : e.enabled = true) (htolerance : 0 < e.tolerance) :
    ∃ ctx, (trailingDrawdownRule (some (.fromEntry e))).Liquidates ctx ∧
      excess .trailing (some (.fromEntry e)) ctx = some e.tolerance := by
  -- the trail does not depend on the equity that is reported
  obtain ⟨trail, htrail⟩ : ∃ trail, ∀ equity,
      TrailingDrawdownRule.effectiveTrailMoney (some (.fromEntry e))
        (dayContext (.default ⟨1⟩ 0) 10000 equity) = some trail := by
    simp only [TrailingDrawdownRule.effectiveTrailMoney, RuleParams.fromEntry, he, if_true]
    split
    · exact ⟨e.value, fun _ => rfl⟩
    · exact ⟨e.value * (ChallengePlan.default ⟨1⟩ 0).initialBalance, fun _ => rfl⟩
  refine ⟨dayContext (.default ⟨1⟩ 0) 10000
    ((ChallengePlan.default ⟨1⟩ 0).initialBalance - trail - e.tolerance), ?_, ?_⟩
  · rw [TrailingDrawdownRule.liquidates_iff (.of_input rfl rfl) (htrail _)]
    exact sub_lt_self _ htolerance
  · simp only [excess, htrail]
    exact congrArg some (sub_sub_cancel _ _)

end MoneyRule

open MoneyRule in
/-- The profit target has a priority of its own, and the trailing drawdown neither priority nor tolerance. -/
theorem pack_settings_effective_iff {m : MoneyRule} {rule : Rule} (he : e.enabled = true)
    (hkind : e.kind = m.kind) (hbuilt : e.built = some rule) :
    ((∀ ctx now, (rule.report ctx now).priority = e.priority) ∧
        (m ≠ .target → ∀ ctx, rule.FindsExcess ctx →
          ∃ x ∈ m.excess (some (.fromEntry e)) ctx, e.tolerance < x)) ↔
      (m = .target → e.priority = 100) ∧ (m = .trailing → e.priority = 100 ∧ e.tolerance ≤ 0) := by
  have hrule : (m.rule (some (.fromEntry e))).toRule = rule := by
    rw [RuleEntry.built, hkind, m.factory_eq] at hbuilt
    exact Option.some.inj hbuilt
  subst hrule
  cases m with
  | daily | total | trade =>
      exact iff_of_true ⟨fun _ _ => rfl, fun _ ctx h => excess_of_findsExcess (by decide) h⟩
        ⟨by simp, by simp⟩
  | target =>
      constructor
      · rintro ⟨hpriority, -⟩
        exact ⟨fun _ => (hpriority (dayContext (.default ⟨1⟩ 0) 0 0) 0).symm, by simp⟩
      · rintro ⟨hpriority, -⟩
        exact ⟨fun _ _ => (hpriority rfl).symm, fun h => absurd rfl h⟩
  | trailing =>
      constructor
      · rintro ⟨hpriority, hbreaches⟩
        refine ⟨by simp, fun _ => ⟨(hpriority (dayContext (.default ⟨1⟩ 0) 0 0) 0).symm, ?_⟩⟩
        by_contra htolerance
        obtain ⟨ctx, hliquidates, hexcess⟩ := trailing_breaches_within he (not_le.mp htolerance)
        obtain ⟨x, hx, hlt⟩ := hbreaches (by decide) ctx ⟨_, .inl rfl, hliquidates⟩
        rw [hexcess] at hx
        exact lt_irrefl _ (Option.some.inj hx ▸ hlt)
      · rintro ⟨-, h⟩
        obtain ⟨hpriority, htolerance⟩ := h rfl
        refine ⟨fun _ _ => hpriority.symm, fun _ ctx h => ?_⟩
        obtain ⟨kind, hkind, h⟩ := h
        obtain ⟨x, hx, hpos⟩ := trailing_excess hkind h
        exact ⟨x, hx, htolerance.trans_lt hpos⟩

def trailingEntry (priority : ℕ) (toleranceCents : ℤ) : RuleEntry :=
  { RuleEntry.new "trail" "trailing_drawdown" (5 / 100) with priority, toleranceCents := some toleranceCents }

theorem pack_settings_effective_default :
    (∀ ctx now, ((trailingDrawdownRule (some (.fromEntry (trailingEntry 100 0)))).toRule.report ctx
        now).priority = 100) ∧
      ∀ ctx, (trailingDrawdownRule (some (.fromEntry (trailingEntry 100 0)))).toRule.FindsExcess ctx →
        ∃ x ∈ MoneyRule.excess .trailing (some (.fromEntry (trailingEntry 100 0))) ctx,
          (trailingEntry 100 0).tolerance < x := by
  have hiff := pack_settings_effective_iff (e := trailingEntry 100 0) (m := .trailing) rfl rfl rfl
  obtain ⟨hpriority, hbreaches⟩ := hiff.mpr ⟨fun _ => rfl, fun _ => ⟨rfl, by decide +kernel⟩⟩
  exact ⟨hpriority, hbreaches (by decide)⟩

/-- Half a unit past the limit, with a tolerance of one. -/
theorem pack_settings_ignored :
    ((trailingDrawdownRule (some (.fromEntry (trailingEntry 950 100)))).toRule.report
        (dayContext (.default ⟨1⟩ 0) 10000 (9500 - 1 / 2)) 0).priority = 100 ∧
      (trailingDrawdownRule (some (.fromEntry (trailingEntry 950 100)))).toRule.FindsExcess
        (dayContext (.default ⟨1⟩ 0) 10000 (9500 - 1 / 2)) ∧
      (trailingEntry 950 100).tolerance = 1 ∧
      MoneyRule.excess .trailing (some (.fromEntry (trailingEntry 950 100)))
        (dayContext (.default ⟨1⟩ 0) 10000 (9500 - 1 / 2)) = some (1 / 2) ∧
      ((profitTargetRule (some (.fromEntry { RuleEntry.new "goal" "profit_target" (1 / 10) with
        priority := 500 }))).toRule.report (dayContext (.default ⟨1⟩ 0) 10000 10000) 0).priority = 100 := by
  exact ⟨rfl, ⟨.liquidate, .inl rfl, by decide +kernel⟩, by decide +kernel, by decide +kernel, rfl⟩

end Propfirm
