import Propfirm.Lemmas.Hashing
import Propfirm.RegistryCache
import Propfirm.Rules.Lemmas.Registry

/-!
# When a cached registry stands for a plan
-/

namespace Propfirm

def RuleReport.content (r : RuleReport) : RuleId × RuleVerdict × ℕ := (r.ruleId, r.verdict, r.priority)

/-- On every context of an account bound to the plan, the registry reports what the registry built
from the plan would. -/
def RuleRegistry.ReportsAs (r : RuleRegistry) (plan : ChallengePlan) : Prop :=
  ∀ (ctx : RuleContext) (now now' : Timestamp), ctx.account.plan = plan →
    (r.evaluate ctx now).map RuleReport.content =
      ((RuleRegistry.withDefaultRulesForPlan plan).evaluate ctx now').map RuleReport.content

/-- Of the rules that a cache key does not tell apart, `q` registers all that `p` does. -/
structure ChallengePlan.Covers (q p : ChallengePlan) : Prop where
  minProfitableDays : p.minProfitableDays.isSome → q.minProfitableDays.isSome
  crossAccountHedging : p.crossAccountHedgingProhibited → q.crossAccountHedgingProhibited
  lowcapExposure : p.lowcapExposureLimitPct.isSome → q.lowcapExposureLimitPct.isSome

variable {p q : ChallengePlan}

/-! ## Registries of plans with one cache key -/

theorem ChallengePlan.coreFields_of_cacheFields (h : p.cacheFields = q.cacheFields) :
    p.coreFields = q.coreFields :=
  (List.append_inj h rfl).1

/-- Outside the three rules the cache fields decide what a plan drops. -/
theorem ChallengePlan.Covers.drops (hc : q.Covers p) (h : p.cacheFields = q.cacheFields)
    {name : RuleName} (hp : p.drops name = false) : q.drops name = false := by
  rw [eq_withUnhashed (coreFields_of_cacheFields h)] at hp
  cases name
  case minProfitableDays =>
    exact Option.isNone_eq_false_iff.mpr (hc.minProfitableDays (Option.isNone_eq_false_iff.mp hp))
  case crossAccountHedging => exact congrArg not (hc.crossAccountHedging (Bool.not_inj hp))
  case lowcapExposure =>
    exact Option.isNone_eq_false_iff.mpr (hc.lowcapExposure (Option.isNone_eq_false_iff.mp hp))
  all_goals exact hp

def ChallengePlan.freshContext (plan : ChallengePlan) : RuleContext :=
  .new (.new ⟨0⟩ ⟨0⟩ plan) 0 (fun _ => ⟨0⟩) 0

/-- A rule that is enabled in the fresh context of `p` must be registered for `q`. -/
theorem not_drops_of_reportsAs (h : (RuleRegistry.withDefaultRulesForPlan q).ReportsAs p)
    {r : StdRule} (hr : r ∈ defaultRules) (henabled : r.isEnabled p.freshContext = true) :
    q.drops r.id = false := by
  have hruns : r.toRule.runsIn p.freshContext = true := Bool.and_eq_true_iff.mpr ⟨henabled, rfl⟩
  have hkept : p.drops r.id = false := not_drops_of_isEnabled hr henabled
  have hmem : r ∈ defaultRules.filter (p.runs p.freshContext) :=
    List.mem_filter.mpr ⟨hr, by simp [ChallengePlan.runs, hruns, hkept]⟩
  have hreport : (r.toRule.report p.freshContext 0).content ∈
      ((RuleRegistry.withDefaultRulesForPlan q).evaluate p.freshContext 0).map RuleReport.content := by
    rw [h p.freshContext 0 0 rfl, withDefaultRulesForPlan_evaluate]
    exact List.mem_map_of_mem (List.mem_map_of_mem hmem)
  rw [withDefaultRulesForPlan_evaluate, List.map_map] at hreport
  obtain ⟨r', hr', hcontent⟩ := List.mem_map.mp hreport
  obtain ⟨hr', hruns'⟩ := List.mem_filter.mp hr'
  have hid : r'.id = r.id := RuleId.named.inj (congrArg Prod.fst hcontent)
  simpa [hid] using (Bool.and_eq_true_iff.mp hruns').1

theorem reportsAs_iff (h : p.cacheFields = q.cacheFields) :
    (RuleRegistry.withDefaultRulesForPlan q).ReportsAs p ↔ q.Covers p := by
  constructor
  · intro hrep
    refine ⟨fun hp => ?_, fun hp => ?_, fun hp => ?_⟩
    · have hr : minProfitableDaysRule none ∈ defaultRules := by simp [defaultRules]
      exact Option.isNone_eq_false_iff.mp (not_drops_of_reportsAs hrep hr hp)
    · have hr : crossAccountHedgingRule none ∈ defaultRules := by simp [defaultRules]
      exact Bool.not_inj (not_drops_of_reportsAs hrep hr hp)
    · have hr : lowcapExposureRule none ∈ defaultRules := by simp [defaultRules]
      exact Option.isNone_eq_false_iff.mp (not_drops_of_reportsAs hrep hr hp)
  · rintro hc ctx now now' rfl
    simp only [withDefaultRulesForPlan_evaluate, List.map_map]
    have hfilter : defaultRules.filter (q.runs ctx) =
        defaultRules.filter (ctx.account.plan.runs ctx) := by
      refine List.filter_congr fun r hr => ?_
      have hp : r.isEnabled ctx = true → ctx.account.plan.drops r.id = false := not_drops_of_isEnabled hr
      rw [ChallengePlan.runs_eq hp, ChallengePlan.runs_eq fun henabled => hc.drops h (hp henabled)]
    rw [hfilter]
    rfl

/-! ## The cache -/

def firstAlike (plans : List ChallengePlan) (p : ChallengePlan) : Option ChallengePlan :=
  plans.find? fun q => q.cacheFields = p.cacheFields

variable {hash : List FieldValue → UInt64}

/-- The hasher tells the hashed fields of these plans apart. -/
def CollisionFree (hash : List FieldValue → UInt64) (plans : List ChallengePlan) : Prop :=
  ∀ p ∈ plans, ∀ q ∈ plans, p.planCacheKey hash = q.planCacheKey hash → p.cacheFields = q.cacheFields

theorem CollisionFree.first_eq {plans : List ChallengePlan} (h : CollisionFree hash plans)
    (hp : p ∈ plans) :
    Memo.first (ChallengePlan.planCacheKey hash) (p.planCacheKey hash) plans = firstAlike plans p := by
  have hfilter : (plans.filter fun q => q.planCacheKey hash = p.planCacheKey hash) =
      plans.filter fun q => q.cacheFields = p.cacheFields :=
    List.filter_congr fun q hq => decide_eq_decide.mpr ⟨h q hq p hp, congrArg hash⟩
  rw [Memo.first, firstAlike, ← List.head?_filter, ← List.head?_filter, hfilter]

theorem firstAlike_cacheFields {plans : List ChallengePlan} (h : firstAlike plans p = some q) :
    q.cacheFields = p.cacheFields := by
  simpa using List.find?_some h

/-- After any sequence of calls, a plan gets the registry of the first plan with its hashed fields. -/
theorem getOrBuild_eq {history : List ChallengePlan} {plan : ChallengePlan}
    (hfree : CollisionFree hash (history ++ [plan])) :
    ∃ q, firstAlike (history ++ [plan]) plan = some q ∧
      (RegistryCache.getOrBuild hash (.after hash history) plan).1 = .withDefaultRulesForPlan q := by
  obtain ⟨q, hq, hget⟩ := Memo.get_eq (Memo.after_holds (ChallengePlan.planCacheKey hash)
    RuleRegistry.withDefaultRulesForPlan history) plan
  exact ⟨q, (hfree.first_eq (by simp)).symm.trans hq, hget⟩

/-- A cached registry is transparent exactly when the first plan of the sequence with the same hashed
fields registers the three rules whose fields are not hashed. -/
theorem cached_registry_transparent_iff (hash : List FieldValue → UInt64)
    (history : List ChallengePlan) (plan : ChallengePlan)
    (hfree : CollisionFree hash (history ++ [plan])) :
    (RegistryCache.getOrBuild hash (.after hash history) plan).1.ReportsAs plan ↔
      ∃ q, firstAlike (history ++ [plan]) plan = some q ∧ q.Covers plan := by
  obtain ⟨q, hq, hget⟩ := getOrBuild_eq hfree
  rw [hget, reportsAs_iff (firstAlike_cacheFields hq).symm]
  constructor
  · exact fun hc => ⟨q, hq, hc⟩
  · rintro ⟨q', hq', hc⟩
    obtain rfl := Option.some.inj (hq'.symm.trans hq)
    exact hc

def standardPlan : ChallengePlan := .default ⟨1⟩ 0
def profitableDaysPlan : ChallengePlan := { standardPlan with minProfitableDays := some 4 }

theorem profitableDaysPlan_cacheFields : profitableDaysPlan.cacheFields = standardPlan.cacheFields := rfl

theorem cached_registry_transparent_extended :
    ∃ hash : List FieldValue → UInt64,
      (RegistryCache.getOrBuild hash (.after hash [profitableDaysPlan]) standardPlan).1.ReportsAs
        standardPlan := by
  refine ⟨fun _ => 0, (cached_registry_transparent_iff _ _ _ ?_).mpr ⟨profitableDaysPlan, ?_, ?_⟩⟩
  · intro p hp q hq _
    have hfields : ∀ p ∈ [profitableDaysPlan] ++ [standardPlan],
        p.cacheFields = standardPlan.cacheFields := by simp [profitableDaysPlan_cacheFields]
    exact (hfields p hp).trans (hfields q hq).symm
  · exact List.find?_cons_of_pos (decide_eq_true profitableDaysPlan_cacheFields)
  · exact ⟨by decide, by decide, by decide⟩

/-- Once the default plan is cached, the plan with a minimum of profitable days gets a registry
without the rule that checks it. -/
theorem cached_registry_loses_rule :
    .named .minProfitableDays ∈
        ((RuleRegistry.withDefaultRulesForPlan profitableDaysPlan).evaluate
          profitableDaysPlan.freshContext 0).map RuleReport.ruleId ∧
      ∀ hash : List FieldValue → UInt64,
        .named .minProfitableDays ∉
          ((RegistryCache.getOrBuild hash (.after hash [standardPlan]) profitableDaysPlan).1.evaluate
            profitableDaysPlan.freshContext 0).map RuleReport.ruleId := by
  refine ⟨by decide +kernel, fun hash => ?_⟩
  have hget : (RegistryCache.getOrBuild hash (.after hash [standardPlan]) profitableDaysPlan).1 =
      .withDefaultRulesForPlan standardPlan := by
    simp [RegistryCache.getOrBuild, RegistryCache.after, RegistryCache.empty, Memo.get,
      ChallengePlan.planCacheKey, profitableDaysPlan_cacheFields]
  rw [hget]
  decide +kernel

end Propfirm
