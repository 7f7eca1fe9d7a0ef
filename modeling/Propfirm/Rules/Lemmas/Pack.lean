import Propfirm.Lib.Keyed
import Propfirm.Rules.Lemmas.Grades

/-!
# The registries that the engine builds

A registry keeps one rule for each identifier, and a rule that is registered again takes the place of the
one before it. The registry of a pack is made of the rules of its enabled entries, in this way.
-/

namespace Propfirm

open Fallible

variable {registry : RuleRegistry} {rule : Rule} {rules : List Rule} {ctx : RuleContext}

/-! ## Registration -/

namespace RuleRegistry

/-- The registry has the rules of a directory, and finds each by its identifier. -/
structure Lists (registry : RuleRegistry) (d : Directory Rule.id) : Prop where
  rules_eq : registry.rules = d.items
  byId_iff : ∀ id idx, registry.byId id = some idx ↔ (d.items.map Rule.id)[idx]? = some id

variable {d : Directory Rule.id}

theorem empty_lists : empty.Lists .empty := ⟨rfl, fun _ _ => by simp [empty, Directory.empty]⟩

theorem Lists.register (h : registry.Lists d) (rule : Rule) :
    (registry.register rule).Lists (d.enter rule) := by
  cases hid : registry.byId rule.id with
  | some idx =>
      have hidx := (h.byId_iff _ _).mp hid
      have hmem : rule.id ∈ d.items.map Rule.id := List.mem_of_getElem? hidx
      rw [List.getElem?_map] at hidx
      simp only [RuleRegistry.register, hid]
      refine ⟨?_, fun id i => ?_⟩
      · rw [Directory.items_enter_of_mem hmem, ← Directory.set_eq_replace d hidx, h.rules_eq]
      · rw [Directory.items_enter_of_mem hmem, Directory.map_replace]
        exact h.byId_iff id i
  | none =>
      have hnot : rule.id ∉ d.items.map Rule.id := by
        intro hmem
        obtain ⟨idx, hidx⟩ := List.mem_iff_getElem?.mp hmem
        rw [(h.byId_iff _ _).mpr hidx] at hid
        cases hid
      rw [register_fresh hid]
      refine ⟨by rw [Directory.items_enter_of_not_mem hnot, h.rules_eq], fun id idx => ?_⟩
      rw [Directory.getElem?_enter_of_not_mem hnot, h.rules_eq]
      dsimp only
      by_cases heq : id = rule.id
      · rw [heq, Function.update_self, if_pos rfl, Option.some_inj, eq_comm]
      · rw [Function.update_of_ne heq, if_neg heq]
        exact h.byId_iff id idx

theorem Lists.registerAll (h : registry.Lists d) (rules : List Rule) :
    (registry.registerAll rules).Lists (rules.foldl .enter d) := by
  induction rules generalizing registry d with
  | nil => exact h
  | cons rule rules ih => exact ih (h.register rule)

/-- Of several rules with one identifier the last is registered. -/
theorem mem_registerAll : rule ∈ (empty.registerAll rules).rules ↔ LastOfKey Rule.id rules rule := by
  rw [(empty_lists.registerAll rules).rules_eq]
  exact Directory.mem_foldl_enter_empty

end RuleRegistry

/-! ## Entries -/

/-- The rule that the factory of its kind makes of an entry. -/
def RuleEntry.built (e : RuleEntry) : Option Rule :=
  (defaultFactoryForKind e.kind).map fun factory => (factory (some (.fromEntry e))).toRule

def PackWithRules.builtRules (pack : PackWithRules) : List Rule :=
  (pack.rules.filter RuleEntry.enabled).filterMap RuleEntry.built

theorem addEntry_ok {packId : String} {e : RuleEntry} {registry' : RuleRegistry} :
    RuleRegistry.addEntry packId registry e = .ok registry' ↔
      if e.enabled then ∃ rule, e.built = some rule ∧ registry.register rule = registry'
      else registry = registry' := by
  unfold RuleRegistry.addEntry RuleEntry.built
  cases e.enabled with
  | false => simp
  | true =>
      cases defaultFactoryForKind e.kind with
      | none => simp [raise]
      | some factory => simp

theorem foldlM_addEntry_ok {packId : String} {entries : List RuleEntry} {built : RuleRegistry} :
    entries.foldlM (RuleRegistry.addEntry packId) registry = .ok built ↔
      (∀ e ∈ entries, e.enabled = true → e.built.isSome) ∧
        registry.registerAll ((entries.filter RuleEntry.enabled).filterMap RuleEntry.built) = built := by
  induction entries generalizing registry with
  | nil => simp [RuleRegistry.registerAll, pure, Except.pure]
  | cons e entries ih =>
      simp only [List.foldlM_cons, bind_eq_ok, addEntry_ok, ih]
      cases henabled : e.enabled with
      | false => simp [henabled]
      | true =>
          cases hrule : e.built with
          | none => simp [henabled, hrule]
          | some rule => simp [henabled, hrule, RuleRegistry.registerAll]

/-- A pack is built if every enabled entry is of a known kind, and the later of two entries of a kind takes
the place of the earlier. -/
theorem buildFromPack_ok {pack : PackWithRules} :
    RuleRegistry.buildFromPack pack = .ok registry ↔
      (∀ e ∈ pack.rules, e.enabled = true → e.built.isSome) ∧
        RuleRegistry.empty.registerAll pack.builtRules = registry :=
  foldlM_addEntry_ok

/-! ## Kinds -/

/-- The kind that names a rule in a pack. -/
def RuleName.packKind : RuleName → Option String
  | .dailyDrawdown => some "daily_drawdown"
  | .maxDrawdown => some "max_drawdown"
  | .trailingDrawdown => some "trailing_drawdown"
  | .profitTarget => some "profit_target"
  | .minTradingDays => some "min_trading_days"
  | .consistency => some "consistency"
  | .newsTrading => some "news_trading"
  | .overnightHolding => some "overnight_holding"
  | .weekendHolding => some "weekend_holding"
  | .maxPositionSize => some "max_position_size"
  | .maxOpenPositions => some "max_open_positions"
  | .maxDailyTrades => some "max_daily_trades"
  | .timeLimit => some "time_limit"
  | .cooldown => some "cooldown"
  | .hedging => some "hedging"
  | .gridTrading => some "grid_trading"
  | .copyTrading => some "copy_trading"
  | .slRequired => some "sl_required"
  | .tpRequired => some "tp_required"
  | .hftScalping => some "hft_scalping"
  | .perTradeMaxLoss => some "per_trade_max_loss"
  | .inactivity => some "inactivity"
  | .maxTotalLots => some "max_total_lots"
  | .tradingHours => some "trading_hours"
  | .margin => some "margin"
  | .minProfitableDays | .crossAccountHedging | .lowcapExposure => none

/-- All but two kinds read the parameters of their entries. -/
def takesParams (kind : String) : Prop := kind ≠ "trading_hours" ∧ kind ≠ "margin"

instance (kind : String) : Decidable (takesParams kind) := inferInstanceAs (Decidable (_ ∧ _))

/-- What the factory of a kind makes of the parameters it is given. -/
structure IsFactory (kind : String) (factory : Option RuleParams → StdRule) : Prop where
  mem_libraryRules : ∀ params, factory params ∈ libraryRules params
  packKind : ∀ params, (factory params).id.packKind = some kind
  id_eq : ∀ params params', (factory params).id = (factory params').id
  params_eq : takesParams kind → ∀ params, (factory params).params = params
  congr : ¬takesParams kind → ∀ params params', factory params = factory params'

theorem isFactory {kind : String} {factory : Option RuleParams → StdRule}
    (h : defaultFactoryForKind kind = some factory) : IsFactory kind factory := by
  unfold defaultFactoryForKind at h
  split at h
  case h_24 | h_25 =>
    cases h
    refine ⟨fun _ => by simp [libraryRules], fun _ => rfl, fun _ _ => rfl, fun hkind => ?_, fun _ _ _ => rfl⟩
    exact absurd hkind (by decide)
  all_goals cases h
  all_goals
    refine ⟨fun _ => by simp [libraryRules], fun _ => rfl, fun _ _ => rfl, fun _ _ => rfl, fun hkind => ?_⟩
    exact absurd (by decide) hkind

theorem RuleEntry.id_eq_iff_of_built {e e' : RuleEntry} {rule' : Rule} (h : e.built = some rule)
    (h' : e'.built = some rule') : rule.id = rule'.id ↔ e.kind = e'.kind := by
  obtain ⟨factory, hfactory, rfl⟩ := Option.map_eq_some_iff.mp h
  obtain ⟨factory', hfactory', rfl⟩ := Option.map_eq_some_iff.mp h'
  constructor
  · intro hid
    have hkind := congrArg RuleName.packKind (RuleId.named.inj hid)
    rw [(isFactory hfactory).packKind, (isFactory hfactory').packKind] at hkind
    exact Option.some.inj hkind
  · intro hkind
    rw [← hkind] at hfactory'
    obtain rfl := Option.some.inj (hfactory.symm.trans hfactory')
    exact congrArg RuleId.named ((isFactory hfactory).id_eq _ _)

/-- Entries of a kind build one rule exactly if their parameters agree. -/
theorem RuleEntry.eq_iff_of_built {e e' : RuleEntry} {rule' : Rule} (h : e.built = some rule)
    (h' : e'.built = some rule') (hkind : e.kind = e'.kind) :
    rule = rule' ↔ (takesParams e.kind → RuleParams.fromEntry e = .fromEntry e') := by
  obtain ⟨factory, hfactory, rfl⟩ := Option.map_eq_some_iff.mp h
  obtain ⟨factory', hfactory', rfl⟩ := Option.map_eq_some_iff.mp h'
  rw [← hkind] at hfactory'
  obtain rfl := Option.some.inj (hfactory.symm.trans hfactory')
  constructor
  · intro heq hparams
    have heq : (factory (some (.fromEntry e))).params = (factory (some (.fromEntry e'))).params :=
      congrArg Rule.params heq
    rw [(isFactory hfactory).params_eq hparams, (isFactory hfactory).params_eq hparams] at heq
    exact Option.some.inj heq
  · intro himp
    by_cases hparams : takesParams e.kind
    · rw [himp hparams]
    · rw [(isFactory hfactory).congr hparams]

/-- For a kind with an enabled entry the registry has the rule of such an entry. -/
theorem buildFromPack_rule {pack : PackWithRules} {e : RuleEntry} {factory : Option RuleParams → StdRule}
    (hbuilt : RuleRegistry.buildFromPack pack = .ok registry) (he : e ∈ pack.rules)
    (henabled : e.enabled = true) (hfactory : defaultFactoryForKind e.kind = some factory) :
    ∃ e' ∈ pack.rules, e'.enabled = true ∧ (factory (some (.fromEntry e'))).toRule ∈ registry.rules := by
  obtain ⟨-, rfl⟩ := buildFromPack_ok.mp hbuilt
  have hrule : e.built = some (factory (some (.fromEntry e))).toRule := by
    rw [RuleEntry.built, hfactory]
    rfl
  have hmem : (factory (some (.fromEntry e))).toRule ∈ pack.builtRules :=
    List.mem_filterMap.mpr ⟨e, List.mem_filter.mpr ⟨he, henabled⟩, hrule⟩
  obtain ⟨rule', hlast, hid⟩ := exists_lastOfKey Rule.id (List.mem_map_of_mem hmem)
  obtain ⟨e', he', hrule'⟩ := List.mem_filterMap.mp hlast.mem
  obtain ⟨he', henabled'⟩ := List.mem_filter.mp he'
  -- an entry whose rule has the same identifier is of the same kind
  have hkind := (RuleEntry.id_eq_iff_of_built hrule' hrule).mp hid
  rw [RuleEntry.built, hkind, hfactory] at hrule'
  cases hrule'
  exact ⟨e', he', henabled', RuleRegistry.mem_registerAll.mpr hlast⟩

/-! ## The library -/

/-- A rule of the standard library under some parameters. -/
def Rule.InLibrary (rule : Rule) : Prop := ∃ params, ∃ r ∈ libraryRules params, r.toRule = rule

theorem RuleEntry.inLibrary_of_built {e : RuleEntry} (h : e.built = some rule) : rule.InLibrary := by
  obtain ⟨factory, hfactory, rfl⟩ := Option.map_eq_some_iff.mp h
  exact ⟨_, _, (isFactory hfactory).mem_libraryRules _, rfl⟩

theorem RuleRegistry.IsBuilt.inLibrary (h : registry.IsBuilt) (hrule : rule ∈ registry.rules) :
    rule.InLibrary := by
  rcases h with hdefault | ⟨pack, hpack⟩
  · obtain ⟨r, hr, hrule⟩ := hdefault.exists_std hrule
    exact ⟨none, r, hr, hrule⟩
  · obtain ⟨-, rfl⟩ := buildFromPack_ok.mp hpack
    obtain ⟨e, -, hbuilt⟩ := List.mem_filterMap.mp (mem_registerAll.mp hrule).mem
    exact RuleEntry.inLibrary_of_built hbuilt

/-- Such a registry has no two rules of one identifier. -/
theorem RuleRegistry.IsBuilt.eq_of_id {rule' : Rule} (h : registry.IsBuilt) (hrule : rule ∈ registry.rules)
    (hrule' : rule' ∈ registry.rules) (hid : rule.id = rule'.id) : rule = rule' := by
  rcases h with hdefault | ⟨pack, hpack⟩
  · obtain ⟨r', hr', rfl⟩ := hdefault.exists_std hrule'
    exact hdefault.eq_toRule hr' hrule hid
  · obtain ⟨-, rfl⟩ := buildFromPack_ok.mp hpack
    exact (mem_registerAll.mp hrule).eq (mem_registerAll.mp hrule') hid

theorem RuleRegistry.IsBuilt.reports_iff {r : StdRule} {ctx : RuleContext} {now : Timestamp}
    {k : DecisionKind} (h : registry.IsBuilt) (hmem : r.toRule ∈ registry.rules) :
    registry.Reports ctx now r.id k ↔
      r.toRule.runsIn ctx = true ∧ (r.toRule.verdict ctx).decisionKind = k :=
  RuleRegistry.reports_iff hmem fun _ hrule hid => h.eq_of_id hrule hmem hid

end Propfirm
