import Propfirm.Lib.Edits
import Propfirm.Rules.Lemmas.Pack
import Propfirm.Rules.Theorems.Utilization

/-!
# The index of a registry

Rules are registered and unregistered in any order. The registry then lists what a directory holds after
the same edits, and its index finds each rule at its place.
-/

namespace Propfirm

namespace RuleRegistry

variable {registry : RuleRegistry} {d : Directory Rule.id} {rules : List Rule} {rule : Rule} {id : RuleId}
  {idx : ℕ}

/-! ## Reindexing -/

theorem reindex_concat :
    reindex (rules ++ [rule]) = Function.update (reindex rules) rule.id (some rules.length) := by
  simp [reindex, List.zipIdx_append]

/-- Where identifiers are distinct, no rule takes the place of another in the index. -/
theorem reindex_eq_some (h : (rules.map Rule.id).Nodup) :
    reindex rules id = some idx ↔ (rules.map Rule.id)[idx]? = some id := by
  induction rules using List.reverseRecOn with
  | nil => simp [reindex]
  | append_singleton rules rule ih =>
      have hsplit := h
      rw [List.map_append, List.nodup_append'] at hsplit
      obtain ⟨hnodup, -, hdisjoint⟩ := hsplit
      have hnot : rule.id ∉ rules.map Rule.id := fun hmem => hdisjoint hmem (by simp)
      let d : Directory Rule.id := ⟨rules, hnodup⟩
      have henter : (d.enter rule).items = rules ++ [rule] := Directory.items_enter_of_not_mem hnot
      rw [reindex_concat, ← henter, Directory.getElem?_enter_of_not_mem hnot]
      by_cases heq : id = rule.id
      · rw [heq, Function.update_self, if_pos rfl, Option.some_inj, eq_comm]
      · rw [Function.update_of_ne heq, if_neg heq]
        exact ih hnodup

/-! ## Calls -/

theorem Lists.byId_none_iff (h : registry.Lists d) : registry.byId id = none ↔ id ∉ d.items.map Rule.id := by
  rw [Option.eq_none_iff_forall_ne_some, List.mem_iff_getElem?, not_exists]
  exact forall_congr' fun idx => not_congr (h.byId_iff id idx)

theorem Lists.unregister (h : registry.Lists d) (id : RuleId) :
    (registry.unregister id).Lists (d.remove id) := by
  cases hid : registry.byId id with
  | some idx =>
      have hidx := (h.byId_iff _ _).mp hid
      have herase := Directory.eraseIdx_eq_remove hidx
      simp only [RuleRegistry.unregister, hid, h.rules_eq, herase]
      exact ⟨rfl, fun _ _ => reindex_eq_some (d.remove id).nodup⟩
  | none =>
      simp only [RuleRegistry.unregister, hid, Directory.remove_of_not_mem (h.byId_none_iff.mp hid)]
      exact h

theorem Lists.get_eq_some (h : registry.Lists d) :
    registry.get id = some rule ↔ rule ∈ d.items ∧ rule.id = id := by
  simp only [get, Option.bind_eq_some_iff, h.byId_iff, h.rules_eq, List.getElem?_map]
  constructor
  · rintro ⟨idx, hid, hrule⟩
    rw [hrule] at hid
    exact ⟨List.mem_of_getElem? hrule, Option.some.inj hid⟩
  · rintro ⟨hmem, rfl⟩
    obtain ⟨idx, hrule⟩ := List.mem_iff_getElem?.mp hmem
    exact ⟨idx, by rw [hrule]; rfl, hrule⟩

/-- A call that registers a rule or unregisters an identifier. -/
def edit (registry : RuleRegistry) : Edit Rule RuleId → RuleRegistry
  | .enter rule => registry.register rule
  | .remove id => registry.unregister id

theorem Lists.edit (h : registry.Lists d) (e : Edit Rule RuleId) : (registry.edit e).Lists (d.edit e) := by
  cases e with
  | enter rule => exact h.register rule
  | remove id => exact h.unregister id

theorem Lists.edits (h : registry.Lists d) (edits : List (Edit Rule RuleId)) :
    (edits.foldl RuleRegistry.edit registry).Lists (edits.foldl Directory.edit d) := by
  induction edits generalizing registry d with
  | nil => exact h
  | cons e edits ih => exact ih (h.edit e)

end RuleRegistry

/-- Whatever rules are registered and unregistered, the index finds each rule at its place, under an
identifier is the rule registered last, and the rules stand in the order in which their identifiers came
in. -/
theorem registry_index_consistent (edits : List (Edit Rule RuleId)) :
    let registry := edits.foldl RuleRegistry.edit .empty
    (registry.rules.map Rule.id).Nodup ∧
      (∀ id idx, registry.byId id = some idx ↔ (registry.rules.map Rule.id)[idx]? = some id) ∧
      (∀ id rule, registry.get id = some rule ↔ Held Rule.id edits rule ∧ rule.id = id) ∧
      (∀ id, id ∈ registry.rules.map Rule.id ↔ ∃! n, OpenedAt Rule.id edits id n) ∧
      (registry.rules.map Rule.id).Pairwise fun id id' =>
        ∀ n m, OpenedAt Rule.id edits id n → OpenedAt Rule.id edits id' m → n < m := by
  intro registry
  have hlists : registry.Lists (.edited Rule.id edits) := RuleRegistry.empty_lists.edits edits
  rw [hlists.rules_eq]
  refine ⟨(Directory.edited Rule.id edits).nodup, hlists.byId_iff, fun id rule => ?_, fun id => ?_,
    Directory.edited_pairwise⟩
  · rw [hlists.get_eq_some, Directory.mem_edited]
  · rw [Directory.mem_map_edited, ← exists_openedAt]
    exact ⟨fun ⟨n, hn⟩ => ⟨n, hn, fun m hm => hm.unique hn⟩, fun ⟨n, hn, _⟩ => ⟨n, hn⟩⟩

/-! ## Rules that apply -/

theorem EvaluationScope.appliesTo_eq {scope : EvaluationScope} {kind : RuleContextKind}
    (h : kind ≠ .onDemand) :
    scope.appliesTo kind = (scope == kind.scope || scope == .onDemand) := by
  cases kind with
  | onDemand => exact absurd rfl h
  | _ => rfl

/-- On demand every enabled rule is evaluated, but only those of that scope are said to apply. -/
theorem evaluate_applicable_iff (registry : RuleRegistry) (ctx : RuleContext) (now : Timestamp) :
    registry.evaluate ctx now =
        (((registry.applicable ctx.kind).filter fun rule => rule.isEnabled ctx).map fun rule =>
          rule.report ctx now) ↔
      (ctx.kind = .onDemand →
        ∀ rule ∈ registry.rules, rule.isEnabled ctx = true → rule.scope = .onDemand) := by
  unfold RuleRegistry.evaluate RuleRegistry.applicable Rule.runsIn
  by_cases hkind : ctx.kind = .onDemand
  · -- those that apply are a part of the enabled ones
    have happly : (registry.rules.filter fun rule => rule.scope == .onDemand).filter (Rule.isEnabled · ctx) =
        (registry.rules.filter (Rule.isEnabled · ctx)).filter fun rule => rule.scope == .onDemand := by
      rw [List.filter_filter, List.filter_filter]
      exact List.filter_congr fun rule _ => Bool.and_comm ..
    simp only [hkind, EvaluationScope.appliesTo, RuleContextKind.scope, Bool.and_true, Bool.or_self,
      true_imp_iff, happly]
    constructor
    · intro heq rule hrule henabled
      have hlength := congrArg List.length heq.symm
      rw [List.length_map, List.length_map, List.length_filter_eq_length_iff] at hlength
      exact beq_iff_eq.mp (hlength rule (List.mem_filter.mpr ⟨hrule, henabled⟩))
    · intro hscope
      refine (congrArg _ (List.filter_eq_self.mpr fun rule hrule => ?_)).symm
      obtain ⟨hrule, henabled⟩ := List.mem_filter.mp hrule
      exact beq_iff_eq.mpr (hscope rule hrule henabled)
  · rw [List.filter_filter]
    simp only [EvaluationScope.appliesTo_eq hkind, hkind, false_imp_iff]

theorem evaluate_applicable_on_tick :
    ∃ reports ≠ [],
      RuleRegistry.withDefaultRules.evaluate (dayContext (.default ⟨1⟩ 0) 10000 9000) 0 = reports ∧
        (((RuleRegistry.withDefaultRules.applicable .onTick).filter fun rule =>
          rule.isEnabled (dayContext (.default ⟨1⟩ 0) 10000 9000)).map fun rule =>
            rule.report (dayContext (.default ⟨1⟩ 0) 10000 9000) 0) = reports := by
  have heq := (evaluate_applicable_iff .withDefaultRules (dayContext (.default ⟨1⟩ 0) 10000 9000) 0).mpr
    (fun hkind => by cases hkind)
  exact ⟨_, by decide +kernel, rfl, heq.symm⟩

/-- On demand the default library is evaluated though none of its rules is said to apply. -/
theorem evaluate_beyond_applicable :
    RuleRegistry.withDefaultRules.applicable .onDemand = [] ∧
      reported (RuleRegistry.withDefaultRules.evaluate
        { dayContext (.default ⟨1⟩ 0) 10000 9000 with kind := .onDemand } 0) .liquidate = true := by
  decide +kernel

end Propfirm
