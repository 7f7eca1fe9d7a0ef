import Propfirm.Engine.Decision
import Propfirm.Lib.Select

/-!
# What the reports say about the decision
-/

namespace Propfirm

variable {reports : List RuleReport} {k : DecisionKind}

def reported (reports : List RuleReport) (k : DecisionKind) : Bool :=
  reports.any fun r => r.verdict.decisionKind == k

theorem reported_iff : reported reports k = true ↔ ∃ r ∈ reports, r.verdict.decisionKind = k := by
  simp [reported]

/-- The order in which the classes decide. -/
def precedence : List DecisionKind :=
  [.emergency, .liquidate, .fail, .softFail, .gapFlagged, .targetHit, .earlyWarning, .warn]

/-! ## Classes -/

@[simp] theorem Verdict.decisionKind_map {ν μ : Type} (f : ν → μ) (v : Verdict ν) :
    (v.map f).decisionKind = v.decisionKind := by
  cases v <;> rfl

@[simp] theorem Verdict.violation_map {ν μ : Type} (f : ν → μ) (v : Verdict ν) :
    (v.map f).violation = v.violation.map f := by
  cases v <;> rfl

theorem Verdict.violation_isSome {ν : Type} {v : Verdict ν} :
    v.violation.isSome = true ↔ v.decisionKind ≠ .pass := by
  cases v <;> simp [Verdict.violation, Verdict.decisionKind]

theorem classified_eq_nil (hk : k ≠ .pass) : classified reports k = [] ↔ reported reports k = false := by
  simp only [classified, List.filterMap_eq_nil_iff, reported, List.any_eq_false, beq_iff_eq]
  refine forall₂_congr fun r _ => ?_
  by_cases h : r.verdict.decisionKind = k
  · have hv : r.verdict.violation.isSome = true := Verdict.violation_isSome.mpr (h ▸ hk)
    simp [h, Option.isSome_iff_ne_none.mp hv]
  · simp [h]

theorem classified_pass (reports : List RuleReport) : classified reports .pass = [] := by
  simp only [classified, List.filterMap_eq_nil_iff]
  intro r _
  cases r.verdict <;> simp [Verdict.decisionKind, Verdict.violation]

theorem pickWinner_eq_none {xs : List (ℕ × Violation)} : pickWinner xs = none ↔ xs = [] := by
  cases xs <;> simp [pickWinner]

theorem reported_of_pickWinner_none (hk : k ≠ .pass) (h : pickWinner (classified reports k) = none) :
    reported reports k = false :=
  (classified_eq_nil hk).mp (pickWinner_eq_none.mp h)

theorem reported_of_pickWinner_some (hk : k ≠ .pass) {w : ℕ × Violation}
    (h : pickWinner (classified reports k) = some w) : reported reports k = true := by
  rw [← Bool.not_eq_false, ← classified_eq_nil hk, ← pickWinner_eq_none, h]
  simp

theorem pickWinner_fst (xs : List (ℕ × Violation)) :
    (pickWinner xs).map Prod.fst = (xs.map Prod.fst).max? := by
  cases xs with
  | nil => rfl
  | cons x xs =>
      simp only [pickWinner, Option.map_some, List.map_cons, List.max?_cons']
      exact congrArg some (Select.foldl_later_fst x xs)

/-! ## The decision -/

/-- The first class of the precedence that is reported decides. -/
theorem Decision.fromReports_kind (reports : List RuleReport) :
    (fromReports reports).kind = (precedence.find? (reported reports)).getD .pass := by
  unfold fromReports precedence
  repeat' split
  all_goals simp_all [List.find?, reported_of_pickWinner_none, reported_of_pickWinner_some]

theorem Decision.reported_of_kind (hk : k ≠ .pass) (h : (fromReports reports).kind = k) :
    reported reports k = true := by
  rw [fromReports_kind] at h
  cases hf : precedence.find? (reported reports) with
  | none => rw [hf] at h; exact absurd h.symm hk
  | some k' =>
      rw [hf] at h
      exact (show k' = k from h) ▸ List.find?_some hf

theorem Decision.fromReports_kind_emergency :
    (fromReports reports).kind = .emergency ↔ reported reports .emergency = true := by
  refine ⟨reported_of_kind (by decide), fun h => ?_⟩
  simp [fromReports_kind, precedence, h]

theorem Decision.fromReports_kind_liquidate :
    (fromReports reports).kind = .liquidate ↔
      reported reports .liquidate = true ∧ reported reports .emergency = false := by
  constructor
  · intro h
    refine ⟨reported_of_kind (by decide) h, ?_⟩
    rw [← Bool.not_eq_true, ← fromReports_kind_emergency, h]
    decide
  · rintro ⟨hl, he⟩
    simp [fromReports_kind, precedence, he, hl]

/-- Emergencies stop the account; a breach without one fails it. -/
theorem Decision.fromReports_target (reports : List RuleReport) :
    (fromReports reports).accountStatusTarget =
      if reported reports .emergency then some .emergencyStopped
      else if reported reports .liquidate || reported reports .fail then some .failed
      else none := by
  cases he : reported reports .emergency with
  | true => simp [accountStatusTarget, fromReports_kind, precedence, he]
  | false =>
      cases hl : reported reports .liquidate with
      | true => simp [accountStatusTarget, fromReports_kind, precedence, he, hl]
      | false =>
          cases hf : reported reports .fail with
          | true => simp [accountStatusTarget, fromReports_kind, precedence, he, hl, hf]
          | false =>
              -- the decision is of none of the three classes
              unfold accountStatusTarget
              split
              · exact absurd (reported_of_kind (k := .fail) (by decide) ‹_›) (by simp [hf])
              · exact absurd (reported_of_kind (k := .liquidate) (by decide) ‹_›) (by simp [hl])
              · exact absurd (reported_of_kind (k := .emergency) (by decide) ‹_›) (by simp [he])
              · rfl

theorem Decision.fromReports_allViolations (reports : List RuleReport) :
    (fromReports reports).allViolations = reports.filterMap fun r => r.verdict.violation := by
  unfold fromReports
  repeat' split
  all_goals rfl

/-- The violation that a reason is made of. -/
def DecisionReason.violation : DecisionReason → Option Violation
  | .targetHitReached v | .hardViolation v | .softFailReached v | .liquidationRequested v
  | .emergencyStop v | .gapFlaggedReached v => some v
  | .allRulesPassed | .warnings _ | .earlyWarnings _ => none

/-! ## What the texts of the reports do not change -/

/-- The priority of a report and the class of its verdict, with the rule of its violation. -/
def RuleReport.shape (r : RuleReport) : ℕ × Verdict RuleId := (r.priority, r.verdict.map Violation.ruleId)

/-- The kind of a decision, its priority and the rules that are violated. -/
def Decision.shape (d : Decision) : DecisionKind × ℕ × List RuleId :=
  (d.kind, d.winningPriority, d.allViolations.map Violation.ruleId)

theorem Decision.fromReports_winningPriority (reports : List RuleReport) :
    (fromReports reports).winningPriority =
      ((classified reports (fromReports reports).kind).map Prod.fst).max?.getD 0 := by
  rw [← pickWinner_fst]
  unfold fromReports
  repeat' split
  all_goals simp_all [classified_pass, pickWinner]

theorem reported_shape (reports : List RuleReport) (k : DecisionKind) :
    reported reports k = (reports.map RuleReport.shape).any fun s => s.2.decisionKind == k := by
  simp [reported, List.any_map, Function.comp_def, RuleReport.shape]

theorem classified_shape (reports : List RuleReport) (k : DecisionKind) :
    (classified reports k).map Prod.fst = (reports.map RuleReport.shape).filterMap fun s =>
      if s.2.decisionKind = k then s.2.violation.map fun _ => s.1 else none := by
  simp only [classified, List.map_filterMap, List.filterMap_map, Function.comp_def,
    RuleReport.shape, Verdict.decisionKind_map, Verdict.violation_map]
  congr 1
  funext r
  split <;> simp [Function.comp_def]

theorem allViolations_shape (reports : List RuleReport) :
    (Decision.fromReports reports).allViolations.map Violation.ruleId =
      (reports.map RuleReport.shape).filterMap fun s => s.2.violation := by
  simp [Decision.fromReports_allViolations, List.map_filterMap, List.filterMap_map, Function.comp_def,
    RuleReport.shape]

theorem Decision.shape_congr {xs ys : List RuleReport}
    (h : xs.map RuleReport.shape = ys.map RuleReport.shape) :
    (fromReports xs).shape = (fromReports ys).shape := by
  have hkind : (fromReports xs).kind = (fromReports ys).kind := by
    have hreported : reported xs = reported ys := by
      funext k
      rw [reported_shape, reported_shape, h]
    rw [fromReports_kind, fromReports_kind, hreported]
  have hpriority : (fromReports xs).winningPriority = (fromReports ys).winningPriority := by
    rw [fromReports_winningPriority, fromReports_winningPriority, hkind, classified_shape,
      classified_shape, h]
  rw [shape, shape, hkind, hpriority, allViolations_shape, allViolations_shape, h]

theorem Decision.fromReports_isTerminating (reports : List RuleReport) :
    (fromReports reports).isTerminating =
      (reported reports .emergency || reported reports .liquidate || reported reports .fail) := by
  have htarget : (fromReports reports).isTerminating = (fromReports reports).accountStatusTarget.isSome := by
    unfold isTerminating accountStatusTarget
    cases (fromReports reports).kind <;> rfl
  rw [htarget, fromReports_target]
  cases reported reports .emergency <;> cases reported reports .liquidate <;>
    cases reported reports .fail <;> rfl

end Propfirm
