import Propfirm.Engine.Lemmas.Liquidations
import Propfirm.Rules.Theorems.Utilization

/-!
# What a liquidation is put down to

Three violations are chosen from the reports: the decision is made by the breach of highest priority, the
reason that is given is the first severe violation, and the cause that is linked is the first of all.
-/

namespace Propfirm

variable {reports : List RuleReport} {a a' : Account} {t : Timestamp} {actorId : String}
  {evs : List DomainEvent} {w : Violation}

/-- The instruction names the breach, and lists the open positions of the account in their order. -/
structure LiquidationInstruction.PointsAt (i : LiquidationInstruction) (w : Violation) (a : Account) :
    Prop where
  reason_eq : i.reason = .ruleBreach w.kind
  triggeredBy_eq : i.triggeredByViolationId = some w.id
  positions_eq : i.positions = (a.openPositions.filter Position.isOpen).map .fromPosition

def violationsOf (reports : List RuleReport) : List Violation :=
  reports.filterMap fun r => r.verdict.violation

/-- The first violation that liquidates by its severity, and without one the first of all. -/
def leadingViolation (reports : List RuleReport) : Option Violation :=
  ((violationsOf reports).find? fun v => decide (v.severity = .liquidate)).or (violationsOf reports).head?

theorem liquidationReason_eq (h : (Decision.fromReports reports).kind = .liquidate) :
    liquidationReason (.fromReports reports) =
      .ruleBreach (((leadingViolation reports).map Violation.kind).getD .custom) := by
  have hsevere : (fun v : Violation => decide (ViolationSeverity.liquidate.rank ≤ v.severity.rank)) =
      fun v => decide (v.severity = .liquidate) := by
    funext v
    cases v.severity <;> rfl
  simp only [liquidationReason, h, hsevere, Decision.fromReports_allViolations]
  rfl

theorem leadingViolation_isSome {v : Violation} (h : (violationsOf reports).head? = some v) :
    ∃ v', leadingViolation reports = some v' := by
  rw [leadingViolation, h]
  cases (violationsOf reports).find? _ with
  | none => exact ⟨v, rfl⟩
  | some v' => exact ⟨v', rfl⟩

theorem applyDecision_liquidate (h : applyDecision a (.fromReports reports) t actorId = .ok (a', evs))
    (hkind : (Decision.fromReports reports).kind = .liquidate) :
    ∃ i, liquidations evs = [i] ∧
      i.reason = .ruleBreach (((leadingViolation reports).map Violation.kind).getD .custom) ∧
      i.triggeredByViolationId = (violationsOf reports).head?.map Violation.id ∧
      i.positions = (a'.openPositions.filter Position.isOpen).map .fromPosition := by
  obtain ⟨promoted, -, -, rfl, hevents⟩ := applyDecision_liquidations h
  rw [if_pos (.inl hkind)] at hevents
  refine ⟨_, hevents, liquidationReason_eq hkind, ?_, ?_⟩
  · exact congrArg (fun vs => vs.head?.map Violation.id) (Decision.fromReports_allViolations reports)
  · have hpositions : (applyTermination promoted (.fromReports reports) t actorId).1.openPositions =
        promoted.openPositions := by
      unfold applyTermination
      split <;> rfl
    rw [hpositions]
    rfl

theorem Decision.kind_eq_liquidate_iff :
    (fromReports reports).kind = .liquidate ↔
      ∃ w, (fromReports reports).reason = .liquidationRequested w := by
  unfold fromReports
  repeat' split
  all_goals simp

/-- The winning breach is named exactly if the first violation of all has its identifier and the leading one
is of its kind. -/
theorem liquidation_points_at_breach_iff
    (h : applyDecision a (.fromReports reports) t actorId = .ok (a', evs))
    (hw : (Decision.fromReports reports).reason = .liquidationRequested w) :
    (∃ i, liquidations evs = [i] ∧ i.PointsAt w a') ↔
      (∃ v ∈ (violationsOf reports).head?, v.id = w.id) ∧
        ∃ v ∈ leadingViolation reports, v.kind = w.kind := by
  obtain ⟨i, hi, hreason, htriggered, hpositions⟩ :=
    applyDecision_liquidate h (Decision.kind_eq_liquidate_iff.mpr ⟨w, hw⟩)
  constructor
  · rintro ⟨i', hi', hpoints⟩
    obtain rfl := (List.cons.inj (hi.symm.trans hi')).1
    obtain ⟨v, hv, hid⟩ := Option.map_eq_some_iff.mp (htriggered.symm.trans hpoints.triggeredBy_eq)
    obtain ⟨v', hv'⟩ := leadingViolation_isSome hv
    have hkind := LiquidationReason.ruleBreach.inj (hreason.symm.trans hpoints.reason_eq)
    rw [hv'] at hkind
    exact ⟨⟨v, hv, hid⟩, v', hv', hkind⟩
  · rintro ⟨⟨v, hv, hid⟩, v', hv', hkind⟩
    refine ⟨i, hi, ?_, ?_, hpositions⟩
    · rw [hreason, Option.mem_def.mp hv', ← hkind]
      rfl
    · rw [htriggered, Option.mem_def.mp hv, ← hid]
      rfl

/-- A tick of the default plan, with an identifier for the violation of the total drawdown and another for
every other one. -/
def lossContext (equity : Money) : RuleContext :=
  { dayContext (.default ⟨1⟩ 0) 10000 equity with
    violationId := fun id => if id = .named .maxDrawdown then ⟨2⟩ else ⟨1⟩ }

def lossReports (equity : Money) : List RuleReport :=
  (RuleRegistry.withDefaultRulesForPlan (.default ⟨1⟩ 0)).evaluate (lossContext equity) 0

theorem liquidation_points_at_breach_daily :
    ∃ a' evs w,
      applyDecision (lossContext 9400).account (.fromReports (lossReports 9400)) 0 "rule_engine" =
        .ok (a', evs) ∧
      (Decision.fromReports (lossReports 9400)).reason = .liquidationRequested w ∧
      ∃ i, liquidations evs = [i] ∧ i.PointsAt w a' := by
  have hrun : (applyDecision (lossContext 9400).account (.fromReports (lossReports 9400)) 0
      "rule_engine").map (fun _ => ()) = .ok () := by
    decide +kernel
  obtain ⟨⟨a', evs⟩, h, -⟩ := Fallible.map_eq_ok.mp hrun
  have hkind : (Decision.fromReports (lossReports 9400)).kind = .liquidate := by decide +kernel
  obtain ⟨w, hw⟩ := Decision.kind_eq_liquidate_iff.mp hkind
  have hfacts : (Decision.fromReports (lossReports 9400)).reason.violation =
      (violationsOf (lossReports 9400)).head? ∧
      (Decision.fromReports (lossReports 9400)).reason.violation = leadingViolation (lossReports 9400) := by
    decide +kernel
  rw [hw] at hfacts
  exact ⟨a', evs, w, h, hw, (liquidation_points_at_breach_iff h hw).mpr
    ⟨⟨w, hfacts.1.symm, rfl⟩, w, hfacts.2.symm, rfl⟩⟩

/-- The total drawdown decides, and the daily drawdown is blamed. -/
theorem liquidation_points_elsewhere :
    ∃ a' evs w i,
      applyDecision (lossContext 8500).account (.fromReports (lossReports 8500)) 0 "rule_engine" =
        .ok (a', evs) ∧
      (Decision.fromReports (lossReports 8500)).reason = .liquidationRequested w ∧
      liquidations evs = [i] ∧
      (w.kind, w.id) = (.maxDrawdown, ⟨2⟩) ∧
      (i.reason, i.triggeredByViolationId) = (.ruleBreach .dailyDrawdown, some ⟨1⟩) := by
  have hkind : (Decision.fromReports (lossReports 8500)).kind = .liquidate := by decide +kernel
  obtain ⟨w, hw⟩ := Decision.kind_eq_liquidate_iff.mp hkind
  have hfacts : (Decision.fromReports (lossReports 8500)).reason.violation.map (fun v => (v.kind, v.id)) =
      some (.maxDrawdown, ⟨2⟩) := by
    decide +kernel
  have hrun : (applyDecision (lossContext 8500).account (.fromReports (lossReports 8500)) 0
      "rule_engine").map (fun x => (liquidations x.2).map fun i => (i.reason, i.triggeredByViolationId)) =
      .ok [(.ruleBreach .dailyDrawdown, some ⟨1⟩)] := by
    decide +kernel
  obtain ⟨⟨a', evs⟩, h, hmap⟩ := Fallible.map_eq_ok.mp hrun
  obtain ⟨i, hi, -⟩ := applyDecision_liquidate h hkind
  rw [hw] at hfacts
  rw [hi] at hmap
  exact ⟨a', evs, w, i, h, hw, hi, Option.some.inj hfacts, (List.cons.inj hmap).1⟩

end Propfirm
