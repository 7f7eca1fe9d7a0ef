import Propfirm.Rules.Registry

/-!
# From rule reports to one decision
-/

namespace Propfirm

inductive DecisionKind where
  | pass
  | warn
  | earlyWarning
  | targetHit
  | fail
  | softFail
  | gapFlagged
  | liquidate
  | emergency
deriving DecidableEq

inductive DecisionReason where
  | allRulesPassed
  | warnings (vs : List Violation)
  | earlyWarnings (vs : List Violation)
  | targetHitReached (v : Violation)
  | hardViolation (v : Violation)
  | softFailReached (v : Violation)
  | liquidationRequested (v : Violation)
  | emergencyStop (v : Violation)
  | gapFlaggedReached (v : Violation)
deriving DecidableEq

structure Decision where
  kind : DecisionKind
  reason : DecisionReason
  winningPriority : ℕ
  allViolations : List Violation
deriving DecidableEq

def Verdict.decisionKind {ν : Type} : Verdict ν → DecisionKind
  | .pass | .skip => .pass
  | .warn _ => .warn
  | .fail _ => .fail
  | .softFail _ => .softFail
  | .liquidate _ => .liquidate
  | .targetHit _ => .targetHit
  | .emergency _ => .emergency
  | .earlyWarning _ => .earlyWarning
  | .gapFlagged _ => .gapFlagged

/-- The entry of highest priority; of several, the last (`max_by`). -/
def pickWinner : List (ℕ × Violation) → Option (ℕ × Violation)
  | [] => none
  | x :: xs => some (xs.foldl (fun best y => if best.1 ≤ y.1 then y else best) x)

def classified (reports : List RuleReport) (kind : DecisionKind) : List (ℕ × Violation) :=
  reports.filterMap fun r =>
    if r.verdict.decisionKind = kind then r.verdict.violation.map fun v => (r.priority, v) else none

namespace Decision

/-- The first class that is present decides, in the order emergency, liquidate, fail, soft fail, gap,
target hit, early warning, warning. -/
def fromReports (reports : List RuleReport) : Decision :=
  let allViolations := reports.filterMap fun r => r.verdict.violation
  match pickWinner (classified reports .emergency) with
  | some (p, v) => ⟨.emergency, .emergencyStop v, p, allViolations⟩
  | none =>
  match pickWinner (classified reports .liquidate) with
  | some (p, v) => ⟨.liquidate, .liquidationRequested v, p, allViolations⟩
  | none =>
  match pickWinner (classified reports .fail) with
  | some (p, v) => ⟨.fail, .hardViolation v, p, allViolations⟩
  | none =>
  match pickWinner (classified reports .softFail) with
  | some (p, v) => ⟨.softFail, .softFailReached v, p, allViolations⟩
  | none =>
  match pickWinner (classified reports .gapFlagged) with
  | some (p, v) => ⟨.gapFlagged, .gapFlaggedReached v, p, allViolations⟩
  | none =>
  match pickWinner (classified reports .targetHit) with
  | some (p, v) => ⟨.targetHit, .targetHitReached v, p, allViolations⟩
  | none =>
  match pickWinner (classified reports .earlyWarning) with
  | some (p, _) =>
      ⟨.earlyWarning, .earlyWarnings ((classified reports .earlyWarning).map Prod.snd), p,
        allViolations⟩
  | none =>
  match pickWinner (classified reports .warn) with
  | some (p, _) =>
      ⟨.warn, .warnings ((classified reports .warn).map Prod.snd), p, allViolations⟩
  | none => ⟨.pass, .allRulesPassed, 0, allViolations⟩

def isTerminating (d : Decision) : Bool :=
  match d.kind with
  | .fail | .liquidate | .emergency => true
  | _ => false

def accountStatusTarget (d : Decision) : Option AccountStatus :=
  match d.kind with
  | .fail | .liquidate => some .failed
  | .emergency => some .emergencyStopped
  | _ => none

end Decision

/-! ## Evaluation -/

structure EvaluationResult where
  reports : List RuleReport
  decision : Decision
deriving DecidableEq

def EvaluationResult.violations (r : EvaluationResult) : List Violation :=
  r.reports.filterMap fun rep => rep.verdict.violation

def Evaluator.evaluate (registry : RuleRegistry) (ctx : RuleContext) (now : Timestamp) :
    EvaluationResult :=
  let reports := registry.evaluate ctx now
  { reports, decision := .fromReports reports }

end Propfirm
