import Propfirm.Api.Override
import Propfirm.Api.Retries
import Propfirm.Engine.Theorems.Arbitration
import Propfirm.Engine.Theorems.Caps
import Propfirm.Engine.Theorems.Faults
import Propfirm.Rules.Lemmas.Pack

/-!
# The violation that ends an account, and its override
-/

namespace Propfirm

open Fallible

variable {wire : WireFormat} {registry : RuleRegistry} {rule : Rule} {ctx : RuleContext}
  {now : Timestamp} {reports : List RuleReport} {v : Violation}

/-! ## Registries that the engine builds -/

theorem libraryRules_name {params : Option RuleParams} {r : StdRule} (hr : r ∈ libraryRules params) :
    r.name.isEmpty = false := by
  -- the parameters of a rule do not enter its name
  have hnames : ∀ name ∈ (libraryRules params).map StdRule.name, name.isEmpty = false := by
    change ∀ name ∈ defaultRules.map StdRule.name, name.isEmpty = false
    decide
  exact hnames _ (List.mem_map_of_mem hr)

/-! ## The rule that decides -/

def RuleRegistry.running (registry : RuleRegistry) (ctx : RuleContext) : List Rule :=
  registry.rules.filter fun rule => rule.runsIn ctx

/-- No rule that runs is of a worse class, and of those of its class it has the highest priority, the
last of several. -/
structure RuleRegistry.Decides (registry : RuleRegistry) (ctx : RuleContext) (rule : Rule) : Prop where
  worst : ∀ x ∈ registry.running ctx,
    (x.verdict ctx).decisionKind.severity ≤ (rule.verdict ctx).decisionKind.severity
  last : ∃ before after, registry.running ctx = before ++ rule :: after ∧
    (∀ x ∈ before, (x.verdict ctx).decisionKind = (rule.verdict ctx).decisionKind →
      x.priority ≤ rule.priority) ∧
    ∀ x ∈ after, (x.verdict ctx).decisionKind = (rule.verdict ctx).decisionKind →
      x.priority < rule.priority

/-- A decision that ends the account carries the violation of the rule that decides. -/
theorem RuleRegistry.exists_decides
    (h : (Decision.fromReports (registry.evaluate ctx now)).isTerminating = true) :
    ∃ rule ∈ registry.rules, ∃ v, registry.Decides ctx rule ∧
      (Decision.fromReports (registry.evaluate ctx now)).reason.violation = some v ∧
      (rule.verdict ctx).violation = some v ∧ (rule.verdict ctx).decisionKind.Terminates := by
  have hdecisive : (Decision.fromReports (registry.evaluate ctx now)).kind ∈ decisiveKinds := by
    unfold Decision.isTerminating at h
    split at h <;> simp_all [decisiveKinds]
  obtain ⟨p, v, hw, hv⟩ := Decision.fromReports_winner hdecisive
  have hterminates : (Decision.fromReports (registry.evaluate ctx now)).kind.Terminates := by
    unfold Decision.isTerminating at h
    unfold DecisionKind.Terminates
    split at h <;> simp_all
  have hpass : (Decision.fromReports (registry.evaluate ctx now)).kind ≠ .pass := by
    intro hpass
    rw [hpass] at hterminates
    simp [DecisionKind.Terminates] at hterminates
  obtain ⟨before, r, after, hsplit, hkind, hviolation, hbefore, hafter⟩ := classified_split hpass hw
  obtain ⟨xs, ys, hrunning, rfl, hys⟩ := List.map_eq_append_iff.mp hsplit
  obtain ⟨rule, zs, rfl, rfl, rfl⟩ := List.map_eq_cons_iff.mp hys
  have hmem : rule ∈ registry.running ctx := by
    rw [running, hrunning]
    exact List.mem_append_right _ (List.mem_cons_self ..)
  rw [← hkind] at hterminates
  refine ⟨rule, (List.mem_filter.mp hmem).1, v, ⟨fun x hx => ?_, xs, zs, hrunning, fun x hx hxk => ?_,
    fun x hx hxk => ?_⟩, hv, hviolation, hterminates⟩
  · have hreport : x.report ctx now ∈ registry.evaluate ctx now := List.mem_map_of_mem hx
    have hle := Decision.severity_le_kind hreport
    rw [← hkind] at hle
    exact hle
  · exact hbefore _ (List.mem_map_of_mem hx) (hxk.trans hkind)
  · exact hafter _ (List.mem_map_of_mem hx) (hxk.trans hkind)

/-! ## Overrides -/

/-- A request that clears the violation of an account which has ended. -/
structure OverrideRequest.Clears (wire : WireFormat) (req : OverrideRequest) (acc : Account)
    (v : Violation) : Prop where
  account : req.accountState = some acc
  accountId : wire.parseUuid req.accountId = .ok acc.id.raw
  status : acc.status.isBreachTerminal = true
  violation : req.violation = v
  violationId : wire.parseUuid req.clearsViolationId = .ok v.id.raw
  sameAccount : v.accountId = acc.id
  sameTenant : v.tenantId = acc.tenantId

/-- Such a request is refused for the violation itself only. -/
theorem OverrideRequest.Clears.checkOverride_eq {req : OverrideRequest} {acc : Account}
    (h : req.Clears wire acc v) :
    checkOverride wire acc.tenantId req =
      (do
        ApiOutcome.ofOutcome .badRequest v.validate
        if !v.isTerminating then
          .badRequest [.lit "override is only valid for terminating violations"]
        else .ok ()) >>= fun _ => pure acc := by
  simp [checkOverride, checkViolation, validateAccountState, h.account, h.accountId, h.violationId,
    h.violation, h.status, h.sameAccount, h.sameTenant, ApiOutcome.ofText, bind, Except.bind]

theorem OverrideRequest.Clears.checkOverride_iff {req : OverrideRequest} {acc : Account}
    (h : req.Clears wire acc v) :
    checkOverride wire acc.tenantId req = .ok acc ↔ v.validate = .ok () ∧ v.isTerminating = true := by
  rw [h.checkOverride_eq]
  cases hvalid : v.validate with
  | error f =>
      cases f <;> simp [ApiOutcome.ofOutcome, bind, Except.bind]
  | ok =>
      cases v.isTerminating <;>
        simp [ApiOutcome.ofOutcome, ApiOutcome.badRequest, bind, Except.bind, pure, Except.pure]

/-! ## Violations of the library -/

section BuildViolation

variable {id : RuleId} {name : String} {kind : ViolationKind} {f : Finding}

@[simp] theorem buildViolation_ruleName : (buildViolation id name kind ctx f).ruleName = name := by
  unfold buildViolation
  cases f.breach <;> rfl

theorem buildViolation_names :
    (buildViolation id name kind ctx f).ruleId = id ∧
      (buildViolation id name kind ctx f).accountId = ctx.account.id ∧
      (buildViolation id name kind ctx f).tenantId = ctx.account.tenantId := by
  unfold buildViolation
  cases f.breach <;> exact ⟨rfl, rfl, rfl⟩

/-- The utilization is negative exactly if the breach and its threshold differ in sign. -/
theorem buildViolation_utilization :
    ((buildViolation id name kind ctx f).utilization.any fun util => util < 0) = false ↔
      ∀ b ∈ (buildViolation id name kind ctx f).breachValue,
        ∀ t ∈ (buildViolation id name kind ctx f).thresholdValue, 0 ≤ b / t := by
  unfold buildViolation
  cases f.breach with
  | none => simp
  | some breach =>
      obtain ⟨b, t⟩ := breach
      by_cases ht : t = 0
      · simp [Violation.withBreach, ht]
      · simp [Violation.withBreach, ht]

end BuildViolation

/-- The rule is evaluated, and what it finds is no negative part of its limit. -/
def Rule.FindsBreach (rule : Rule) (ctx : RuleContext) : Prop :=
  ∃ w, rule.evaluate ctx = .ok w ∧
    ∀ v ∈ w.violation, ∀ b ∈ v.breachValue, ∀ t ∈ v.thresholdValue, 0 ≤ b / t

/-- What the registry records for a rule that failed is a warning, also where its policy ends the
account. -/
theorem Rule.violation_of_error {e : Fault} (h : rule.evaluate ctx = .error e)
    (hv : (rule.verdict ctx).violation = some v) :
    ∃ message, v = rule.failureViolation ctx message := by
  have hfailure (base : Violation) (hbase : (rule.failureVerdict base).violation = some v) : v = base := by
    unfold failureVerdict at hbase
    split at hbase <;> exact (Option.some.inj hbase).symm
  unfold verdict at hv
  rw [h] at hv
  cases e with
  | error e => exact ⟨_, hfailure _ hv⟩
  | panic msg | overflow msg => exact ⟨_, hfailure _ hv⟩

theorem Rule.InLibrary.violation_names (hrule : rule.InLibrary)
    (hv : (rule.verdict ctx).violation = some v) :
    v.ruleId = rule.id ∧ v.accountId = ctx.account.id ∧ v.tenantId = ctx.account.tenantId := by
  cases hevaluated : rule.evaluate ctx with
  | error e =>
      obtain ⟨message, rfl⟩ := Rule.violation_of_error hevaluated hv
      exact buildViolation_names
  | ok w =>
      obtain ⟨params, r, hr, rfl⟩ := hrule
      obtain ⟨judged, hjudged, rfl⟩ := map_eq_ok.mp hevaluated
      rw [Rule.verdict, hevaluated] at hv
      change (judged.map _).violation = some v at hv
      rw [Verdict.violation_map] at hv
      obtain ⟨f, hf, rfl⟩ := Option.map_eq_some_iff.mp hv
      exact buildViolation_names

theorem Rule.InLibrary.violation_of_ok (hrule : rule.InLibrary) {w : RuleVerdict}
    (h : rule.evaluate ctx = .ok w) (hterminates : w.decisionKind.Terminates)
    (hv : w.violation = some v) :
    (v.severity = .hard ∨ v.severity = .liquidate) ∧
      (v.validate = .ok () ↔ ∀ b ∈ v.breachValue, ∀ t ∈ v.thresholdValue, 0 ≤ b / t) := by
  obtain ⟨params, r, hr, rfl⟩ := hrule
  obtain ⟨judged, hjudged, rfl⟩ := map_eq_ok.mp h
  have hgraded := libraryRules_graded hr judged hjudged
  rw [Verdict.violation_map] at hv
  obtain ⟨f, hf, rfl⟩ := Option.map_eq_some_iff.mp hv
  refine ⟨?_, ?_⟩
  · rw [buildViolation_severity]
    rw [Verdict.decisionKind_map] at hterminates
    cases judged <;> simp_all [DecisionKind.Terminates, Verdict.decisionKind, Verdict.violation]
  · rw [← buildViolation_utilization, Violation.validate, buildViolation_ruleName, libraryRules_name hr]
    cases hutil : (buildViolation (.named r.id) r.name r.kind ctx f).utilization.any fun util => util < 0 with
    | false => simp
    | true => simp [raise]

/-- A decision that ends the account carries a violation that names the rule which decides and the
account. It can be overridden exactly if that rule was evaluated, and its breach and limit do not differ
in sign. -/
theorem termination_overridable_iff (wire : WireFormat) (hbuilt : registry.IsBuilt) (ctx : RuleContext)
    (now : Timestamp) (hterm : (Decision.fromReports (registry.evaluate ctx now)).isTerminating = true) :
    ∃ rule ∈ registry.rules, registry.Decides ctx rule ∧
      ∃ v, (Decision.fromReports (registry.evaluate ctx now)).reason.violation = some v ∧
        (v.ruleId = rule.id ∧ v.accountId = ctx.account.id ∧ v.tenantId = ctx.account.tenantId) ∧
        ∀ req acc, OverrideRequest.Clears wire req acc v →
          ((v.severity = .hard ∨ v.severity = .liquidate) ∧ v.isTerminating = true ∧
              checkOverride wire acc.tenantId req = .ok acc ↔
            rule.FindsBreach ctx) := by
  obtain ⟨rule, hrule, v, hdecides, hreason, hv, hterminates⟩ := RuleRegistry.exists_decides hterm
  refine ⟨rule, hrule, hdecides, v, hreason, (hbuilt.inLibrary hrule).violation_names hv,
    fun req acc hreq => ?_⟩
  rw [hreq.checkOverride_iff]
  cases hevaluated : rule.evaluate ctx with
  | error e =>
      obtain ⟨message, rfl⟩ := Rule.violation_of_error hevaluated hv
      simp [Rule.failureViolation, Rule.FindsBreach, hevaluated]
  | ok w =>
      have hverdict : rule.verdict ctx = w := by rw [Rule.verdict, hevaluated]
      rw [hverdict] at hv hterminates
      obtain ⟨hseverity, hvalid⟩ :=
        (hbuilt.inLibrary hrule).violation_of_ok hevaluated hterminates hv
      have hterminating : v.isTerminating = true := by
        rcases hseverity with h | h <;> simp [Violation.isTerminating, h]
      simp [hseverity, hterminating, hvalid, Rule.FindsBreach, hevaluated, hv]

/-! ## A breach, and a rule that fails -/

/-- What the override endpoint reads of a violation. -/
structure OverrideReading where
  id : ViolationId
  accountId : AccountId
  tenantId : TenantId
  valid : Bool
  severity : ViolationSeverity
deriving DecidableEq

def Violation.reading (v : Violation) : OverrideReading :=
  ⟨v.id, v.accountId, v.tenantId, decide (v.validate = .ok ()), v.severity⟩

/-- The request of an account numbered one, for a violation numbered zero. -/
def overrideOf (acc : Account) (v : Violation) : OverrideRequest := ⟨"a", some acc, "", v⟩

theorem overrideOf_clears {acc : Account} {valid : Bool} {severity : ViolationSeverity}
    (hacc : (acc.id, acc.tenantId, acc.status) = (⟨1⟩, ⟨1⟩, .failed))
    (hv : v.reading = ⟨⟨0⟩, ⟨1⟩, ⟨1⟩, valid, severity⟩) :
    (overrideOf acc v).Clears unaryWire acc v := by
  simp only [Violation.reading, Prod.mk.injEq, OverrideReading.mk.injEq] at hacc hv
  obtain ⟨hid, htenant, hstatus⟩ := hacc
  obtain ⟨hvid, hvaccount, hvtenant, -⟩ := hv
  exact
    { account := rfl
      accountId := by
        rw [hid]
        change unaryWire.parseUuid "a" = .ok 1
        decide
      status := by rw [hstatus]; rfl
      violation := rfl
      violationId := by simp [unaryWire, overrideOf, hvid]
      sameAccount := hvaccount.trans hid.symm
      sameTenant := hvtenant.trans htenant.symm }

theorem termination_overridable_lots :
    ∃ (ctx : RuleContext) (now : Timestamp) (rule : Rule),
      (Decision.fromReports ((Pipeline.ofPlan cappedPlan).registry.evaluate ctx now)).isTerminating =
          true ∧
        (Pipeline.ofPlan cappedPlan).registry.Decides ctx rule ∧ rule.FindsBreach ctx := by
  have hrun :
      (do
        let a ← (Account.new ⟨1⟩ ⟨1⟩ cappedPlan).start 0
        let r ← (Pipeline.ofPlan cappedPlan).process (.at 1) a (.orderSubmitted (openOrder 2 1))
        pure (r.result.decision.isTerminating, r.result.decision.reason.violation.map Violation.reading,
          (r.account.id, r.account.tenantId, r.account.status))) =
        .ok (true, some ⟨⟨0⟩, ⟨1⟩, ⟨1⟩, true, .hard⟩, (⟨1⟩, ⟨1⟩, .failed)) := by
    decide +kernel
  obtain ⟨a, -, hrun⟩ := bind_eq_ok.mp hrun
  obtain ⟨r, h, hrun⟩ := bind_eq_ok.mp hrun
  obtain ⟨hterm, hfacts⟩ := Prod.mk.inj (pure_eq_ok.mp hrun)
  obtain ⟨hviolation, hacc⟩ := Prod.mk.inj hfacts
  obtain ⟨pass⟩ := Pipeline.process_passage h
  rw [pass.result_eq] at hterm hviolation
  obtain ⟨rule, -, hdecides, v, hv, -, hiff⟩ :=
    termination_overridable_iff unaryWire (.inl (.inr ⟨_, rfl⟩)) pass.ctx _ hterm
  obtain ⟨w, hw, hreading⟩ := Option.map_eq_some_iff.mp hviolation
  obtain rfl := Option.some.inj (hv.symm.trans hw)
  have hclears := overrideOf_clears hacc hreading
  simp only [Violation.reading, OverrideReading.mk.injEq, decide_eq_true_eq] at hreading
  obtain ⟨-, -, -, hvalid, hseverity⟩ := hreading
  have hterminating : v.isTerminating = true := by simp [Violation.isTerminating, hseverity]
  exact ⟨pass.ctx, _, rule, hterm, hdecides, (hiff _ _ hclears).mp
    ⟨.inl hseverity, hterminating, hclears.checkOverride_iff.mpr ⟨hvalid, hterminating⟩⟩⟩

/-- A pack whose one rule cannot read its count, and asks to fail the account in that case. -/
def countlessPack : PackWithRules where
  id := "pack"
  version := 1
  contentHash := ""
  rules :=
    [{ id := "days"
       kind := "min_trading_days"
       basis := .static
       unit := .money
       value := -1
       toleranceCents := none
       earlyWarningPct := none
       priority := 0
       enabled := true
       paramsJson := ⟨fun _ => none, fun _ => none⟩
       severity := none
       failurePolicy := some "fail" }]

/-- The account ends, and the violation that ended it cannot be cleared. -/
theorem termination_not_overridable :
    ∃ (registry : RuleRegistry) (ctx : RuleContext) (now : Timestamp) (v : Violation)
      (req : OverrideRequest) (acc : Account),
      RuleRegistry.buildFromPack countlessPack = .ok registry ∧
        (Decision.fromReports (registry.evaluate ctx now)).isTerminating = true ∧
        (Decision.fromReports (registry.evaluate ctx now)).reason.violation = some v ∧
        v.severity = .warning ∧ req.Clears unaryWire acc v ∧
        checkOverride unaryWire acc.tenantId req =
          .error (.status .badRequest [.lit "override is only valid for terminating violations"]) := by
  have hrun :
      (do
        let registry ← RuleRegistry.buildFromPack countlessPack
        let a ← (Account.new ⟨1⟩ ⟨1⟩ cappedPlan).start 0
        let r ← ({ registry, notifyViolation := fun _ => .ok () } : Pipeline).process (.at 1) a .onDemand
        pure (r.result.decision.isTerminating, r.result.decision.reason.violation.map Violation.reading,
          (r.account.id, r.account.tenantId, r.account.status))) =
        .ok (true, some ⟨⟨0⟩, ⟨1⟩, ⟨1⟩, true, .warning⟩, (⟨1⟩, ⟨1⟩, .failed)) := by
    decide +kernel
  obtain ⟨registry, hbuilt, hrun⟩ := bind_eq_ok.mp hrun
  obtain ⟨a, -, hrun⟩ := bind_eq_ok.mp hrun
  obtain ⟨r, h, hrun⟩ := bind_eq_ok.mp hrun
  obtain ⟨hterm, hfacts⟩ := Prod.mk.inj (pure_eq_ok.mp hrun)
  obtain ⟨hviolation, hacc⟩ := Prod.mk.inj hfacts
  obtain ⟨pass⟩ := Pipeline.process_passage h
  rw [pass.result_eq] at hterm hviolation
  obtain ⟨v, hv, hreading⟩ := Option.map_eq_some_iff.mp hviolation
  have hclears := overrideOf_clears hacc hreading
  simp only [Violation.reading, OverrideReading.mk.injEq, decide_eq_true_eq] at hreading
  obtain ⟨-, -, -, hvalid, hseverity⟩ := hreading
  have hterminating : v.isTerminating = false := by simp [Violation.isTerminating, hseverity]
  refine ⟨registry, pass.ctx, _, v, _, r.account, hbuilt, hterm, hv, hseverity, hclears, ?_⟩
  rw [hclears.checkOverride_eq, hvalid, hterminating]
  rfl

end Propfirm
