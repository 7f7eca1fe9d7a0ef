import Propfirm.Rules.Lemmas.Limits
import Propfirm.Rules.Lemmas.Pack
import Propfirm.Rules.Theorems.NewsWindow

/-!
# Checks of an order before the trade
-/

namespace Propfirm

open Fallible

variable {params : Option RuleParams} {ctx : RuleContext} {order : Order} {now : Timestamp}

/-! ## Closing orders -/

/-- The context with another order pending. -/
def RuleContext.withOrder (ctx : RuleContext) (order : Order) : RuleContext :=
  { ctx with pendingOrder := some order }

/-- A plan with a cap on the lots and a ban on trading around news. -/
def newsBanPlan (maxLots : Lots) : ChallengePlan :=
  { ChallengePlan.default ⟨1⟩ 0 with maxTotalLots := some maxLots, newsTradingAllowed := false }

/-- Two lots are open, bought at a price of 100. -/
def heldContext (plan : ChallengePlan) (equity : Money) : RuleContext :=
  { RuleContext.new { Account.new ⟨1⟩ ⟨1⟩ plan with status := .active, startedAt := some 0, equity }
      0 (fun _ => ⟨0⟩) 0 with
    kind := .onOrderSubmit
    openPositions := [.open ⟨1⟩ ⟨1⟩ ⟨"GOLD"⟩ .long 100 2 0 0]
    ruleConfig := .fromPlan plan }

/-- An order to sell the two lots. -/
def sellOrder (submittedAt : Timestamp) : Order where
  id := ⟨1⟩
  accountId := ⟨1⟩
  symbol := ⟨"GOLD"⟩
  side := .sell
  kind := .close ⟨1⟩ none
  orderType := .limit 100
  quantity := 2
  stopLoss := none
  takeProfit := none
  submittedAt
  avgFillPrice := none

/-- What an opening order can be required to carry. -/
inductive Attachment where
  | stopLoss
  | takeProfit

namespace Attachment

def kind : Attachment → String
  | .stopLoss => "sl_required"
  | .takeProfit => "tp_required"

def rule : Attachment → Option RuleParams → StdRule
  | .stopLoss => stopLossRequiredRule
  | .takeProfit => takeProfitRequiredRule

def ruleName : Attachment → RuleName
  | .stopLoss => .slRequired
  | .takeProfit => .tpRequired

def price : Attachment → Order → Option Price
  | .stopLoss => Order.stopLoss
  | .takeProfit => Order.takeProfit

/-- The flag of the plan. -/
def required : Attachment → ChallengePlan → Bool
  | .stopLoss => ChallengePlan.requireStopLoss
  | .takeProfit => ChallengePlan.requireTakeProfit

/-- The verdict on an order without the attachment. -/
def verdictKind : Attachment → DecisionKind
  | .stopLoss => .fail
  | .takeProfit => .warn

variable {t : Attachment}

theorem factory_eq (t : Attachment) : defaultFactoryForKind t.kind = some t.rule := by
  cases t <;> rfl

theorem rule_id (t : Attachment) (params : Option RuleParams) : (t.rule params).id = t.ruleName := by
  cases t <;> rfl

theorem runsIn_of_enabled {p : RuleParams} (h : p.enabled = true) (hctx : ctx.kind = .onOrderSubmit) :
    (t.rule (some p)).toRule.runsIn ctx = true := by
  cases t <;>
    simp [Rule.runsIn, StdRule.toRule, rule, stopLossRequiredRule, takeProfitRequiredRule, packEnabled, h,
      hctx, EvaluationScope.appliesTo]

theorem judgeRequired_missing {required : Bool} {verdict : Verdict Finding} (hopen : order.kind = .open) :
    (judgeRequired required true verdict (some order)).map Verdict.decisionKind =
      .ok (if required then verdict.decisionKind else .pass) := by
  cases required <;> simp [judgeRequired, hopen, Except.map, Verdict.decisionKind]

theorem judge_missing (horder : ctx.pendingOrder = some order) (hopen : order.kind = .open)
    (hmissing : t.price order = none) :
    ((t.rule params).judge ctx).map Verdict.decisionKind =
      .ok (if t.required ctx.account.plan then t.verdictKind else .pass) := by
  cases t with
  | stopLoss =>
      change order.stopLoss = none at hmissing
      change (StopLossRequiredRule.judge ctx).map _ = _
      rw [StopLossRequiredRule.judge, horder, Option.elim_some, hmissing]
      exact judgeRequired_missing hopen
  | takeProfit =>
      change order.takeProfit = none at hmissing
      change (TakeProfitRequiredRule.judge ctx).map _ = _
      rw [TakeProfitRequiredRule.judge, horder, Option.elim_some, hmissing]
      exact judgeRequired_missing hopen

/-- The rule of a pack entry still asks the plan. -/
theorem verdict_missing (horder : ctx.pendingOrder = some order) (hopen : order.kind = .open)
    (hmissing : t.price order = none) :
    ((t.rule params).toRule.verdict ctx).decisionKind =
      if t.required ctx.account.plan then t.verdictKind else .pass := by
  obtain ⟨v, hv, hkind⟩ := map_eq_ok.mp (@judge_missing params _ _ _ horder hopen hmissing)
  exact (StdRule.verdict_decisionKind hv).trans hkind

end Attachment

/-- An entry of a pack switches the rule on, but the plan must require the attachment too, and a missing
take-profit is only warned about. -/
theorem pack_attachment_binds_iff {pack : PackWithRules} {registry : RuleRegistry} {e : RuleEntry}
    (t : Attachment) (hbuilt : RuleRegistry.buildFromPack pack = .ok registry) (he : e ∈ pack.rules)
    (henabled : e.enabled = true) (hkind : e.kind = t.kind) (hctx : ctx.kind = .onOrderSubmit)
    (horder : ctx.pendingOrder = some order) (hopen : order.kind = .open) (hmissing : t.price order = none) :
    registry.Reports ctx now t.ruleName .fail ↔ t = .stopLoss ∧ ctx.account.plan.requireStopLoss = true := by
  obtain ⟨e', -, henabled', hmem⟩ := buildFromPack_rule hbuilt he henabled (hkind ▸ t.factory_eq)
  rw [← t.rule_id (some (.fromEntry e')), RuleRegistry.IsBuilt.reports_iff (.inr ⟨pack, hbuilt⟩) hmem,
    Attachment.verdict_missing horder hopen hmissing, Attachment.runsIn_of_enabled henabled' hctx]
  cases t with
  | stopLoss =>
      cases hreq : ctx.account.plan.requireStopLoss <;>
        simp [Attachment.required, Attachment.verdictKind, hreq]
  | takeProfit =>
      cases hreq : ctx.account.plan.requireTakeProfit <;>
        simp [Attachment.required, Attachment.verdictKind, hreq]

/-- A pack whose entries require both attachments. -/
def attachmentPack : PackWithRules :=
  { id := "attachments", version := 1, contentHash := ""
    rules := [.new "stop" "sl_required" 1, .new "profit" "tp_required" 1] }

def openingOrder : Order := { sellOrder 0 with kind := .open }

theorem pack_attachment_binds_with_plan :
    ∃ registry, RuleRegistry.buildFromPack attachmentPack = .ok registry ∧
      registry.Reports
        ((heldContext { newsBanPlan 4 with requireStopLoss := true } 10000).withOrder openingOrder) 0
        .slRequired .fail := by
  refine ⟨_, rfl, ?_⟩
  have he : RuleEntry.new "stop" "sl_required" 1 ∈ attachmentPack.rules := List.mem_cons_self ..
  exact (pack_attachment_binds_iff .stopLoss rfl he rfl rfl rfl rfl rfl rfl).mpr ⟨rfl, rfl⟩

/-- Without the flags of the plan the registry passes an order with neither attachment, and with them it
only warns of the take-profit. -/
theorem pack_attachment_unbound :
    ∃ registry, RuleRegistry.buildFromPack attachmentPack = .ok registry ∧
      (registry.evaluate ((heldContext (newsBanPlan 4) 10000).withOrder openingOrder) 0).map
          (fun report => (report.ruleId, report.verdict.decisionKind)) =
        [(.named .slRequired, .pass), (.named .tpRequired, .pass)] ∧
      (registry.evaluate
          ((heldContext { newsBanPlan 4 with requireTakeProfit := true } 10000).withOrder openingOrder) 0).map
          (fun report => (report.ruleId, report.verdict.decisionKind)) =
        [(.named .slRequired, .pass), (.named .tpRequired, .warn)] :=
  ⟨_, rfl, by decide +kernel, by decide +kernel⟩

end Propfirm
