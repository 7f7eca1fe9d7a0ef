import Propfirm.Engine.Lemmas.Targets
import Propfirm.Engine.Theorems.Breaches

/-!
# The loss limit of a single trade
-/

namespace Propfirm

open Fallible

variable {p : Pipeline} {env : Env} {a : Account} {trade : Trade} {r : PipelineResult}

/-- The breach was acted on: a liquidation is decided and requested, and the account has failed. -/
def Liquidated (r : PipelineResult) : Prop :=
  r.result.decision.kind = .liquidate ∧ r.account.status = .failed ∧ liquidations r.events ≠ []

/-- The closing fill loses more than the limit that the rule sees, and its tolerance. -/
def Evaluated.ExceedsLossLimit (s : Evaluated env a (.tradeFilled trade)) : Prop :=
  ∃ loss limit, PerTradeMaxLossRule.exitLoss trade = some loss ∧
    PerTradeMaxLossRule.planLimit s.applied.account = some limit ∧ limit + toleranceMoney 1 < loss

/-- The context of a fill carries no equity of the broker. -/
theorem Evaluated.fill_estimated (s : Evaluated env a (.tradeFilled trade)) :
    s.ctx.equityIsBrokerReported = false := rfl

theorem Evaluated.fill_latestTrade (s : Evaluated env a (.tradeFilled trade)) :
    s.ctx.latestTrade = some trade := rfl

theorem Evaluated.perTradeMaxLoss_warns (s : Evaluated env a (.tradeFilled trade))
    (h : s.ExceedsLossLimit) :
    ((perTradeMaxLossRule none).evaluate s.ctx).map Verdict.decisionKind = .ok .warn := by
  obtain ⟨loss, limit, hloss, hlimit, hlt⟩ := h
  have hplan : PerTradeMaxLossRule.effectiveLimitMoney none s.ctx = some limit := by
    rw [← hlimit, PerTradeMaxLossRule.effectiveLimitMoney, ctx, buildContext_account]
  rw [StdRule.evaluate_decisionKind]
  change (PerTradeMaxLossRule.judge none s.ctx).map _ = _
  rw [PerTradeMaxLossRule.judge, s.fill_latestTrade, s.fill_estimated, Option.bind_some, hloss, hplan]
  simp [hlt, Except.map]

/-- A decision to liquidate carries through to the status and the request. -/
theorem Passage.liquidated_iff {ev : PipelineEvent} (s : Passage p env a ev r) :
    Liquidated r ↔ (s.decision p).kind = .liquidate := by
  have hkind : r.result.decision.kind = (s.decision p).kind := by rw [s.result_eq]
  refine ⟨fun h => hkind ▸ h.1, fun h => ⟨hkind.trans h, ?_, ?_⟩⟩
  · rw [s.account_status, Decision.accountStatusTarget, h]
    rfl
  · have htarget : (s.decision p).accountStatusTarget = some .failed := by
      rw [Decision.accountStatusTarget, h]
    simp [s.events_eq, applyTermination, htarget, h, liquidations]

/-- The rule itself only warns of a loss beyond the limit. The fill is liquidated exactly when some
rule reports a liquidation and none an emergency, and so never with the rules of a plan. -/
theorem lossLimit_enforced_iff (h : p.process env a (.tradeFilled trade) = .ok r)
    (s : Evaluated env a (.tradeFilled trade)) (hloss : s.ExceedsLossLimit) :
    ((perTradeMaxLossRule none).evaluate s.ctx).map Verdict.decisionKind = .ok .warn ∧
      (Liquidated r ↔
        reported (s.reports p) .liquidate = true ∧ reported (s.reports p) .emergency = false) ∧
      ∀ plan, p.registry = .withDefaultRulesForPlan plan → ¬Liquidated r := by
  obtain ⟨pass⟩ := Pipeline.process_passage h
  obtain rfl := s.subsingleton pass.toEvaluated
  have hiff := pass.liquidated_iff.trans Decision.fromReports_kind_liquidate
  refine ⟨pass.perTradeMaxLoss_warns hloss, hiff, fun plan hplan hliquidated => ?_⟩
  have hreported := (hiff.mp hliquidated).1
  rw [Evaluated.reports, hplan, not_reported_liquidate pass.fill_estimated] at hreported
  cases hreported

def lossLimitPlan : ChallengePlan :=
  { ChallengePlan.default ⟨1⟩ 0 with perTradeMaxLossMoney := some 100 }

def closingFill (pnl : Money) (executedAt : Timestamp) : Trade where
  id := ⟨1⟩
  orderId := ⟨1⟩
  accountId := ⟨1⟩
  symbol := ⟨"EURUSD"⟩
  side := .sell
  tradeSide := .exit
  price := 1
  quantity := 1
  commission := 0
  swap := 0
  executedAt
  exitInfo := some ⟨⟨1⟩, pnl, 1, 1, 1⟩

theorem lossLimit_not_enforced_default :
    ∃ (a : Account) (r : PipelineResult),
      (Account.new ⟨1⟩ ⟨1⟩ lossLimitPlan).start 0 = .ok a ∧
        (Pipeline.ofPlan lossLimitPlan).process (.at 1) a (.tradeFilled (closingFill (-1000) 1)) = .ok r ∧
        ¬Liquidated r := by
  have hrun :
      (do
        let a ← (Account.new ⟨1⟩ ⟨1⟩ lossLimitPlan).start 0
        let _ ← (Pipeline.ofPlan lossLimitPlan).process (.at 1) a (.tradeFilled (closingFill (-1000) 1))
        pure (a.plan.perTradeMaxLossPct, a.plan.perTradeMaxLossMoney)) = .ok (none, some 100) := by
    decide +kernel
  obtain ⟨a, ha, hrun⟩ := bind_eq_ok.mp hrun
  obtain ⟨r, hr, hrun⟩ := bind_eq_ok.mp hrun
  obtain ⟨hpct, hmoney⟩ := Prod.mk.inj (pure_eq_ok.mp hrun)
  obtain ⟨pass⟩ := Pipeline.process_passage hr
  have hplan : pass.applied.account.plan = a.plan := pass.applied_plan
  have hlimit : PerTradeMaxLossRule.planLimit pass.applied.account = some 100 := by
    simp [PerTradeMaxLossRule.planLimit, hplan, hpct, hmoney]
  have hexceeds : pass.ExceedsLossLimit := ⟨1000, 100, by decide +kernel, hlimit, by decide +kernel⟩
  exact ⟨a, r, ha, hr, (lossLimit_enforced_iff hr pass.toEvaluated hexceeds).2.2 _ rfl⟩

/-- A fill that loses ten times the limit is warned about, and nothing more. -/
theorem lossLimit_only_warns :
    (do
      let a ← (Account.new ⟨1⟩ ⟨1⟩ lossLimitPlan).start 0
      let r ← (Pipeline.ofPlan lossLimitPlan).process (.at 1) a (.tradeFilled (closingFill (-1000) 1))
      pure (PerTradeMaxLossRule.exitLoss (closingFill (-1000) 1), PerTradeMaxLossRule.planLimit a,
        r.result.decision.kind, r.account.status, liquidations r.events)) =
      .ok (some 1000, some 100, .warn, .active, []) := by
  decide +kernel

end Propfirm
