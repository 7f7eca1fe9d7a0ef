import Propfirm.Engine.Lemmas.Passage

/-!
# The plan and the target mark through the stages
-/

namespace Propfirm

open Fallible

variable {p : Pipeline} {env : Env} {a b : Account} {ev : PipelineEvent} {r : PipelineResult}

/-- The part of the account that only a target or a promotion rewrites. -/
structure Ladder where
  plan : ChallengePlan
  initialBalance : Money
  targetReachedAt : Option Timestamp

def Account.ladder (a : Account) : Ladder := ⟨a.plan, a.initialBalance, a.targetReachedAt⟩

/-! ## Stages -/

namespace Evaluated

/-- No event by itself moves the account on the ladder. -/
theorem applied_ladder (s : Evaluated env a ev) : s.applied.account.ladder = a.ladder :=
  s.event_reading Account.ladder (fun _ => rfl) fun _ => rfl

theorem applied_plan (s : Evaluated env a ev) : s.applied.account.plan = a.plan :=
  congrArg Ladder.plan s.applied_ladder

theorem ctx_plan (s : Evaluated env a ev) : s.ctx.account.plan = a.plan := by
  rw [ctx, buildContext_account, s.applied_plan]

theorem ctx_initialBalance (s : Evaluated env a ev) :
    s.ctx.account.initialBalance = a.initialBalance := by
  rw [ctx, buildContext_account]
  exact congrArg Ladder.initialBalance s.applied_ladder

theorem filled_ladder (s : Evaluated env a ev) : s.filled.ladder = a.ladder := by
  rw [← s.applied_ladder, filled]
  cases s.applied.tradeFill <;> rfl

theorem marked_plan (s : Evaluated env a ev) (p : Pipeline) : (s.marked p).plan = a.plan :=
  (s.marked_reading p Account.plan fun _ _ _ _ _ _ => rfl).trans
    s.applied_plan

theorem marked_targetReachedAt (s : Evaluated env a ev) (h : (s.decision p).kind ≠ .targetHit) :
    (s.marked p).targetReachedAt = a.targetReachedAt := by
  rw [marked, applyTargetHit_fst, if_neg h]
  exact congrArg Ladder.targetReachedAt s.filled_ladder

end Evaluated

namespace Passage

theorem account_plan (s : Passage p env a ev r) : r.account.plan = s.promoted.plan :=
  s.account_reading Account.plan fun _ _ _ _ => rfl

theorem account_targetReachedAt (s : Passage p env a ev r) :
    r.account.targetReachedAt = s.promoted.targetReachedAt :=
  s.account_reading Account.targetReachedAt fun _ _ _ _ => rfl

theorem promoted_eq_marked (s : Passage p env a ev r) (h : (s.marked p).promotable = false) :
    s.promoted = s.marked p := by
  rcases applyPromotion_ok s.promotion_eq with ⟨-, heq, -⟩ | ⟨hp, -⟩
  · exact heq
  · rw [h] at hp; cases hp

/-- A reading that only a promotion enters after the event. -/
theorem unpromoted_reading {β : Type} (s : Passage p env a ev r) (h : (s.marked p).promotable = false)
    (f : Account → β)
    (hmark : ∀ (x : Account) (openPositions : List Position) (todayTrades : List Trade)
      (status : AccountStatus) (targetReachedAt : Option Timestamp) (targetReachedOnDay : Option ℕ),
      f { x with openPositions, todayTrades, status, targetReachedAt, targetReachedOnDay } = f x)
    (hbreach : ∀ (x : Account) (status : AccountStatus) (statusBeforeBreach : Option AccountStatus)
      (lastTickTs : Option Timestamp), f { x with status, statusBeforeBreach, lastTickTs } = f x) :
    f r.account = f s.applied.account := by
  rw [s.account_reading f hbreach, s.promoted_eq_marked h, s.marked_reading p f hmark]

theorem account_plan_of_not_promotable (s : Passage p env a ev r)
    (h : (s.marked p).promotable = false) : r.account.plan = a.plan := by
  rw [s.account_plan, s.promoted_eq_marked h, s.marked_plan]

theorem not_promotable_of_no_target (s : Passage p env a ev r) (hkind : r.result.decision.kind ≠ .targetHit)
    (htarget : a.targetReachedAt = none) : (s.marked p).promotable = false := by
  rw [s.result_eq] at hkind
  rw [Account.promotable, s.marked_targetReachedAt hkind, htarget]
  rfl

/-- The plan changes exactly when the account is promoted, and then by one step of the ladder. -/
theorem account_phase (s : Passage p env a ev r) :
    ((s.marked p).promotable = false ∧ r.account.plan = a.plan) ∨
      ((s.marked p).promotable = true ∧ a.plan.phase ≠ .funded ∧
        s.promoted = (s.marked p).promoted (nextPhaseFor a.plan.phase) ∧
        r.account.plan = a.plan.withPhase (nextPhaseFor a.plan.phase)) := by
  rcases applyPromotion_ok s.promotion_eq with ⟨hp, -, -⟩ | ⟨hp, hphase, heq, -⟩
  · exact .inl ⟨hp, s.account_plan_of_not_promotable hp⟩
  · rw [s.marked_plan] at hphase heq
    refine .inr ⟨hp, hphase, heq, ?_⟩
    rw [s.account_plan, heq]
    change (s.marked p).plan.withPhase _ = _
    rw [s.marked_plan]

theorem not_promotable_of_phase (s : Passage p env a ev r) (h : r.account.plan.phase = a.plan.phase) :
    (s.marked p).promotable = false := by
  rcases s.account_phase with ⟨hp, -⟩ | ⟨-, hfunded, -, hplan⟩
  · exact hp
  · rw [hplan] at h
    cases hphase : a.plan.phase <;> simp [hphase, ChallengePlan.withPhase, nextPhaseFor] at h hfunded

end Passage

end Propfirm
