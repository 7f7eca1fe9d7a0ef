import Propfirm.Engine.Lemmas.Passage

/-!
# Violations and liquidations among the events

All other events of a call are routine.
-/

namespace Propfirm

open Fallible

variable {p : Pipeline} {env : Env} {a a' : Account} {ev : PipelineEvent} {r : PipelineResult}
  {d : Decision} {t : Timestamp} {actorId : String} {evs : List DomainEvent}

def liquidations (events : List DomainEvent) : List LiquidationInstruction :=
  events.filterMap fun e =>
    match e.kind with
    | .liquidationRequested i => some i
    | _ => none

def recordedViolations (events : List DomainEvent) : List Violation :=
  events.filterMap fun e =>
    match e.kind with
    | .ruleViolated v => some v
    | _ => none

/-! ## Routine events -/

def DomainEventKind.isRoutine : DomainEventKind → Bool
  | .ruleViolated _ | .liquidationRequested _ => false
  | _ => true

/-- There is neither a violation nor a liquidation among the events. -/
def Routine (events : List DomainEvent) : Prop := ∀ e ∈ events, e.kind.isRoutine = true

theorem Routine.append {evs'} (h : Routine evs) (h' : Routine evs') : Routine (evs ++ evs') :=
  fun e he => (List.mem_append.mp he).elim (h e) (h' e)

theorem Routine.liquidations (h : Routine evs) : liquidations evs = [] := by
  refine List.filterMap_eq_nil_iff.mpr fun e he => ?_
  have hroutine := h e he
  cases hkind : e.kind with
  | liquidationRequested i => rw [hkind] at hroutine; cases hroutine
  | _ => rfl

theorem Routine.recordedViolations (h : Routine evs) : recordedViolations evs = [] := by
  refine List.filterMap_eq_nil_iff.mpr fun e he => ?_
  have hroutine := h e he
  cases hkind : e.kind with
  | ruleViolated v => rw [hkind] at hroutine; cases hroutine
  | _ => rfl

theorem route_routine {routed} (h : route env a ev = .ok (routed, evs)) : Routine evs := by
  rcases route_events h with ⟨-, rfl⟩ | ⟨ts, rfl⟩ <;> simp [Routine, DomainEventKind.isRoutine]

theorem Effect.routine (h : Effect env a ev a' evs) : Routine evs := by
  cases h with
  | payoutRequest hquote hb =>
      refine List.forall_mem_cons.mpr ⟨rfl, fun e he => ?_⟩
      split at he
      · rw [List.mem_singleton.mp he]
        rfl
      · cases he
  | _ => simp [Routine, DomainEventKind.isRoutine]

theorem applyTargetHit_routine : Routine (applyTargetHit a d t).2 := by
  unfold applyTargetHit
  split <;> simp [Routine, DomainEventKind.isRoutine]

theorem applyPromotion_routine (h : applyPromotion a t = .ok (a', evs)) : Routine evs := by
  rcases applyPromotion_ok h with ⟨-, -, rfl⟩ | ⟨-, -, -, rfl⟩ <;>
    simp [Routine, DomainEventKind.isRoutine]

theorem decisionEvents_routine {id : AccountId} : Routine (decisionEvents id d t) := by
  unfold decisionEvents
  split <;> simp [Routine, DomainEventKind.isRoutine]

/-! ## Terminations -/

/-- The instruction that a terminating decision gives. -/
def Decision.liquidation (d : Decision) (a : Account) (serverTime : Timestamp) (actorId : String) :
    LiquidationInstruction :=
  .new a.id a.tenantId a.openPositions (liquidationReason d) (d.allViolations.head?.map Violation.id) actorId
    serverTime

theorem liquidations_append (xs ys : List DomainEvent) :
    liquidations (xs ++ ys) = liquidations xs ++ liquidations ys := List.filterMap_append

theorem recordedViolations_append (xs ys : List DomainEvent) :
    recordedViolations (xs ++ ys) = recordedViolations xs ++ recordedViolations ys :=
  List.filterMap_append

theorem applyTermination_liquidations :
    liquidations (applyTermination a d t actorId).2 =
      if d.kind = .liquidate ∨ d.kind = .emergency then [d.liquidation a t actorId] else [] := by
  unfold applyTermination Decision.accountStatusTarget
  cases hkind : d.kind <;> rfl

theorem applyTermination_recordedViolations :
    recordedViolations (applyTermination a d t actorId).2 = [] := by
  unfold applyTermination Decision.accountStatusTarget
  cases hkind : d.kind <;> rfl

/-- A decision requests at most one liquidation, of the account as it is after a promotion. -/
theorem applyDecision_liquidations (h : applyDecision a d t actorId = .ok (a', evs)) :
    ∃ promoted promotionEvents,
      applyPromotion (applyTargetHit a d t).1 t = .ok (promoted, promotionEvents) ∧
        a' = (applyTermination promoted d t actorId).1 ∧
        liquidations evs =
          if d.kind = .liquidate ∨ d.kind = .emergency then [d.liquidation promoted t actorId] else [] := by
  obtain ⟨promoted, promotionEvents, hpromotion, rfl, rfl⟩ := applyDecision_ok.mp h
  refine ⟨promoted, promotionEvents, hpromotion, rfl, ?_⟩
  rw [liquidations_append, (applyTargetHit_routine.append (applyPromotion_routine hpromotion)).liquidations,
    applyTermination_liquidations, List.nil_append]

namespace Passage

/-- The events of a call: routine ones around its termination, and its violations. -/
theorem events_routine (s : Passage p env a ev r) :
    ∃ before after, Routine before ∧ Routine after ∧
      r.events =
        before ++ (applyTermination s.promoted (s.decision p) env.contextNow ev.actorId).2 ++ after ++
          r.result.violations.map fun v => ⟨a.id, .ruleViolated v, env.contextNow⟩ := by
  obtain ⟨trades, heffect⟩ := applyEvent_effect s.apply_eq
  have htarget : Routine (applyTargetHit s.filled (s.decision p) env.contextNow).2 := applyTargetHit_routine
  have hbefore := ((route_routine s.route_eq).append heffect.routine).append
    (htarget.append (applyPromotion_routine s.promotion_eq))
  refine ⟨_, decisionEvents a.id (s.decision p) env.emitNow, hbefore, decisionEvents_routine, ?_⟩
  rw [s.events_eq]
  simp only [List.append_assoc]

theorem liquidations_eq (s : Passage p env a ev r) :
    liquidations r.events =
      if (s.decision p).kind = .liquidate ∨ (s.decision p).kind = .emergency then
        [(s.decision p).liquidation s.promoted env.contextNow ev.actorId]
      else [] := by
  obtain ⟨before, after, hbefore, hafter, heq⟩ := s.events_routine
  have hviolations (vs : List Violation) :
      liquidations (vs.map fun v => ⟨a.id, .ruleViolated v, env.contextNow⟩) = [] := by
    simp [liquidations, List.filterMap_map]
  rw [heq, liquidations_append, liquidations_append, liquidations_append, hbefore.liquidations,
    hafter.liquidations, hviolations, applyTermination_liquidations, List.nil_append, List.append_nil,
    List.append_nil]

theorem recordedViolations_eq (s : Passage p env a ev r) :
    recordedViolations r.events = r.result.violations := by
  obtain ⟨before, after, hbefore, hafter, heq⟩ := s.events_routine
  have hviolations (vs : List Violation) :
      recordedViolations (vs.map fun v => ⟨a.id, .ruleViolated v, env.contextNow⟩) = vs := by
    simp [recordedViolations, List.filterMap_map]
  rw [heq, recordedViolations_append, recordedViolations_append, recordedViolations_append,
    hbefore.recordedViolations, hafter.recordedViolations, hviolations,
    applyTermination_recordedViolations]
  rfl

end Passage

end Propfirm
