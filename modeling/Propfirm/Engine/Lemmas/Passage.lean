import Propfirm.Engine.Lemmas.Decision
import Propfirm.Engine.Lemmas.Rollover

/-!
# The stages of a processed event

A successful call passes through fixed stages: the account caught up with the calendar, the event
applied, the rules evaluated, the target marked, the phase promoted, the breach recorded. Everything
later proved about a call is read off these stages.
-/

namespace Propfirm

open Fallible

variable {p : Pipeline} {env : Env} {a a' : Account} {ev : PipelineEvent} {r : PipelineResult}
  {d : Decision} {t : Timestamp} {actorId : String}

/-! ## Applying a decision -/

theorem applyTargetHit_fst :
    (applyTargetHit a d t).1 = if d.kind = .targetHit then a.markTargetReached t else a := by
  unfold applyTargetHit
  split <;> rfl

/-- A reading that the mark of a target does not enter. -/
theorem applyTargetHit_reading {β : Type} (f : Account → β)
    (hf : ∀ (x : Account) (status : AccountStatus) (targetReachedAt : Option Timestamp)
      (targetReachedOnDay : Option ℕ), f { x with status, targetReachedAt, targetReachedOnDay } = f x) :
    f (applyTargetHit a d t).1 = f a := by
  rw [applyTargetHit_fst]
  split
  · unfold Account.markTargetReached
    split
    · exact hf a _ _ _
    · rfl
  · rfl

theorem applyTargetHit_plan : (applyTargetHit a d t).1.plan = a.plan :=
  applyTargetHit_reading Account.plan fun _ _ _ _ => rfl

theorem upgradeOrFail_ok {next : ChallengePhase} :
    upgradeOrFail a next = .ok a' ↔
      (a.plan.phase = .phase1 ∧ next = .phase2 ∨ a.plan.phase = .phase2 ∧ next = .funded) ∧
        a' = { a with plan := a.plan.withPhase next, accountType := .ofPhase next } := by
  cases hp : a.plan.phase <;> cases next <;>
    simp [upgradeOrFail, Account.upgradePhase, hp, raise, eq_comm]

def Account.promoted (a : Account) (next : ChallengePhase) : Account :=
  Account.beginPhase
    { a with status := .passed, plan := a.plan.withPhase next, accountType := .ofPhase next }

/-- A promotion moves one step up the ladder, or nothing happens. -/
theorem applyPromotion_ok {evs} (h : applyPromotion a t = .ok (a', evs)) :
    (a.promotable = false ∧ a' = a ∧ evs = []) ∨
      (a.promotable = true ∧ a.plan.phase ≠ .funded ∧ a' = a.promoted (nextPhaseFor a.plan.phase) ∧
        evs = [⟨a.id, .accountStatusChanged a.status .passed, t⟩,
          ⟨a.id, .planUpgraded a.plan.phase (nextPhaseFor a.plan.phase), t⟩]) := by
  unfold applyPromotion at h
  split at h
  · rename_i hp
    obtain ⟨upgraded, hu, h⟩ := bind_eq_ok.mp h
    obtain ⟨hphase, rfl⟩ := upgradeOrFail_ok.mp hu
    cases h
    refine .inr ⟨hp, ?_, rfl, rfl⟩
    rcases hphase with ⟨h1, -⟩ | ⟨h1, -⟩ <;> simp_all
  · rename_i hp
    cases h
    exact .inl ⟨by simpa using hp, rfl, rfl⟩

theorem applyPromotion_error {f} (h : applyPromotion a t = .error f) :
    a.promotable = true ∧ a.plan.phase = .funded := by
  unfold applyPromotion at h
  split at h
  · rename_i hp
    refine ⟨hp, ?_⟩
    cases hphase : a.plan.phase with
    | funded => rfl
    | phase1 =>
        simp [upgradeOrFail, Account.upgradePhase, hphase, nextPhaseFor, bind, Except.bind, pure,
          Except.pure] at h
    | phase2 =>
        simp [upgradeOrFail, Account.upgradePhase, hphase, nextPhaseFor, bind, Except.bind, pure,
          Except.pure] at h
  · cases h

theorem applyTermination_status :
    (applyTermination a d t actorId).1.status = d.accountStatusTarget.getD a.status := by
  unfold applyTermination
  cases d.accountStatusTarget <;> rfl

/-- Both targets of a decision are breaches, so the status before it is always remembered. -/
theorem applyTermination_statusBeforeBreach :
    (applyTermination a d t actorId).1.statusBeforeBreach =
      if d.accountStatusTarget.isSome then some a.status else a.statusBeforeBreach := by
  unfold applyTermination Decision.accountStatusTarget
  cases d.kind <;> rfl

theorem applyTermination_plan : (applyTermination a d t actorId).1.plan = a.plan := by
  unfold applyTermination
  cases d.accountStatusTarget <;> rfl

theorem applyDecision_ok {evs} :
    applyDecision a d t actorId = .ok (a', evs) ↔
      ∃ promoted promotionEvents,
        applyPromotion (applyTargetHit a d t).1 t = .ok (promoted, promotionEvents) ∧
          a' = (applyTermination promoted d t actorId).1 ∧
          evs = (applyTargetHit a d t).2 ++ promotionEvents ++
            (applyTermination promoted d t actorId).2 := by
  unfold applyDecision
  generalize applyTargetHit a d t = marked
  simp only [bind_eq_ok, Prod.exists]
  refine exists_congr fun promoted => exists_congr fun promotionEvents => and_congr_right fun _ => ?_
  rw [pure_eq_ok, Prod.mk.injEq]
  exact and_congr eq_comm eq_comm

/-- A decision that changes the phase promotes the account, after marking the target. -/
theorem applyDecision_promoted {evs} (h : applyDecision a d t actorId = .ok (a', evs))
    (hphase : a'.plan.phase ≠ a.plan.phase) :
    (applyTargetHit a d t).1.promotable = true ∧
      a' = (applyTermination ((applyTargetHit a d t).1.promoted (nextPhaseFor a.plan.phase)) d t
        actorId).1 := by
  obtain ⟨promoted, promotionEvents, hp, rfl, -⟩ := applyDecision_ok.mp h
  rw [applyTermination_plan] at hphase
  rcases applyPromotion_ok hp with ⟨-, rfl, -⟩ | ⟨hpromotable, -, rfl, -⟩
  · exact absurd (congrArg ChallengePlan.phase applyTargetHit_plan) hphase
  · exact ⟨hpromotable, by rw [applyTargetHit_plan]⟩

/-! ## Evaluation of an event -/

/-- An event that was applied: the account before it and the state the rules see. -/
structure Evaluated (env : Env) (a : Account) (ev : PipelineEvent) where
  routed : Account
  rolloverEvents : List DomainEvent
  applied : AppliedEvent
  route_eq : route env a ev = .ok (routed, rolloverEvents)
  apply_eq : applyEvent env routed ev = .ok applied

namespace Evaluated

def ctx (s : Evaluated env a ev) : RuleContext := buildContext env s.applied ev

def reports (s : Evaluated env a ev) (p : Pipeline) : List RuleReport :=
  p.registry.evaluate s.ctx env.reportNow

def decision (s : Evaluated env a ev) (p : Pipeline) : Decision := .fromReports (s.reports p)

def filled (s : Evaluated env a ev) : Account := consumeFill s.applied.account s.applied.tradeFill

def marked (s : Evaluated env a ev) (p : Pipeline) : Account :=
  (applyTargetHit s.filled (s.decision p) env.contextNow).1

def terminated (s : Evaluated env a ev) (p : Pipeline) (promoted : Account) : Account :=
  (applyTermination promoted (s.decision p) env.contextNow ev.actorId).1

end Evaluated

theorem Evaluated.filled_eq (s : Evaluated env a ev) (hev : ∀ trade, ev ≠ .tradeFilled trade) :
    s.filled = s.applied.account := by
  rw [filled, applyEvent_tradeFill s.apply_eq hev]
  rfl

@[simp] theorem buildContext_serverTime (applied : AppliedEvent) :
    (buildContext env applied ev).serverTime = env.contextNow := by
  cases ev <;> rfl

@[simp] theorem buildContext_account (applied : AppliedEvent) :
    (buildContext env applied ev).account = applied.account := by
  cases ev <;> rfl

theorem buildContext_ruleConfig (applied : AppliedEvent) :
    (buildContext env applied ev).ruleConfig = .fromPlan applied.account.plan := by
  cases ev <;> rfl

theorem buildContext_openPositions (applied : AppliedEvent) :
    (buildContext env applied ev).openPositions = applied.openPositions := by
  cases ev <;> rfl

theorem buildContext_todayTrades (applied : AppliedEvent) :
    (buildContext env applied ev).todayTrades = applied.todayTrades := by
  cases ev <;> rfl

theorem Evaluated.order_kind {order : Order} (s : Evaluated env a (.orderSubmitted order)) :
    s.ctx.kind = .onOrderSubmit := by
  obtain ⟨day, -, h⟩ := bind_eq_ok.mp s.apply_eq
  rw [ctx, ← Except.ok.inj h]
  rfl

theorem buildContext_instruments (applied : AppliedEvent) :
    (buildContext env applied ev).instruments = .new := by
  cases ev <;> rfl

/-- A call that returned, with the states it went through. -/
structure Passage (p : Pipeline) (env : Env) (a : Account) (ev : PipelineEvent) (r : PipelineResult)
    extends Evaluated env a ev where
  promoted : Account
  promotionEvents : List DomainEvent
  promotion_eq :
    applyPromotion (toEvaluated.marked p) env.contextNow = .ok (promoted, promotionEvents)
  account_eq : r.account = stampTick (toEvaluated.terminated p promoted) ev
  result_eq : r.result = ⟨toEvaluated.reports p, toEvaluated.decision p⟩
  events_eq :
    r.events =
      rolloverEvents ++ applied.events ++
        ((applyTargetHit toEvaluated.filled (toEvaluated.decision p) env.contextNow).2 ++
          promotionEvents ++
          (applyTermination promoted (toEvaluated.decision p) env.contextNow ev.actorId).2) ++
        decisionEvents a.id (toEvaluated.decision p) env.emitNow ++
        (r.result.violations.map fun v => ⟨a.id, .ruleViolated v, env.contextNow⟩)

theorem Pipeline.process_passage (h : p.process env a ev = .ok r) : Nonempty (Passage p env a ev r) := by
  obtain ⟨⟨routed, rolloverEvents⟩, hroute, h⟩ := bind_eq_ok.mp h
  obtain ⟨applied, happly, h⟩ := bind_eq_ok.mp h
  obtain ⟨⟨decided, statusEvents⟩, hdecision, h⟩ := bind_eq_ok.mp h
  obtain ⟨⟨⟩, -, h⟩ := bind_eq_ok.mp h
  simp only [buildContext_serverTime] at hdecision h
  obtain ⟨promoted, promotionEvents, hpromotion, rfl, rfl⟩ := applyDecision_ok.mp hdecision
  obtain rfl := pure_eq_ok.mp h
  exact
    ⟨{ routed, rolloverEvents, applied, route_eq := hroute, apply_eq := happly, promoted
       promotionEvents, promotion_eq := hpromotion, account_eq := rfl, result_eq := rfl
       events_eq := rfl }⟩

theorem Passage.applyDecision_eq (s : Passage p env a ev r) :
    ∃ evs, applyDecision s.filled (s.decision p) env.contextNow ev.actorId =
      .ok (s.terminated p s.promoted, evs) :=
  ⟨_, applyDecision_ok.mpr ⟨_, _, s.promotion_eq, rfl, rfl⟩⟩

/-! ## Readings

What the later stages leave alone is read off the account in front of them. -/

/-- A reading that the catch-up does not enter. -/
theorem Evaluated.routed_reading {β : Type} (s : Evaluated env a ev) (f : Account → β)
    (hf : ∀ x : Account, f x.outsideDays = f x) : f s.routed = f a :=
  eq_of_outsideDays (route_outsideDays s.route_eq) f hf

/-- A reading that neither the catch-up nor an event enters. -/
theorem Evaluated.event_reading {β : Type} (s : Evaluated env a ev) (f : Account → β)
    (hdays : ∀ x : Account, f x.outsideDays = f x) (hevents : ∀ x : Account, f x.outsideEvents = f x) :
    f s.applied.account = f a := by
  obtain ⟨trades, htr⟩ := applyEvent_transition s.apply_eq
  have hpruned : f { s.routed with todayTrades := trades } = f s.routed := by
    rw [← hdays s.routed, ← hdays { s.routed with todayTrades := trades }]
    rfl
  exact (htr.reading f hevents).trans (hpruned.trans (s.routed_reading f hdays))

/-- A reading that neither a fill's lists nor the mark of a target enter. -/
theorem Evaluated.marked_reading {β : Type} (s : Evaluated env a ev) (p : Pipeline) (f : Account → β)
    (hf : ∀ (x : Account) (openPositions : List Position) (todayTrades : List Trade)
      (status : AccountStatus) (targetReachedAt : Option Timestamp) (targetReachedOnDay : Option ℕ),
      f { x with openPositions, todayTrades, status, targetReachedAt, targetReachedOnDay } = f x) :
    f (s.marked p) = f s.applied.account := by
  have hfilled : f s.filled = f s.applied.account := by
    rw [filled]
    cases s.applied.tradeFill with
    | none => rfl
    | some fill =>
        exact hf s.applied.account _ _ _ s.applied.account.targetReachedAt
          s.applied.account.targetReachedOnDay
  have hmarked : f (s.marked p) = f s.filled :=
    applyTargetHit_reading f fun x => hf x x.openPositions x.todayTrades
  exact hmarked.trans hfilled

/-- A reading that neither the record of a breach nor the last tick enter. -/
theorem Passage.account_reading {β : Type} (s : Passage p env a ev r) (f : Account → β)
    (hf : ∀ (x : Account) (status : AccountStatus) (statusBeforeBreach : Option AccountStatus)
      (lastTickTs : Option Timestamp), f { x with status, statusBeforeBreach, lastTickTs } = f x) :
    f r.account = f s.promoted := by
  have hstamp (x : Account) : f (stampTick x ev) = f x := by
    cases ev with
    | tick tick equity balance => exact hf x _ _ _
    | tickEstimated tick => exact hf x _ _ _
    | _ => rfl
  rw [s.account_eq, hstamp, Evaluated.terminated]
  unfold applyTermination
  cases (s.decision p).accountStatusTarget with
  | none => rfl
  | some target => exact hf s.promoted _ _ s.promoted.lastTickTs

/-- A reading that nothing after the event enters. -/
theorem Passage.applied_reading {β : Type} (s : Passage p env a ev r) (f : Account → β)
    (hmark : ∀ (x : Account) (openPositions : List Position) (todayTrades : List Trade)
      (status : AccountStatus) (targetReachedAt : Option Timestamp) (targetReachedOnDay : Option ℕ),
      f { x with openPositions, todayTrades, status, targetReachedAt, targetReachedOnDay } = f x)
    (hpromote : ∀ (x : Account) (next : ChallengePhase), f (x.promoted next) = f x)
    (hbreach : ∀ (x : Account) (status : AccountStatus) (statusBeforeBreach : Option AccountStatus)
      (lastTickTs : Option Timestamp), f { x with status, statusBeforeBreach, lastTickTs } = f x) :
    f r.account = f s.applied.account := by
  rw [s.account_reading f hbreach, ← s.marked_reading p f hmark]
  rcases applyPromotion_ok s.promotion_eq with ⟨-, heq, -⟩ | ⟨-, -, heq, -⟩
  · rw [heq]
  · rw [heq, hpromote]

/-- Nothing after the fill touches the list. -/
theorem Passage.account_todayTrades (s : Passage p env a ev r) :
    r.account.todayTrades = s.filled.todayTrades := by
  have hmarked : (s.marked p).todayTrades = s.filled.todayTrades :=
    applyTargetHit_reading Account.todayTrades fun _ _ _ _ => rfl
  rw [s.account_reading Account.todayTrades fun _ _ _ _ => rfl, ← hmarked]
  rcases applyPromotion_ok s.promotion_eq with ⟨-, heq, -⟩ | ⟨-, -, heq, -⟩
  · rw [heq]
  · rw [heq]
    rfl

/-! ## Failure -/

theorem applyDecision_error {f} (h : applyDecision a d t actorId = .error f) :
    applyPromotion (applyTargetHit a d t).1 t = .error f := by
  unfold applyDecision at h
  generalize applyTargetHit a d t = marked at h ⊢
  rcases bind_eq_error.mp h with h | ⟨_, -, h⟩
  · exact h
  · cases h

theorem Pipeline.notifyAll_error {vs f} (h : p.notifyAll vs = .error f) :
    ∃ v, p.notifyViolation v = .error f := by
  induction vs with
  | nil => cases h
  | cons v vs ih =>
      rcases bind_eq_error.mp h with h | ⟨_, -, h⟩
      · exact ⟨v, h⟩
      · exact ih h

/-- Once the event is applied, only a refused promotion or the notifier makes the call fail. -/
theorem Evaluated.process_error {f} (s : Evaluated env a ev) (h : p.process env a ev = .error f) :
    applyPromotion (s.marked p) env.contextNow = .error f ∨ ∃ v, p.notifyViolation v = .error f := by
  rcases bind_eq_error.mp h with h | ⟨⟨routed, evs⟩, hroute, h⟩
  · rw [s.route_eq] at h; cases h
  · rw [s.route_eq] at hroute
    obtain ⟨rfl, -⟩ := Prod.mk.inj (Except.ok.inj hroute)
    rcases bind_eq_error.mp h with h | ⟨applied, happly, h⟩
    · rw [s.apply_eq] at h; cases h
    · rw [s.apply_eq] at happly
      obtain rfl := Except.ok.inj happly
      simp only [buildContext_serverTime] at h
      rcases bind_eq_error.mp h with h | ⟨_, -, h⟩
      · exact .inl (applyDecision_error h)
      · rcases bind_eq_error.mp h with h | ⟨_, -, h⟩
        · exact .inr (Pipeline.notifyAll_error h)
        · cases h

end Propfirm
