import Propfirm.Engine.Lemmas.Targets
import Propfirm.Events.Lemmas

/-!
# The status of a replayed account
-/

namespace Propfirm

open Fallible Replay

variable {p : Pipeline} {env : Env} {a b : Account} {ev : PipelineEvent} {r : PipelineResult}
  {d : Decision} {t : Timestamp} {actorId : String} {id : AccountId} {tenantId : TenantId}
  {plan : ChallengePlan} {log evs : List DomainEvent} {status : AccountStatus}

/-! ## The stages of a call -/

theorem route_statusThrough (h : route env a ev = .ok (b, evs)) : statusThrough status evs = status := by
  rcases route_events h with ⟨-, rfl⟩ | ⟨ts, rfl⟩ <;> rfl

/-- Replay follows every event but an override, after which it has the account active. -/
theorem Effect.statusThrough_eq (h : Effect env a ev b evs) (hev : ev.isStart = false) :
    statusThrough a.status evs = if ev.isOverrideBreach then .active else b.status := by
  cases h with
  | accountStarted h => cases hev
  | orderSubmitted => rfl
  | tradeFilled h =>
      simp [statusThrough, DomainEventKind.statusAfter, PipelineEvent.isOverrideBreach,
        Account.applyRealizedPnl]
  | tick h => rfl
  | tickEstimated h => rfl
  | dayRollover h => exact (eq_of_outsideDays (rolloverDay_outsideDays h) Account.status fun _ => rfl).symm
  | endOfDay => rfl
  | onDemand => rfl
  | emergencyStop => rfl
  | overrideBreach h => rfl
  | payoutRequest hq h =>
      obtain ⟨-, rfl⟩ := Account.markPayoutPending_ok h
      dsimp only
      split <;> rfl
  | payoutApprove hq h =>
      obtain ⟨-, rfl⟩ := recordPayout_eq h
      rfl

theorem applyTargetHit_statusThrough :
    statusThrough status (applyTargetHit a d t).2 =
      if d.kind = .targetHit then .targetHitPending else status := by
  unfold applyTargetHit
  split <;> rfl

theorem applyPromotion_statusThrough (h : applyPromotion a t = .ok (b, evs)) :
    statusThrough status evs = if a.promotable then .passed else status := by
  rcases applyPromotion_ok h with ⟨hp, -, rfl⟩ | ⟨hp, -, -, rfl⟩ <;> rw [hp] <;> rfl

/-- What replay makes of a decision that terminates the account. -/
def DecisionKind.replayedStatus (status : AccountStatus) : DecisionKind → AccountStatus
  | .fail | .liquidate => .failed
  | .emergency => .closed
  | _ => status

theorem termination_statusThrough {now : Timestamp} :
    statusThrough (statusThrough status (applyTermination a d t actorId).2) (decisionEvents id d now) =
      d.kind.replayedStatus status := by
  unfold applyTermination decisionEvents Decision.accountStatusTarget
  cases d.kind <;> rfl

theorem violations_statusThrough (vs : List Violation) :
    statusThrough status (vs.map fun v => ⟨id, .ruleViolated v, t⟩) =
      ((vs.filterMap fun v => v.kind.terminal).getLast?).getD status := by
  induction vs generalizing status with
  | nil => rfl
  | cons v vs ih =>
      refine (@ih (v.kind.terminal.getD status)).trans ?_
      cases hv : v.kind.terminal with
      | none => simp only [List.filterMap_cons, hv, Option.getD_none]
      | some status' => simp only [List.filterMap_cons, hv, List.getLast?_cons, Option.getD_some]

/-! ## A whole call -/

namespace Evaluated

def violations (s : Evaluated env a ev) (p : Pipeline) : List Violation :=
  (s.reports p).filterMap fun rep => rep.verdict.violation

/-- The status of the last violation that replay takes for the end of the account. -/
def lastTerminal (s : Evaluated env a ev) (p : Pipeline) : Option AccountStatus :=
  ((s.violations p).filterMap fun v => v.kind.terminal).getLast?

/-- Replay reaches the status that the call leaves. After a violation that it takes for the end, the
account has to have come to that end; otherwise nothing may happen that it reads differently: no
emergency, no promotion, no target on an account that does not wait for one, no override to another
status than active. -/
def StatusReplays (s : Evaluated env a ev) (p : Pipeline) : Prop :=
  match s.lastTerminal p with
  | some status =>
      (s.decision p).accountStatusTarget = some status ∨
        (s.decision p).accountStatusTarget = none ∧ (s.marked p).promotable = false ∧
          s.applied.account.status = status
  | none =>
      (s.decision p).accountStatusTarget = some .failed ∨
        (s.decision p).accountStatusTarget = none ∧ (s.marked p).promotable = false ∧
          if (s.decision p).kind = .targetHit then
            s.applied.account.status = .targetHitPending ∨
              s.applied.account.status = .active ∧ s.applied.account.targetReachedAt = none
          else ev.isOverrideBreach = true → s.applied.account.status = .active

theorem lastTerminal_cases {s : Evaluated env a ev} (h : s.lastTerminal p = some status) :
    status = .failed ∨ status = .passed := by
  have hmem := List.mem_of_getLast? h
  obtain ⟨v, -, hv⟩ := List.mem_filterMap.mp hmem
  unfold ViolationKind.terminal at hv
  split at hv
  · exact .inl (Option.some.inj hv).symm
  · exact .inl (Option.some.inj hv).symm
  · exact .inl (Option.some.inj hv).symm
  · exact .inr (Option.some.inj hv).symm
  · cases hv

end Evaluated

theorem Passage.decisionLog_statusThrough (s : Passage p env a ev r) :
    statusThrough status s.decisionLog =
      (s.lastTerminal p).getD ((s.decision p).kind.replayedStatus
        (if (s.marked p).promotable then .passed
        else if (s.decision p).kind = .targetHit then .targetHitPending else status)) := by
  have hviolations : r.result.violations = s.violations p := by rw [s.result_eq]; rfl
  simp only [decisionLog, statusThrough_append, applyTargetHit_statusThrough,
    applyPromotion_statusThrough s.promotion_eq, termination_statusThrough, violations_statusThrough,
    hviolations, Evaluated.lastTerminal]

theorem Passage.promoted_status_eq (s : Passage p env a ev r) :
    s.promoted.status = if (s.marked p).promotable then .active else (s.marked p).status := by
  cases hp : (s.marked p).promotable with
  | true => exact s.promoted_status_of_promotable hp
  | false => rw [s.promoted_eq_marked hp]; rfl

theorem Passage.marked_pending_iff (s : Passage p env a ev r) (h : (s.decision p).kind = .targetHit) :
    (s.marked p).status = .targetHitPending ↔
      s.applied.account.status = .targetHitPending ∨
        s.applied.account.status = .active ∧ s.applied.account.targetReachedAt = none := by
  rw [Evaluated.marked, applyTargetHit_fst, if_pos h, markTargetReached_pending_iff, s.filled_status,
    s.filled_targetReachedAt]

theorem Passage.marked_terminal_iff (s : Passage p env a ev r) (h : s.lastTerminal p = some status) :
    (s.marked p).status = status ↔ s.applied.account.status = status := by
  rcases s.marked_status p with heq | ⟨hactive, hpending⟩
  · rw [heq]
  · rcases Evaluated.lastTerminal_cases h with rfl | rfl <;> simp [hactive, hpending]

/-- From the status that replay gives to the event, the rest of the call leads to its final status
exactly under these conditions. -/
theorem Passage.statusThrough_iff (s : Passage p env a ev r) :
    statusThrough (if ev.isOverrideBreach then .active else s.applied.account.status) s.decisionLog =
        r.account.status ↔ s.StatusReplays p := by
  rw [s.decisionLog_statusThrough, s.account_status, s.promoted_status_eq, Evaluated.StatusReplays]
  cases hlast : s.lastTerminal p with
  | some status =>
      have hmarked := s.marked_terminal_iff hlast
      cases (s.decision p).accountStatusTarget with
      | some target =>
          simp only [Option.getD_some, Option.some.injEq, reduceCtorEq, false_and, or_false]
          exact eq_comm
      | none =>
          cases (s.marked p).promotable with
          | true => rcases Evaluated.lastTerminal_cases hlast with rfl | rfl <;> simp
          | false =>
              simp only [Option.getD_some, Option.getD_none, Bool.false_eq_true, if_false, reduceCtorEq,
                false_or, true_and]
              exact eq_comm.trans hmarked
  | none =>
      unfold Decision.accountStatusTarget
      by_cases htarget : (s.decision p).kind = .targetHit
      · have hpending := s.marked_pending_iff htarget
        cases (s.marked p).promotable with
        | true => simp [htarget, DecisionKind.replayedStatus]
        | false =>
            simp only [htarget, DecisionKind.replayedStatus, Option.getD_none, Bool.false_eq_true,
              if_false, if_true, reduceCtorEq, false_or, true_and]
            exact eq_comm.trans hpending
      · rw [s.marked_status_of_not_targetHit htarget]
        cases hk : (s.decision p).kind with
        | targetHit => exact absurd hk htarget
        | fail => simp [DecisionKind.replayedStatus]
        | liquidate => simp [DecisionKind.replayedStatus]
        | emergency => simp [DecisionKind.replayedStatus]
        | _ =>
            cases (s.marked p).promotable with
            | true => simp [DecisionKind.replayedStatus]
            | false =>
                cases ev.isOverrideBreach with
                | true => simpa [DecisionKind.replayedStatus] using eq_comm
                | false => simp [DecisionKind.replayedStatus]

/-! ## A whole run -/

def SameStatus (a acc : Account) : Prop := acc.status = a.status

theorem Passage.statusThrough_events (s : Passage p env a ev r) (hev : ev.isStart = false) :
    statusThrough a.status r.events =
      statusThrough (if ev.isOverrideBreach then .active else s.applied.account.status) s.decisionLog := by
  obtain ⟨trades, heffect⟩ := applyEvent_effect s.apply_eq
  have hevent := heffect.statusThrough_eq hev
  rw [s.events_split, statusThrough_append, statusThrough_append, route_statusThrough s.route_eq,
    ← s.routed_status]
  exact congrArg (statusThrough · s.decisionLog) hevent

/-- On an account that has been started, a replay that has its status keeps it through the events of a
call exactly under these conditions. -/
theorem Passage.reproduces_status_iff {acc : Account} (s : Passage p env a ev r)
    (hev : ev.isStart = false) (hacc : SameStatus a acc) :
    Reproduces (replayEvent id) SameStatus acc r.account r.events ↔ s.StatusReplays p := by
  obtain ⟨final, hfinal, hstatus⟩ :=
    replay_status (fun e he => (s.events_isOf_not_start hev e he).start_eq) acc
  rw [← s.statusThrough_iff, ← s.statusThrough_events hev, ← hacc, ← hstatus]
  constructor
  · rintro ⟨final', hfinal', hsame⟩
    obtain rfl := Except.ok.inj (hfinal.symm.trans hfinal')
    exact hsame
  · exact fun hsame => ⟨final, hfinal, hsame⟩

theorem Passage.reproduces_first {acc : Account}
    (s : Passage p env (.new id tenantId plan) (.accountStarted t) r)
    (hacc : acc.status = .active) (h : s.StatusReplays p) :
    Reproduces (replayEvent id) SameStatus acc r.account s.decisionLog := by
  obtain ⟨⟨trades, hstart⟩, -⟩ := s.first
  have happlied : s.applied.account.status = .active := (Account.start_ok hstart).2.1
  obtain ⟨final, hfinal, hstatus⟩ :=
    replay_status (fun e he => (s.decisionLog_isOf e he).start_eq) acc
  refine ⟨final, hfinal, hstatus.trans ?_⟩
  have hthrough := s.statusThrough_iff.mpr h
  rw [happlied] at hthrough
  rw [hacc]
  exact hthrough

/-- One call of a run that replay can follow, with the events so far. -/
inductive StatusStep : Account × List DomainEvent → Account × List DomainEvent → Prop
  | step {p env a ev r past} (s : Evaluated env a ev) :
      Pipeline.process p env a ev = .ok r → s.StatusReplays p →
        StatusStep (a, past) (r.account, past ++ r.events)

theorem StatusStep.recorded {x y : Account × List DomainEvent}
    (h : Recorded SameStatus id tenantId plan x.1 x.2) (hstep : StatusStep x y) :
    Recorded SameStatus id tenantId plan y.1 y.2 := by
  cases hstep with
  | step s hp hreplays =>
      obtain ⟨pass⟩ := Pipeline.process_passage hp
      obtain rfl := s.subsingleton pass.toEvaluated
      have hev := pass.not_start h.started
      exact h.extend pass fun acc hacc => (pass.reproduces_status_iff hev hacc).mpr hreplays

/-- In a run from the start of a new account whose calls replay can all follow, the replayed account has
the status of the account. -/
theorem replayed_status_eq (h : p.process env (.new id tenantId plan) (.accountStarted t) = .ok r)
    (s : Evaluated env (.new id tenantId plan) (.accountStarted t)) (hs : s.StatusReplays p)
    (hrun : Relation.ReflTransGen StatusStep (r.account, r.events) (a, log)) (replayTenant : TenantId) :
    ((InMemoryEventStore.empty.appendAll log).replay id replayTenant).map Account.status = .ok a.status := by
  obtain ⟨pass⟩ := Pipeline.process_passage h
  obtain rfl := s.subsingleton pass.toEvaluated
  have hfirst : Recorded SameStatus id replayTenant plan r.account r.events :=
    .first pass fun acc hacc => pass.reproduces_first (Account.start_ok hacc).2.1 hs
  have hrecorded := invariant_of_run (fun x => Recorded SameStatus id replayTenant plan x.1 x.2)
    (fun _ _ hx hstep => hstep.recorded hx) hrun hfirst
  obtain ⟨acc, hacc, hsame⟩ := hrecorded.replay
  exact map_eq_ok.mpr ⟨acc, hacc, hsame⟩

/-- A call without a target, an end or an override is followed if no violation looks terminal. -/
theorem Passage.statusReplays_of_calm (s : Passage p env a ev r)
    (hviolations : r.result.violations.filterMap (fun v => v.kind.terminal) = [])
    (hkind : r.result.decision.kind = .warn) (htarget : a.targetReachedAt = none)
    (hev : ev.isOverrideBreach = false) : s.StatusReplays p := by
  have hp := s.not_promotable_of_no_target (by rw [hkind]; decide) htarget
  rw [s.result_eq] at hviolations hkind
  have hkind' : (s.decision p).kind = .warn := hkind
  have hlast : s.lastTerminal p = none := by
    rw [Evaluated.lastTerminal]
    exact congrArg List.getLast? hviolations
  rw [Evaluated.StatusReplays, hlast]
  refine .inr ⟨by rw [Decision.accountStatusTarget, hkind'], hp, ?_⟩
  rw [hkind', hev]
  simp

/-- A plan without drawdown limits and target. -/
def calmPlan : ChallengePlan :=
  { ChallengePlan.default ⟨1⟩ 0 with
    maxDailyDrawdownPct := 0
    maxTotalDrawdownPct := 0
    profitTargetPct := 0 }

theorem replayed_status_stopped :
    ∃ (r r' : PipelineResult),
      (Pipeline.ofPlan calmPlan).process (.at 0) (.new ⟨1⟩ ⟨1⟩ calmPlan) (.accountStarted 0) = .ok r ∧
        (Pipeline.ofPlan calmPlan).process (.at 1) r.account (.emergencyStop "" "" 1) = .ok r' ∧
        r'.account.status = .emergencyStopped ∧
        ((InMemoryEventStore.empty.appendAll (r.events ++ r'.events)).replay ⟨1⟩ ⟨2⟩).map Account.status =
          .ok r'.account.status := by
  have hrun :
      (do
        let r ← (Pipeline.ofPlan calmPlan).process (.at 0) (.new ⟨1⟩ ⟨1⟩ calmPlan) (.accountStarted 0)
        let r' ← (Pipeline.ofPlan calmPlan).process (.at 1) r.account (.emergencyStop "" "" 1)
        pure ((r.result.violations.filterMap (fun v : Violation => v.kind.terminal), r.result.decision.kind,
            r.account.targetReachedAt),
          (r'.result.violations.filterMap (fun v : Violation => v.kind.terminal), r'.result.decision.kind,
            r'.account.status))) =
        .ok (([], .warn, none), ([], .warn, .emergencyStopped)) := by
    decide +kernel
  obtain ⟨r, h, hrun⟩ := bind_eq_ok.mp hrun
  obtain ⟨r', h', hrun⟩ := bind_eq_ok.mp hrun
  have hfacts := pure_eq_ok.mp hrun
  simp only [Prod.mk.injEq] at hfacts
  obtain ⟨⟨hviolations, hkind, htarget⟩, hviolations', hkind', hstatus⟩ := hfacts
  obtain ⟨pass⟩ := Pipeline.process_passage h
  obtain ⟨pass'⟩ := Pipeline.process_passage h'
  have hstep : StatusStep (r.account, r.events) (r'.account, r.events ++ r'.events) :=
    .step pass'.toEvaluated h' (pass'.statusReplays_of_calm hviolations' hkind' htarget rfl)
  exact ⟨r, r', h, h', hstatus,
    replayed_status_eq h pass.toEvaluated (pass.statusReplays_of_calm hviolations hkind rfl rfl)
      (.single hstep) ⟨2⟩⟩

/-- The start of an account of the default plan: nothing is wrong with it but that its equity is only
estimated, and replay has it failed. -/
theorem replayed_status_failed :
    ((Pipeline.ofPlan (.default ⟨1⟩ 0)).process (.at 0) (.new ⟨1⟩ ⟨1⟩ (.default ⟨1⟩ 0)) (.accountStarted 0)).bind
        (fun r => ((InMemoryEventStore.empty.appendAll r.events).replay ⟨1⟩ ⟨1⟩).map fun acc =>
          (r.account.status, acc.status)) =
      .ok (.active, .failed) := by
  decide +kernel

end Propfirm
