import Propfirm.Engine.Lemmas.Status
import Propfirm.Engine.Lemmas.Targets
import Propfirm.Lib.Trail

/-!
# The status changes a call announces
-/

namespace Propfirm

open Fallible Trail

variable {p : Pipeline} {env : Env} {a b : Account} {ev : PipelineEvent} {r : PipelineResult}
  {d : Decision} {t : Timestamp} {actorId : String}

def statusChanges (events : List DomainEvent) : List (AccountStatus × AccountStatus) :=
  events.filterMap fun e =>
    match e.kind with
    | .accountStatusChanged from_ to_ => some (from_, to_)
    | _ => none

/-! ## What each stage announces -/

theorem statusChanges_append (xs ys : List DomainEvent) :
    statusChanges (xs ++ ys) = statusChanges xs ++ statusChanges ys := List.filterMap_append

theorem route_statusChanges {routed evs} (h : route env a ev = .ok (routed, evs)) :
    statusChanges evs = [] := by
  rcases route_events h with ⟨-, rfl⟩ | ⟨ts, rfl⟩ <;> rfl

theorem applyTargetHit_statusChanges :
    statusChanges (applyTargetHit a d t).2 =
      if d.kind = .targetHit then [(a.status, .targetHitPending)] else [] := by
  unfold applyTargetHit
  split <;> rfl

theorem applyPromotion_statusChanges {evs} (h : applyPromotion a t = .ok (b, evs)) :
    statusChanges evs = if a.promotable then [(a.status, .passed)] else [] := by
  rcases applyPromotion_ok h with ⟨hp, -, rfl⟩ | ⟨hp, -, -, rfl⟩
  · simp [hp, statusChanges]
  · simp [hp, statusChanges]

theorem applyTermination_statusChanges :
    statusChanges (applyTermination a d t actorId).2 =
      d.accountStatusTarget.toList.map fun target => (a.status, target) := by
  unfold applyTermination
  cases d.accountStatusTarget with
  | none => rfl
  | some target => dsimp only; split <;> rfl

theorem decisionEvents_statusChanges {id : AccountId} :
    statusChanges (decisionEvents id d t) =
      if d.kind = .fail ∨ d.kind = .liquidate then [(.active, .failed)] else [] := by
  unfold decisionEvents
  split <;> rfl

theorem violations_statusChanges {id : AccountId} (vs : List Violation) :
    statusChanges (vs.map fun v => ⟨id, .ruleViolated v, t⟩) = [] := by
  simp [statusChanges, List.filterMap_map]

/-- The changes announced between the event and the end of the call. -/
def Passage.decisionChanges (s : Passage p env a ev r) : List (AccountStatus × AccountStatus) :=
  (if (s.decision p).kind = .targetHit then [(s.applied.account.status, .targetHitPending)] else []) ++
    (if (s.marked p).promotable then [((s.marked p).status, .passed)] else []) ++
    ((s.decision p).accountStatusTarget.toList.map fun target => (s.promoted.status, target)) ++
    if (s.decision p).kind = .fail ∨ (s.decision p).kind = .liquidate then [(.active, .failed)] else []

theorem Passage.statusChanges_eq (s : Passage p env a ev r) :
    statusChanges r.events = statusChanges s.applied.events ++ s.decisionChanges := by
  simp only [s.events_eq, statusChanges_append, route_statusChanges s.route_eq,
    applyTargetHit_statusChanges, applyPromotion_statusChanges s.promotion_eq,
    applyTermination_statusChanges, decisionEvents_statusChanges, violations_statusChanges,
    s.filled_status, List.nil_append, List.append_nil, List.append_assoc, decisionChanges]

/-! ## The event -/

/-- The event's own change of status is announced: it emits the change it makes, from where the
account was to where it leaves it. -/
def PipelineEvent.Announces (a : Account) : PipelineEvent → Prop
  | .accountStarted _ => False
  | .emergencyStop .. => a.status ≠ .emergencyStopped
  | .overrideBreach _ =>
      a.status = .failed ∧
        a.statusBeforeBreach.getD (if a.accountType = .funded then .funded else .active) = .active
  | .payoutApprove => a.status = .funded
  | _ => True

/-- The changes an event announces, between the statuses before and after it. -/
def PipelineEvent.changes (before after : AccountStatus) :
    PipelineEvent → List (AccountStatus × AccountStatus)
  | .emergencyStop .. => [(before, .emergencyStopped)]
  | .overrideBreach _ => [(.failed, .active)]
  | .payoutRequest => if before ≠ after then [(before, after)] else []
  | _ => []

theorem Effect.statusChanges_eq {evs} (h : Effect env a ev b evs) :
    statusChanges evs = ev.changes a.status b.status := by
  cases h with
  | payoutRequest hq h =>
      dsimp only [PipelineEvent.changes]
      split <;> rfl
  | _ => rfl

theorem PipelineEvent.changes_length {before after : AccountStatus} :
    (ev.changes before after).length ≤ 1 := by
  unfold changes
  split
  · exact le_rfl
  · exact le_rfl
  · split
    · exact le_rfl
    · exact Nat.zero_le 1
  · exact Nat.zero_le 1

theorem Effect.leads_iff {evs} (h : Effect env a ev b evs) :
    Leads a.status (statusChanges evs) b.status ↔ ev.Announces a := by
  rw [h.statusChanges_eq]
  cases h with
  | accountStarted h =>
      obtain ⟨hs, hb, -⟩ := Account.start_ok h
      rw [hs, hb]
      exact iff_of_false nofun nofun
  | orderSubmitted => exact iff_of_true rfl trivial
  | tradeFilled h =>
      exact iff_of_true (markActiveTradingDay_status (a := a.applyRealizedPnl _ _ _ _)).symm trivial
  | tick h => exact iff_of_true rfl trivial
  | tickEstimated h => exact iff_of_true rfl trivial
  | dayRollover h =>
      have hs := eq_of_outsideDays (rolloverDay_outsideDays h) Account.status fun _ => rfl
      exact iff_of_true hs.symm trivial
  | endOfDay => exact iff_of_true rfl trivial
  | onDemand => exact iff_of_true rfl trivial
  | emergencyStop => exact ⟨fun h => h.2.1, fun h => ⟨rfl, h, rfl⟩⟩
  | overrideBreach h =>
      obtain ⟨-, hb, -⟩ := Account.clearBreach_ok h
      rw [hb]
      exact ⟨fun h => ⟨h.1.symm, h.2.2.symm⟩, fun h => ⟨h.1.symm, nofun, h.2.symm⟩⟩
  | payoutRequest hq h =>
      obtain ⟨hs, rfl⟩ := Account.markPayoutPending_ok h
      refine iff_of_true ?_ trivial
      rcases hs with hs | hs
      · rw [hs]; exact ⟨rfl, nofun, rfl⟩
      · rw [hs]; rfl
  | payoutApprove hq h =>
      obtain ⟨-, hb, -⟩ := recordPayout_ok h
      dsimp only
      rw [hb]
      exact Iff.rfl

/-! ## The decision -/

/-- What the decision announces is what it does: no failure is announced a second time, no phase
begins, and a target or an emergency is announced only where it changes the status. -/
structure Evaluated.Announces (s : Evaluated env a ev) (p : Pipeline) : Prop where
  not_failing : (s.decision p).kind ≠ .fail ∧ (s.decision p).kind ≠ .liquidate
  not_promotable : (s.marked p).promotable = false
  target : (s.decision p).kind = .targetHit →
    s.applied.account.status = .active ∧ s.applied.account.targetReachedAt = none
  emergency : (s.decision p).kind = .emergency → s.applied.account.status ≠ .emergencyStopped

theorem markTargetReached_becomes_pending :
    (a.status ≠ .targetHitPending ∧ (a.markTargetReached t).status = .targetHitPending) ↔
      a.status = .active ∧ a.targetReachedAt = none := by
  rw [markTargetReached_pending_iff]
  exact ⟨fun ⟨hne, h⟩ => h.resolve_left hne, fun h => ⟨by rw [h.1]; decide, .inr h⟩⟩

namespace Passage

/-- The decision's changes lead to the final status only from the status that the event left. -/
theorem leads_decision_iff (s : Passage p env a ev r) {u : AccountStatus} :
    Leads u s.decisionChanges r.account.status ↔ s.Announces p ∧ u = s.applied.account.status := by
  have hannounces : s.Announces p ↔
      ((s.decision p).kind ≠ .fail ∧ (s.decision p).kind ≠ .liquidate) ∧
        (s.marked p).promotable = false ∧
        ((s.decision p).kind = .targetHit →
          s.applied.account.status = .active ∧ s.applied.account.targetReachedAt = none) ∧
        ((s.decision p).kind = .emergency → s.applied.account.status ≠ .emergencyStopped) :=
    ⟨fun h => ⟨h.1, h.2, h.3, h.4⟩, fun h => ⟨h.1, h.2.1, h.2.2.1, h.2.2.2⟩⟩
  rw [hannounces, s.account_status, decisionChanges, Decision.accountStatusTarget]
  cases hp : (s.marked p).promotable with
  | true =>
      -- after the announced pass nothing leads on to the active status
      rw [s.promoted_status_of_promotable hp]
      cases (s.decision p).kind <;> simp
  | false =>
      rw [s.promoted_eq_marked hp]
      by_cases htarget : (s.decision p).kind = .targetHit
      · have hpending := markTargetReached_becomes_pending (a := s.filled) (t := env.contextNow)
        rw [s.filled_status, s.filled_targetReachedAt] at hpending
        simp only [htarget, if_true, Bool.false_eq_true, if_false, List.append_nil, Evaluated.marked,
          applyTargetHit_fst, Option.toList_none, List.map_nil, reduceCtorEq, or_self, Option.getD_none,
          leads_cons, ne_eq, leads_nil, not_false_eq_true, and_self, ← hpending, forall_const,
          false_imp_iff, and_true, true_and]
        exact ⟨fun ⟨hu, hne, hst⟩ => ⟨⟨hne, hst.symm⟩, hu.symm⟩,
          fun ⟨⟨hne, hst⟩, hu⟩ => ⟨hu.symm, hne, hst.symm⟩⟩
      · rw [s.marked_status_of_not_targetHit htarget]
        cases hk : (s.decision p).kind with
        | targetHit => exact absurd hk htarget
        | emergency =>
            simp only [leads_cons, leads_nil, reduceCtorEq, ne_eq, not_false_eq_true, and_self, true_and,
              false_imp_iff, forall_const, if_false, or_self, List.nil_append, List.append_nil,
              Option.toList_some, List.map_cons, List.map_nil, Option.getD_some, and_true,
              Bool.false_eq_true]
            exact ⟨fun h => ⟨h.2, h.1.symm⟩, fun h => ⟨h.2.symm, h.1⟩⟩
        | _ => simp

theorem decisionChanges_length (s : Passage p env a ev r) (h : s.Announces p) :
    s.decisionChanges.length ≤ 1 := by
  rw [decisionChanges, Decision.accountStatusTarget, h.not_promotable]
  cases hk : (s.decision p).kind with
  | fail => exact absurd hk h.not_failing.1
  | liquidate => exact absurd hk h.not_failing.2
  | _ => simp

/-- The decision either marks a target or terminates the account, not both. -/
theorem target_or_termination (s : Passage p env a ev r) (h : s.Announces p) :
    (s.marked p).status = s.applied.account.status ∨ r.account.status = (s.marked p).status := by
  by_cases htarget : (s.decision p).kind = .targetHit
  · refine .inr ?_
    rw [s.account_status, s.promoted_eq_marked h.not_promotable, Decision.accountStatusTarget, htarget]
    rfl
  · exact .inl (s.marked_status_of_not_targetHit htarget)

end Passage

/-! ## The whole call -/

/-- The announced changes lead from the status before the call to the one after it, each a change the
account made on the way, exactly when the event announces its own change and the decision its own. -/
theorem statusChanges_faithful_iff (h : p.process env a ev = .ok r) (s : Evaluated env a ev) :
    (Leads a.status (statusChanges r.events) r.account.status ∧
        ∀ change ∈ statusChanges r.events,
          change ∈ moves [a.status, s.applied.account.status, (s.marked p).status, r.account.status]) ↔
      ev.Announces a ∧ s.Announces p := by
  obtain ⟨pass⟩ := Pipeline.process_passage h
  obtain rfl := s.subsingleton pass.toEvaluated
  obtain ⟨trades, heffect⟩ := applyEvent_effect pass.apply_eq
  have hevent : Leads a.status (statusChanges pass.applied.events) pass.applied.account.status ↔
      ev.Announces a := by
    have hrouted : ev.Announces { pass.routed with todayTrades := trades } = ev.Announces a :=
      pass.routed_reading (fun x => ev.Announces x)
        fun x => by cases ev <;> rfl
    rw [← pass.routed_status, ← hrouted]
    exact heffect.leads_iff
  rw [pass.statusChanges_eq, leads_append]
  constructor
  · rintro ⟨⟨u, hu, hdecision⟩, -⟩
    obtain ⟨hannounces, rfl⟩ := pass.leads_decision_iff.mp hdecision
    exact ⟨hevent.mp hu, hannounces⟩
  · rintro ⟨hev, hannounces⟩
    have hfirst := hevent.mpr hev
    have hsecond := pass.leads_decision_iff.mpr ⟨hannounces, rfl⟩
    refine ⟨⟨_, hfirst, hsecond⟩, fun change hchange => ?_⟩
    rcases List.mem_append.mp hchange with hchange | hchange
    · have hone : (statusChanges pass.applied.events).length ≤ 1 := by
        rw [heffect.statusChanges_eq]
        exact PipelineEvent.changes_length
      rw [hfirst.eq_of_mem hone hchange]
      simp
    · rw [hsecond.eq_of_mem (pass.decisionChanges_length hannounces) hchange]
      rcases pass.target_or_termination hannounces with hmarked | hfinal
      · simp [hmarked]
      · simp [hfinal]

theorem statusChanges_faithful_stop :
    ∃ (a : Account) (r : PipelineResult),
      (Account.new ⟨1⟩ ⟨1⟩ (.default ⟨1⟩ 0)).start 0 = .ok a ∧
        (Pipeline.ofPlan a.plan).process (.at 1) a (.emergencyStop "" "" 1) = .ok r ∧
        r.account.status = .emergencyStopped ∧
        Leads a.status (statusChanges r.events) r.account.status := by
  have hrun :
      (do
        let a ← (Account.new ⟨1⟩ ⟨1⟩ (.default ⟨1⟩ 0)).start 0
        let r ← (Pipeline.ofPlan a.plan).process (.at 1) a (.emergencyStop "" "" 1)
        pure (a.status, a.targetReachedAt, r.result.decision.kind, r.account.status)) =
        .ok (.active, none, .gapFlagged, .emergencyStopped) := by
    decide +kernel
  obtain ⟨a, ha, hrun⟩ := bind_eq_ok.mp hrun
  obtain ⟨r, hr, hrun⟩ := bind_eq_ok.mp hrun
  have hfacts := pure_eq_ok.mp hrun
  simp only [Prod.mk.injEq] at hfacts
  obtain ⟨hactive, htarget, hkind, hstopped⟩ := hfacts
  obtain ⟨pass⟩ := Pipeline.process_passage hr
  have hnot := pass.not_promotable_of_no_target (by rw [hkind]; decide) htarget
  rw [pass.result_eq] at hkind
  have hannounces : pass.Announces (Pipeline.ofPlan a.plan) :=
    { not_failing := by rw [hkind]; decide
      not_promotable := hnot
      target := by rw [hkind]; exact nofun
      emergency := by rw [hkind]; exact nofun }
  have hevent : (PipelineEvent.emergencyStop "" "" 1).Announces a := by
    rw [PipelineEvent.Announces, hactive]; decide
  exact ⟨a, r, ha, hr, hstopped,
    ((statusChanges_faithful_iff hr pass.toEvaluated).mpr ⟨hevent, hannounces⟩).1⟩

/-- A failure is announced twice, a start not at all, and after a promotion the announced status is
not the account's. -/
theorem statusChanges_broken :
    ((Pipeline.ofPlan (.default ⟨1⟩ 0)).process (.at 1)
        { Account.new ⟨1⟩ ⟨1⟩ (.default ⟨1⟩ 0) with
          status := .active, startedAt := some 0, deadline := some 0 } .onDemand).map
        (fun r => (statusChanges r.events, r.account.status)) =
      .ok ([(.active, .failed), (.active, .failed)], .failed) ∧
    ((Pipeline.ofPlan (.default ⟨1⟩ 0)).process (.at 0) (Account.new ⟨1⟩ ⟨1⟩ (.default ⟨1⟩ 0))
        (.accountStarted 0)).map (fun r => (statusChanges r.events, r.account.status)) =
      .ok ([], .active) ∧
    ((Pipeline.ofPlan (.default ⟨1⟩ 0)).process (.at 0)
        { Account.new ⟨1⟩ ⟨1⟩ (.default ⟨1⟩ 0) with
          status := .targetHitPending, targetReachedAt := some 0, activeTradingDays := 3 }
        .endOfDay).map (fun r => (statusChanges r.events, r.account.status)) =
      .ok ([(.targetHitPending, .passed)], .active) := by
  decide +kernel

end Propfirm
