import Propfirm.Engine.Lemmas.Liquidations
import Propfirm.Engine.Lemmas.Status
import Propfirm.Rules.Lemmas.Registry

/-!
# Breaches, emergency stops and overrides
-/

namespace Propfirm

open Fallible Episodes

variable {p : Pipeline} {env : Env} {a : Account} {ev : PipelineEvent} {r : PipelineResult}

def overdueAccount (status : AccountStatus) : Account :=
  { Account.new ⟨1⟩ ⟨1⟩ (.default ⟨1⟩ 0) with
    status
    startedAt := some 0
    deadline := some 0
    currentTradingDayStart := some 0 }

/-! ## Terminal statuses -/

/-- From a terminal status, neither a target nor a promotion intervenes: the decision alone moves the
account on from where the event left it. -/
theorem Passage.status_of_terminal (s : Passage p env a ev r)
    (ha : a.status = .failed ∨ a.status = .emergencyStopped ∨ a.status = .closed)
    (hev : ev.isOverrideBreach = false) :
    r.account.status =
      (s.decision p).accountStatusTarget.getD
        (if ev.isEmergencyStop then .emergencyStopped else a.status) := by
  obtain ⟨trades, htr⟩ := applyEvent_transition s.apply_eq
  have happlied : s.applied.account.status = if ev.isEmergencyStop then .emergencyStopped else a.status := by
    rw [htr.status_of_terminal (by simpa [s.routed_status] using ha) hev, ← s.routed_status]
  have hmarked : (s.marked p).status = s.applied.account.status := by
    rcases s.marked_status p with h | ⟨h, -⟩
    · exact h
    · rw [happlied] at h
      rcases ha with ha | ha | ha <;> split at h <;> simp_all
  have hpromoted : s.promoted.status = s.applied.account.status := by
    rcases s.promoted_status with h | ⟨h, -⟩
    · exact h.trans hmarked
    · rw [hmarked, happlied] at h
      rcases ha with ha | ha | ha <;> split at h <;> simp_all
  rw [s.account_status, hpromoted, happlied]

/-- A terminal status is kept exactly when no rule calls an emergency on an account that is not being
stopped, and no rule fails one that has not failed. -/
theorem terminalStatus_kept_iff (h : p.process env a ev = .ok r)
    (ha : a.status = .failed ∨ a.status = .emergencyStopped ∨ a.status = .closed)
    (hev : ev.isOverrideBreach = false) (s : Evaluated env a ev) :
    (r.account.status = a.status ∨
        ev.isEmergencyStop = true ∧ r.account.status = .emergencyStopped) ↔
      (reported (s.reports p) .emergency = true →
          a.status = .emergencyStopped ∨ ev.isEmergencyStop = true) ∧
        (reported (s.reports p) .emergency = false →
          (reported (s.reports p) .liquidate || reported (s.reports p) .fail) = true →
            a.status = .failed) := by
  obtain ⟨pass⟩ := Pipeline.process_passage h
  obtain rfl := s.subsingleton pass.toEvaluated
  rw [pass.status_of_terminal ha hev, Evaluated.decision, Decision.fromReports_target]
  cases reported (pass.reports p) .emergency <;>
    cases reported (pass.reports p) .liquidate || reported (pass.reports p) .fail <;>
    cases ev.isEmergencyStop <;> rcases ha with ha | ha | ha <;> simp [ha]

theorem terminalStatus_kept_overdue :
    ∃ r, (Pipeline.ofPlan (overdueAccount .failed).plan).process (.at 1) (overdueAccount .failed)
        .onDemand = .ok r ∧
      (r.account.status = .failed ∨
        PipelineEvent.onDemand.isEmergencyStop = true ∧ r.account.status = .emergencyStopped) := by
  have hrun : ((Pipeline.ofPlan (overdueAccount .failed).plan).process (.at 1)
      (overdueAccount .failed) .onDemand).map (fun r => r.account.status) = .ok .failed := by
    decide +kernel
  obtain ⟨r, hr, -⟩ := map_eq_ok.mp hrun
  obtain ⟨pass⟩ := Pipeline.process_passage hr
  refine ⟨r, hr, (terminalStatus_kept_iff hr (.inl rfl) rfl pass.toEvaluated).mpr
    ⟨fun he => ?_, fun _ _ => rfl⟩⟩
  exact absurd he (Bool.eq_false_iff.mp not_reported_emergency)

/-- The time limit fails an account that is already closed, and one that is stopped. -/
theorem terminalStatus_overwritten :
    ((Pipeline.ofPlan (overdueAccount .closed).plan).process (.at 1) (overdueAccount .closed)
        .onDemand).map (fun r => r.account.status) = .ok .failed ∧
      ((Pipeline.ofPlan (overdueAccount .emergencyStopped).plan).process (.at 1)
        (overdueAccount .emergencyStopped) .onDemand).map (fun r => r.account.status) =
        .ok .failed := by
  decide +kernel

/-! ## Episodes -/

/-- No rule breaches an account that the event finds, or puts, in a breach status. -/
def Evaluated.NoRepeatedBreach (s : Evaluated env a ev) (p : Pipeline) : Prop :=
  s.applied.account.status.isBreachTerminal = true →
    reported (s.reports p) .emergency = false ∧ reported (s.reports p) .liquidate = false ∧
      reported (s.reports p) .fail = false

theorem Evaluated.NoRepeatedBreach.target {s : Evaluated env a ev} (h : s.NoRepeatedBreach p)
    (hbreach : s.applied.account.status.isBreachTerminal = true) :
    (s.decision p).accountStatusTarget = none := by
  obtain ⟨he, hl, hf⟩ := h hbreach
  simp [Evaluated.decision, Decision.fromReports_target, he, hl, hf]

/-- One call of a run without repeated breaches, with the history of statuses, latest first. -/
inductive BreachStep : Account × List AccountStatus → Account × List AccountStatus → Prop
  | step {p env a ev r history} (h : p.process env a ev = .ok r) (s : Passage p env a ev r) :
      s.NoRepeatedBreach p → BreachStep (a, history) (r.account, s.statuses ++ history)

/-- The history starts with the current status, and the memory is right for it. -/
def RemembersBreach : Account × List AccountStatus → Prop
  | (a, history) =>
      history.head? = some a.status ∧
        Remembers AccountStatus.isBreachTerminal history a.statusBeforeBreach

theorem Evaluated.applied_remembers {history} (s : Evaluated env a ev)
    (h : Remembers AccountStatus.isBreachTerminal (a.status :: history) a.statusBeforeBreach) :
    Remembers AccountStatus.isBreachTerminal (s.applied.account.status :: a.status :: history)
      s.applied.account.statusBeforeBreach := by
  obtain ⟨trades, htr⟩ := applyEvent_transition s.apply_eq
  rw [← s.routed_status, ← s.routed_statusBeforeBreach] at h
  simpa [s.routed_status] using htr.remembers h

theorem Evaluated.marked_remembers {history} (s : Evaluated env a ev)
    (h : Remembers AccountStatus.isBreachTerminal (s.applied.account.status :: history)
      s.applied.account.statusBeforeBreach) :
    Remembers AccountStatus.isBreachTerminal
      ((s.marked p).status :: s.applied.account.status :: history) (s.marked p).statusBeforeBreach := by
  rw [s.marked_statusBeforeBreach]
  rcases s.marked_status p with hs | ⟨hs, hs'⟩
  · rw [hs]; exact h.stay
  · rw [hs']; exact h.move (by rw [hs]; rfl) rfl

theorem Passage.promoted_remembers {history} (s : Passage p env a ev r)
    (h : Remembers AccountStatus.isBreachTerminal ((s.marked p).status :: history)
      (s.marked p).statusBeforeBreach) :
    Remembers AccountStatus.isBreachTerminal (s.promoted.status :: (s.marked p).status :: history)
      s.promoted.statusBeforeBreach := by
  rw [s.promoted_statusBeforeBreach]
  rcases s.promoted_status with hs | ⟨hs, hs'⟩
  · rw [hs]; exact h.stay
  · rw [hs']; exact h.move (by rw [hs]; rfl) rfl

theorem accountStatusTarget_isBreachTerminal {d : Decision} {target : AccountStatus}
    (h : d.accountStatusTarget = some target) : target.isBreachTerminal = true := by
  unfold Decision.accountStatusTarget at h
  split at h <;> cases h <;> rfl

/-- Without a repeated breach a decision either leaves the status or brings a sound one down. -/
theorem Passage.account_remembers {history} (s : Passage p env a ev r) (hno : s.NoRepeatedBreach p)
    (h : Remembers AccountStatus.isBreachTerminal (s.promoted.status :: history)
      s.promoted.statusBeforeBreach) :
    Remembers AccountStatus.isBreachTerminal (r.account.status :: s.promoted.status :: history)
      r.account.statusBeforeBreach := by
  rw [s.account_status, s.account_statusBeforeBreach]
  cases htarget : (s.decision p).accountStatusTarget with
  | none => exact h.stay
  | some target =>
      have hsound : s.promoted.status.isBreachTerminal = false := by
        rw [s.promoted_isBreachTerminal, ← Bool.not_eq_true]
        intro hbreach
        rw [hno.target hbreach] at htarget
        cases htarget
      exact .fall hsound (accountStatusTarget_isBreachTerminal htarget)

theorem BreachStep.remembers {x y} (h : RemembersBreach x) (hstep : BreachStep x y) :
    RemembersBreach y := by
  cases hstep with
  | step hp s hno =>
      obtain ⟨hhead, hr⟩ := h
      refine ⟨rfl, ?_⟩
      rename_i history
      cases history with
      | nil => cases hhead
      | cons st history =>
          cases hhead
          exact s.account_remembers hno (s.promoted_remembers (s.marked_remembers (s.applied_remembers hr)))

theorem Account.FreshlyStarted.remembers (h : a.FreshlyStarted) : RemembersBreach (a, [a.status]) := by
  obtain ⟨id, tenantId, plan, at_, h⟩ := h
  obtain ⟨-, hs, hm⟩ := Account.start_ok h
  exact ⟨rfl, by rw [hs, hm]; exact .up_intro rfl⟩

/-- In a run without repeated breaches no breach status is ever remembered, and an accepted override
restores the last status before the current episode. -/
theorem override_undoes_episode {a₀ : Account} {history : List AccountStatus} (h₀ : a₀.FreshlyStarted)
    (hrun : Relation.ReflTransGen BreachStep (a₀, [a₀.status]) (a, history)) :
    (a.statusBeforeBreach ≠ some .failed ∧ a.statusBeforeBreach ≠ some .emergencyStopped) ∧
      ∀ (env : Env) (o : Override) (s : Evaluated env a (.overrideBreach o)),
        some s.applied.account.status = lastUp AccountStatus.isBreachTerminal history := by
  obtain ⟨hhead, hr⟩ :=
    invariant_of_run RemembersBreach (fun _ _ h hs => hs.remembers h) hrun h₀.remembers
  cases history with
  | nil => cases hhead
  | cons st history =>
      cases hhead
      refine ⟨⟨fun h => ?_, fun h => ?_⟩, fun env o s => ?_⟩
      · cases (h ▸ hr).up_of_memory
      · cases (h ▸ hr).up_of_memory
      · obtain ⟨trades, htr⟩ := applyEvent_transition s.apply_eq
        cases htr with
        | overrideBreach h =>
            obtain ⟨hs, hb, -⟩ := Account.clearBreach_ok h
            rw [← s.routed_status, ← s.routed_statusBeforeBreach] at hr
            obtain ⟨u, hu, hlast, -⟩ := hr.clear hs
            rw [hb, ← s.routed_status, hlast]
            simp [hu]

def overdueOverride : Override := ⟨⟨1⟩, ⟨0⟩, "feed error", "operations", Duration.days 31⟩

theorem override_undoes_failure :
    ∃ (a₀ a : Account) (history : List AccountStatus)
      (s : Evaluated (.at (Duration.days 31)) a (.overrideBreach overdueOverride)),
      a₀.FreshlyStarted ∧ Relation.ReflTransGen BreachStep (a₀, [a₀.status]) (a, history) ∧
        a.status = .failed ∧ a.statusBeforeBreach ≠ some .failed ∧
        some s.applied.account.status = lastUp AccountStatus.isBreachTerminal history := by
  have hrun :
      (do
        let a ← (Account.new ⟨1⟩ ⟨1⟩ (.default ⟨1⟩ 0)).start 0
        let r ← (Pipeline.ofPlan (.default ⟨1⟩ 0)).process (.at (Duration.days 31)) a .onDemand
        let _ ← (Pipeline.ofPlan (.default ⟨1⟩ 0)).process (.at (Duration.days 31)) r.account
          (.overrideBreach overdueOverride)
        pure (a.status, r.account.status)) = .ok (.active, .failed) := by
    decide +kernel
  obtain ⟨a₀, hstart, hrun⟩ := bind_eq_ok.mp hrun
  obtain ⟨r, hr, hrun⟩ := bind_eq_ok.mp hrun
  obtain ⟨r', hr', hrun⟩ := bind_eq_ok.mp hrun
  obtain ⟨hactive, hfailed⟩ := Prod.mk.inj (pure_eq_ok.mp hrun)
  obtain ⟨pass⟩ := Pipeline.process_passage hr
  obtain ⟨pass'⟩ := Pipeline.process_passage hr'
  have hfresh : a₀.FreshlyStarted := ⟨_, _, _, _, hstart⟩
  have hsound : pass.NoRepeatedBreach (Pipeline.ofPlan (.default ⟨1⟩ 0)) := by
    intro hbreach
    obtain ⟨trades, htr⟩ := applyEvent_transition pass.apply_eq
    generalize pass.applied.account = b at htr hbreach
    cases htr
    rw [show _ = AccountStatus.active from pass.routed_status.trans hactive] at hbreach
    cases hbreach
  have hone := Relation.ReflTransGen.single (@BreachStep.step _ _ _ _ _ [a₀.status] hr pass hsound)
  obtain ⟨⟨hnot, -⟩, hrestores⟩ := override_undoes_episode hfresh hone
  exact ⟨a₀, r.account, _, pass'.toEvaluated, hfresh, hone, hfailed, hnot, hrestores _ _ _⟩

/-- Two calls past the deadline fail the account twice, and the second one is remembered: the
override that follows restores the failure. -/
theorem override_restores_failure :
    (do
      let a ← (Account.new ⟨1⟩ ⟨1⟩ (.default ⟨1⟩ 0)).start 0
      let failed ← (Pipeline.ofPlan a.plan).run a
        [(.at (Duration.days 31), .onDemand), (.at (Duration.days 31), .onDemand)]
      let cleared ← failed.clearBreach
      pure (failed.statusBeforeBreach, cleared.status)) = .ok (some .failed, .failed) := by
  decide +kernel

/-! ## Emergency stops -/

/-- The stop decided: an emergency, a stopped account, and one instruction to close every open
position. -/
def ShortCircuited (a : Account) (r : PipelineResult) : Prop :=
  r.result.decision.kind = .emergency ∧ r.account.status = .emergencyStopped ∧
    ∃ i, liquidations r.events = [i] ∧ i.reason = .emergencyStop ∧
      i.positions = (a.openPositions.filter Position.isOpen).map .fromPosition

theorem applyEvent_emergencyStop {reason actorId at_ applied}
    (h : applyEvent env a (.emergencyStop reason actorId at_) = .ok applied) :
    applied.account.openPositions = a.openPositions ∧ applied.tradeFill = none := by
  obtain ⟨dayStart, -, h⟩ := bind_eq_ok.mp h
  cases h
  exact ⟨rfl, rfl⟩

theorem Passage.promoted_openPositions {reason actorId at_}
    (s : Passage p env a (.emergencyStop reason actorId at_) r) :
    s.promoted.openPositions = a.openPositions := by
  obtain ⟨hpos, hfill⟩ := applyEvent_emergencyStop s.apply_eq
  have hfilled : s.filled.openPositions = a.openPositions := by
    rw [Evaluated.filled, hfill]
    exact hpos.trans (s.routed_reading Account.openPositions fun _ => rfl)
  have hmarked : (s.marked p).openPositions = a.openPositions := by
    rw [Evaluated.marked, applyTargetHit_fst, ← hfilled]
    split
    · unfold Account.markTargetReached; split <;> rfl
    · rfl
  rcases applyPromotion_ok s.promotion_eq with ⟨-, heq, -⟩ | ⟨-, -, heq, -⟩ <;> rw [heq]
  · exact hmarked
  · exact hmarked

/-- An emergency decision carries the stop through to the status and the liquidation. -/
theorem Passage.shortCircuited {reason actorId at_}
    (s : Passage p env a (.emergencyStop reason actorId at_) r)
    (h : (s.decision p).kind = .emergency) : ShortCircuited a r := by
  have htarget : (s.decision p).accountStatusTarget = some .emergencyStopped := by
    simp [Decision.accountStatusTarget, h]
  refine ⟨by rw [s.result_eq]; exact h, by rw [s.account_status, htarget]; rfl, ?_⟩
  refine ⟨_, by rw [s.liquidations_eq, if_pos (.inr h)], ?_, ?_⟩
  · simp [Decision.liquidation, LiquidationInstruction.new, liquidationReason, h]
  · simp [Decision.liquidation, LiquidationInstruction.new, s.promoted_openPositions]

/-- An emergency stop carries through exactly when a rule calls an emergency of its own, so never
with the rules of a plan. -/
theorem emergencyStop_shortCircuits_iff {reason actorId : String} {at_ : Timestamp}
    (h : p.process env a (.emergencyStop reason actorId at_) = .ok r)
    (s : Evaluated env a (.emergencyStop reason actorId at_)) :
    (ShortCircuited a r ↔ reported (s.reports p) .emergency = true) ∧
      (∀ plan, p.registry = .withDefaultRulesForPlan plan → ¬ShortCircuited a r) := by
  obtain ⟨pass⟩ := Pipeline.process_passage h
  obtain rfl := s.subsingleton pass.toEvaluated
  have hiff : ShortCircuited a r ↔ reported (pass.reports p) .emergency = true := by
    rw [← Decision.fromReports_kind_emergency]
    refine ⟨fun hs => ?_, pass.shortCircuited⟩
    have hkind := hs.1
    rwa [pass.result_eq] at hkind
  refine ⟨hiff, fun plan hplan hs => ?_⟩
  have hreported := hiff.mp hs
  rw [Evaluated.reports, hplan, not_reported_emergency] at hreported
  cases hreported

theorem emergencyStop_not_shortCircuited :
    ∃ r, (Pipeline.ofPlan (overdueAccount .active).plan).process (.at 1) (overdueAccount .active)
        (.emergencyStop "" "" 1) = .ok r ∧ ¬ShortCircuited (overdueAccount .active) r := by
  have hrun : ((Pipeline.ofPlan (overdueAccount .active).plan).process (.at 1)
      (overdueAccount .active) (.emergencyStop "" "" 1)).map (fun _ => ()) = .ok () := by
    decide +kernel
  obtain ⟨r, hr, -⟩ := map_eq_ok.mp hrun
  obtain ⟨pass⟩ := Pipeline.process_passage hr
  exact ⟨r, hr, (emergencyStop_shortCircuits_iff hr pass.toEvaluated).2 _ rfl⟩

/-- The time limit turns the stop of an overdue account into a failure, without a liquidation. -/
theorem emergencyStop_fails_overdue :
    ((Pipeline.ofPlan (overdueAccount .active).plan).process (.at 1) (overdueAccount .active)
        (.emergencyStop "" "" 1)).map
        (fun r => (r.result.decision.kind, r.account.status, liquidations r.events)) =
      .ok (.fail, .failed, []) := by
  decide +kernel

end Propfirm
