import Propfirm.Engine.Lemmas.Passage
import Propfirm.Lib.Episodes

/-!
# The status of an account and the status it remembers
-/

namespace Propfirm

open Fallible Episodes

variable {p : Pipeline} {env : Env} {a b : Account} {ev : PipelineEvent} {r : PipelineResult}

def PipelineEvent.isEmergencyStop : PipelineEvent → Bool
  | .emergencyStop .. => true
  | _ => false

def PipelineEvent.isOverrideBreach : PipelineEvent → Bool
  | .overrideBreach _ => true
  | _ => false

/-! ## Operations -/

theorem Account.start_ok {at_} (h : a.start at_ = .ok b) :
    a.status = .pending ∧ b.status = .active ∧ b.statusBeforeBreach = a.statusBeforeBreach := by
  obtain ⟨hs, dayStart, -, rfl⟩ := Account.start_eq h
  exact ⟨hs, rfl, rfl⟩

theorem Account.clearBreach_ok (h : a.clearBreach = .ok b) :
    a.status.isBreachTerminal = true ∧
      b.status = a.statusBeforeBreach.getD (if a.accountType = .funded then .funded else .active) ∧
      b.statusBeforeBreach = none := by
  obtain ⟨hs, rfl⟩ := Account.clearBreach_eq h
  exact ⟨hs, rfl, rfl⟩

theorem recordPayout_ok {amount feeRefund paidAt} (h : recordPayout a amount feeRefund paidAt = .ok b) :
    (a.status = .funded ∨ a.status = .payoutPending) ∧ b.status = .funded ∧
      b.statusBeforeBreach = a.statusBeforeBreach := by
  obtain ⟨hs, rfl⟩ := recordPayout_eq h
  exact ⟨hs, rfl, rfl⟩

@[simp] theorem markActiveTradingDay_status : a.markActiveTradingDay.status = a.status :=
  eq_of_outsideDays markActiveTradingDay_outsideDays Account.status fun _ => rfl

@[simp] theorem markActiveTradingDay_statusBeforeBreach :
    a.markActiveTradingDay.statusBeforeBreach = a.statusBeforeBreach :=
  eq_of_outsideDays markActiveTradingDay_outsideDays Account.statusBeforeBreach fun _ => rfl

theorem markTargetReached_status_eq {t} :
    (a.markTargetReached t).status =
      if a.status = .active ∧ a.targetReachedAt = none then .targetHitPending else a.status := by
  unfold Account.markTargetReached
  cases a.targetReachedAt <;> simp

theorem markTargetReached_status {t} :
    (a.markTargetReached t).status = a.status ∨
      a.status = .active ∧ (a.markTargetReached t).status = .targetHitPending := by
  rw [markTargetReached_status_eq]
  split
  · rename_i hmarks; exact .inr ⟨hmarks.1, rfl⟩
  · exact .inl rfl

theorem markTargetReached_pending_iff {t} :
    (a.markTargetReached t).status = .targetHitPending ↔
      a.status = .targetHitPending ∨ a.status = .active ∧ a.targetReachedAt = none := by
  rw [markTargetReached_status_eq]
  split
  · rename_i hmarks; exact iff_of_true rfl (.inr hmarks)
  · rename_i hmarks; exact ⟨.inl, fun h => h.resolve_right hmarks⟩

/-! ## Events -/

/-- In a terminal status only an emergency stop, apart from an override, writes the status. -/
theorem Transition.status_of_terminal (h : Transition env a ev b)
    (ha : a.status = .failed ∨ a.status = .emergencyStopped ∨ a.status = .closed)
    (hev : ev.isOverrideBreach = false) :
    b.status = if ev.isEmergencyStop then .emergencyStopped else a.status := by
  cases h with
  | accountStarted h => have := (Account.start_ok h).1; simp_all
  | orderSubmitted => rfl
  | tradeFilled => simp [PipelineEvent.isEmergencyStop, Account.applyRealizedPnl]
  | tick h => rfl
  | tickEstimated => rfl
  | dayRollover h => exact eq_of_outsideDays (rolloverDay_outsideDays h) Account.status fun _ => rfl
  | endOfDay => rfl
  | onDemand => rfl
  | emergencyStop => rfl
  | overrideBreach h => cases hev
  | payoutRequest h => rcases ha with ha | ha | ha <;> simpa [ha] using (Account.markPayoutPending_ok h).1
  | payoutApprove h => rcases ha with ha | ha | ha <;> simpa [ha] using (recordPayout_ok h).1

theorem AccountStatus.isBreachTerminal_of_payable {st : AccountStatus}
    (h : st = .funded ∨ st = .payoutPending) : st.isBreachTerminal = false := by
  rcases h with rfl | rfl
  · rfl
  · rfl

/-- Every event keeps the memory right, the emergency stop by filling it only when it is empty. -/
theorem Transition.remembers {history} (h : Transition env a ev b)
    (hr : Remembers AccountStatus.isBreachTerminal (a.status :: history) a.statusBeforeBreach) :
    Remembers AccountStatus.isBreachTerminal (b.status :: a.status :: history) b.statusBeforeBreach := by
  cases h with
  | accountStarted h =>
      obtain ⟨hs, hb, hm⟩ := Account.start_ok h
      rw [hm, hb]
      exact hr.move (by rw [hs]; rfl) rfl
  | orderSubmitted => exact hr.stay
  | tradeFilled => simpa [Account.applyRealizedPnl] using hr.stay
  | tick h => exact hr.stay
  | tickEstimated => exact hr.stay
  | dayRollover h =>
      have hframe := rolloverDay_outsideDays h
      rw [eq_of_outsideDays hframe Account.status fun _ => rfl,
        eq_of_outsideDays hframe Account.statusBeforeBreach fun _ => rfl]
      exact hr.stay
  | endOfDay => exact hr.stay
  | onDemand => exact hr.stay
  | emergencyStop => exact hr.stop rfl
  | overrideBreach h =>
      obtain ⟨hs, hb, hm⟩ := Account.clearBreach_ok h
      obtain ⟨u, hmem, -, hclear⟩ := hr.clear hs
      rw [hm, hb, hmem]
      exact hclear
  | payoutRequest h =>
      obtain ⟨hs, rfl⟩ := Account.markPayoutPending_ok h
      exact hr.move (AccountStatus.isBreachTerminal_of_payable hs) rfl
  | payoutApprove h =>
      obtain ⟨hs, hb, hm⟩ := recordPayout_ok h
      simp only [hm, hb]
      exact hr.move (AccountStatus.isBreachTerminal_of_payable hs) rfl

/-! ## Stages -/

@[simp] theorem consumeFill_status {fill} : (consumeFill a fill).status = a.status := by
  cases fill <;> rfl

@[simp] theorem stampTick_status : (stampTick a ev).status = a.status := by
  cases ev <;> rfl

@[simp] theorem stampTick_statusBeforeBreach :
    (stampTick a ev).statusBeforeBreach = a.statusBeforeBreach := by
  cases ev <;> rfl

namespace Evaluated

theorem routed_status (s : Evaluated env a ev) : s.routed.status = a.status :=
  s.routed_reading Account.status fun _ => rfl

theorem routed_statusBeforeBreach (s : Evaluated env a ev) :
    s.routed.statusBeforeBreach = a.statusBeforeBreach :=
  s.routed_reading Account.statusBeforeBreach fun _ => rfl

@[simp] theorem filled_status (s : Evaluated env a ev) : s.filled.status = s.applied.account.status :=
  consumeFill_status

theorem marked_status (s : Evaluated env a ev) (p : Pipeline) :
    (s.marked p).status = s.applied.account.status ∨
      s.applied.account.status = .active ∧ (s.marked p).status = .targetHitPending := by
  rw [marked, applyTargetHit_fst]
  split
  · simpa using markTargetReached_status (a := s.filled)
  · exact .inl s.filled_status

theorem marked_statusBeforeBreach (s : Evaluated env a ev) (p : Pipeline) :
    (s.marked p).statusBeforeBreach = s.applied.account.statusBeforeBreach :=
  s.marked_reading p Account.statusBeforeBreach fun _ _ _ _ _ _ => rfl

theorem subsingleton (s s' : Evaluated env a ev) : s = s' := by
  obtain ⟨routed, evs, applied, h1, h2⟩ := s
  obtain ⟨routed', evs', applied', h1', h2'⟩ := s'
  rw [h1] at h1'
  obtain ⟨rfl, rfl⟩ := Prod.mk.inj (Except.ok.inj h1')
  rw [h2] at h2'
  obtain rfl := Except.ok.inj h2'
  rfl

end Evaluated

namespace Passage

theorem promoted_status (s : Passage p env a ev r) :
    s.promoted.status = (s.marked p).status ∨
      (s.marked p).status = .targetHitPending ∧ s.promoted.status = .active := by
  rcases applyPromotion_ok s.promotion_eq with ⟨-, heq, -⟩ | ⟨hp, -, heq, -⟩
  · exact .inl (by rw [heq])
  · refine .inr ⟨?_, by rw [heq]; rfl⟩
    simp only [Account.promotable, Bool.and_eq_true, beq_iff_eq] at hp
    exact hp.1.2

theorem promoted_status_of_promotable (s : Passage p env a ev r) (h : (s.marked p).promotable = true) :
    s.promoted.status = .active := by
  rcases applyPromotion_ok s.promotion_eq with ⟨hp, -⟩ | ⟨-, -, heq, -⟩
  · rw [h] at hp; cases hp
  · rw [heq]; rfl

theorem marked_status_of_not_targetHit (s : Passage p env a ev r)
    (h : (s.decision p).kind ≠ .targetHit) : (s.marked p).status = s.applied.account.status := by
  rw [Evaluated.marked, applyTargetHit_fst, if_neg h]
  exact s.filled_status

theorem filled_targetReachedAt (s : Passage p env a ev r) :
    s.filled.targetReachedAt = s.applied.account.targetReachedAt := by
  rw [Evaluated.filled]
  cases s.applied.tradeFill <;> rfl

theorem promoted_statusBeforeBreach (s : Passage p env a ev r) :
    s.promoted.statusBeforeBreach = (s.marked p).statusBeforeBreach := by
  rcases applyPromotion_ok s.promotion_eq with ⟨-, heq, -⟩ | ⟨-, -, heq, -⟩ <;> rw [heq]
  rfl

theorem account_status (s : Passage p env a ev r) :
    r.account.status = (s.decision p).accountStatusTarget.getD s.promoted.status := by
  rw [s.account_eq, stampTick_status]
  exact applyTermination_status

theorem account_statusBeforeBreach (s : Passage p env a ev r) :
    r.account.statusBeforeBreach =
      if (s.decision p).accountStatusTarget.isSome then some s.promoted.status
      else s.promoted.statusBeforeBreach := by
  rw [s.account_eq, stampTick_statusBeforeBreach]
  exact applyTermination_statusBeforeBreach

/-- Between the event and the decision no breach begins or ends. -/
theorem promoted_isBreachTerminal (s : Passage p env a ev r) :
    s.promoted.status.isBreachTerminal = s.applied.account.status.isBreachTerminal := by
  have hmarked : (s.marked p).status.isBreachTerminal = s.applied.account.status.isBreachTerminal := by
    rcases s.marked_status p with h | ⟨h, h'⟩
    · rw [h]
    · rw [h, h']; rfl
  rcases s.promoted_status with h | ⟨h, h'⟩
  · rw [h, hmarked]
  · rw [← hmarked, h, h']; rfl

/-- The statuses the account passes through, latest first. -/
def statuses (s : Passage p env a ev r) : List AccountStatus :=
  [r.account.status, s.promoted.status, (s.marked p).status, s.applied.account.status]

end Passage

/-! ## Started accounts -/

def Account.FreshlyStarted (a : Account) : Prop :=
  ∃ id tenantId plan at_, (Account.new id tenantId plan).start at_ = .ok a

/-- A new account, started or not. -/
def Account.Fresh (a : Account) : Prop :=
  (∃ id tenantId plan, a = Account.new id tenantId plan) ∨ a.FreshlyStarted

/-- The account is not pending, and no override makes it so. -/
structure Account.Started (a : Account) : Prop where
  status_ne : a.status ≠ .pending
  memory_ne : a.statusBeforeBreach ≠ some .pending

theorem Account.FreshlyStarted.started (h : a.FreshlyStarted) : a.Started := by
  obtain ⟨id, tenantId, plan, at_, h⟩ := h
  obtain ⟨-, hs, hm⟩ := Account.start_ok h
  exact ⟨by rw [hs]; decide, by rw [hm]; exact nofun⟩

theorem Transition.started (h : Transition env a ev b) (ha : a.Started) : b.Started := by
  cases h with
  | accountStarted h => exact absurd (Account.start_ok h).1 ha.status_ne
  | orderSubmitted => exact ha
  | tradeFilled =>
      exact ⟨by simpa [Account.applyRealizedPnl] using ha.status_ne,
        by simpa [Account.applyRealizedPnl] using ha.memory_ne⟩
  | tick h => exact ⟨ha.status_ne, ha.memory_ne⟩
  | tickEstimated => exact ⟨ha.status_ne, ha.memory_ne⟩
  | dayRollover h =>
      have hframe := rolloverDay_outsideDays h
      exact ⟨eq_of_outsideDays hframe Account.status (fun _ => rfl) ▸ ha.status_ne,
        eq_of_outsideDays hframe Account.statusBeforeBreach (fun _ => rfl) ▸ ha.memory_ne⟩
  | endOfDay => exact ha
  | onDemand => exact ha
  | emergencyStop =>
      refine ⟨nofun, ?_⟩
      simp only [Account.emergencyStop]
      split
      · simpa using ha.status_ne
      · exact ha.memory_ne
  | overrideBreach h =>
      obtain ⟨-, hb, hm⟩ := Account.clearBreach_ok h
      refine ⟨?_, by rw [hm]; exact nofun⟩
      rw [hb]
      cases hmem : a.statusBeforeBreach with
      | none => dsimp; split <;> exact nofun
      | some st => exact fun he => ha.memory_ne (hmem.trans (congrArg some he))
  | payoutRequest h =>
      obtain ⟨-, rfl⟩ := Account.markPayoutPending_ok h
      exact ⟨nofun, ha.memory_ne⟩
  | payoutApprove h =>
      obtain ⟨-, hb, hm⟩ := recordPayout_ok h
      exact ⟨by simp [hb], by simpa [hm] using ha.memory_ne⟩

theorem Passage.started_of_applied (s : Passage p env a ev r) (happlied : s.applied.account.Started) :
    r.account.Started := by
  have hmarked : (s.marked p).status ≠ .pending := by
    rcases s.marked_status p with h | ⟨-, h⟩ <;> rw [h]
    · exact happlied.status_ne
    · exact nofun
  have hpromoted : s.promoted.status ≠ .pending := by
    rcases s.promoted_status with h | ⟨-, h⟩ <;> rw [h]
    · exact hmarked
    · exact nofun
  constructor
  · rw [s.account_status]
    unfold Decision.accountStatusTarget
    split
    · exact nofun
    · exact nofun
    · exact nofun
    · exact hpromoted
  · rw [s.account_statusBeforeBreach, s.promoted_statusBeforeBreach, s.marked_statusBeforeBreach]
    split
    · simpa using hpromoted
    · exact happlied.memory_ne

theorem Passage.started (s : Passage p env a ev r) (ha : a.Started) : r.account.Started := by
  have hrouted : s.routed.Started :=
    ⟨by rw [s.routed_status]; exact ha.status_ne, by rw [s.routed_statusBeforeBreach]; exact ha.memory_ne⟩
  obtain ⟨trades, htr⟩ := applyEvent_transition s.apply_eq
  exact s.started_of_applied (htr.started ⟨hrouted.status_ne, hrouted.memory_ne⟩)

end Propfirm
