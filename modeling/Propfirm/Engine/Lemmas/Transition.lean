import Propfirm.Engine.Pipeline
import Propfirm.Lib.Fallible

/-!
# What an event does to the account
-/

namespace Propfirm

open Fallible

variable {env : Env} {a a' : Account} {ev : PipelineEvent}

/-! ## Rollovers -/

/-- The account without the statistics that a day rollover rewrites. -/
def Account.outsideDays (a : Account) : Account :=
  { a with
    dayStartBalance := 0
    tradingDayIndex := 0
    activeTradingDays := 0
    dayCountedToday := false
    todayRealizedPnl := 0
    largestDayProfit := 0
    largestDayLoss := 0
    sumPositiveDaysProfit := 0
    dayStartEquity := 0
    intradayPeakEquity := 0
    profitableDaysCount := 0
    qualifyingTradingDaysCount := 0
    currentTradingDayStart := none
    todayTrades := [] }

/-- A reading that no day statistic enters is the same on accounts that differ only in them. -/
theorem eq_of_outsideDays {β : Type} (h : a'.outsideDays = a.outsideDays) (f : Account → β)
    (hf : ∀ x : Account, f x.outsideDays = f x) : f a' = f a := by
  rw [← hf a', h, hf a]

theorem rolloverDay_ok {had ts now} :
    a.rolloverDay had ts now = .ok a' ↔
      ∃ dayStart, a.rolloverTarget ts now = .ok dayStart ∧
        (if had then a.closeTradedDay else a).openNextDay dayStart = a' := by
  simp only [Account.rolloverDay, bind_eq_ok, pure_eq_ok]

theorem rolloverDay_outsideDays {had ts now} (h : a.rolloverDay had ts now = .ok a') :
    a'.outsideDays = a.outsideDays := by
  obtain ⟨dayStart, -, rfl⟩ := rolloverDay_ok.mp h
  cases had <;> rfl

/-! ## Operations -/

theorem Account.start_eq {at_} (h : a.start at_ = .ok a') :
    a.status = .pending ∧ ∃ dayStart, a.plan.tradingDayStart at_ = .ok dayStart ∧
      a' =
        { a with
          status := .active
          startedAt := some at_
          currentTradingDayStart := some dayStart
          deadline :=
            match a.plan.timeLimitDays with
            | some days => some (at_ + Duration.days days)
            | none => a.deadline } := by
  unfold Account.start at h
  split at h
  · rename_i hs
    obtain ⟨dayStart, hday, h⟩ := bind_eq_ok.mp h
    exact ⟨hs, dayStart, hday, (pure_eq_ok.mp h).symm⟩
  · cases h

theorem Account.clearBreach_eq (h : a.clearBreach = .ok a') :
    a.status.isBreachTerminal = true ∧
      a' =
        { a with
          status := a.statusBeforeBreach.getD (if a.accountType = .funded then .funded else .active)
          statusBeforeBreach := none } := by
  unfold Account.clearBreach at h
  split at h
  · rename_i hs; cases h; exact ⟨by rw [hs]; rfl, rfl⟩
  · rename_i hs; cases h; exact ⟨by rw [hs]; rfl, rfl⟩
  · cases h

theorem Account.markPayoutPending_ok (h : a.markPayoutPending = .ok a') :
    (a.status = .funded ∨ a.status = .payoutPending) ∧ a' = { a with status := .payoutPending } := by
  unfold Account.markPayoutPending at h
  split at h
  · rename_i hs; cases h; exact ⟨.inl hs, rfl⟩
  · rename_i hs; cases h; exact ⟨.inr hs, by rw [← hs]⟩
  · cases h

theorem recordPayout_eq {amount feeRefund paidAt} (h : recordPayout a amount feeRefund paidAt = .ok a') :
    (a.status = .funded ∨ a.status = .payoutPending) ∧
      a' =
        { a with
          payoutCount := a.payoutCount + 1
          balanceAtLastPayout := a.balance
          lastPayoutAt := some paidAt
          balance := a.balance - amount + feeRefund
          status := .funded } := by
  unfold recordPayout at h
  split at h
  · rename_i hs
    cases h
    refine ⟨hs, ?_⟩
    rcases hs with hs | hs <;> simp [hs]
  · cases h

/-! ## Events -/

/-- The transitions of the account, one for each event. -/
inductive Transition (env : Env) (a : Account) : PipelineEvent → Account → Prop
  | accountStarted {at_ b} : a.start at_ = .ok b → Transition env a (.accountStarted at_) b
  | orderSubmitted {order} : Transition env a (.orderSubmitted order) a
  | tradeFilled {trade pnl} :
      Transition env a (.tradeFilled trade)
        (a.applyRealizedPnl pnl trade.commission trade.swap trade.executedAt).markActiveTradingDay
  | tick {tick equity balance} :
      admitTick env.branchNow a.lastTickTs tick = .ok () →
        Transition env a (.tick tick equity balance) ((a.updateEquity equity).updateBalance balance)
  | tickEstimated {tick equity balance} :
      Transition env a (.tickEstimated tick) (a.setEstimatedEquity equity balance)
  | dayRollover {had b} :
      a.rolloverDay had none env.rolloverNow = .ok b → Transition env a (.dayRollover had) b
  | endOfDay : Transition env a .endOfDay a
  | onDemand : Transition env a .onDemand a
  | emergencyStop {reason actorId at_} :
      Transition env a (.emergencyStop reason actorId at_) a.emergencyStop
  | overrideBreach {o b} : a.clearBreach = .ok b → Transition env a (.overrideBreach o) b
  | payoutRequest {b} : a.markPayoutPending = .ok b → Transition env a .payoutRequest b
  | payoutApprove {amount feeRefund paidAt refundUsed b} :
      recordPayout a amount feeRefund paidAt = .ok b →
        Transition env a .payoutApprove { b with refundUsed }

/-- The transitions with what they emit and what they are based on. -/
inductive Effect (env : Env) (a : Account) : PipelineEvent → Account → List DomainEvent → Prop
  | accountStarted {at_ b} :
      a.start at_ = .ok b →
        Effect env a (.accountStarted at_) b [⟨b.id, .accountStarted a.plan, at_⟩]
  | orderSubmitted {order} : Effect env a (.orderSubmitted order) a []
  | tradeFilled {trade pnl} :
      pnl - trade.commission - trade.swap = trade.netPnl →
        Effect env a (.tradeFilled trade)
          (a.applyRealizedPnl pnl trade.commission trade.swap trade.executedAt).markActiveTradingDay
          [⟨a.id, .tradeFilled trade, trade.executedAt⟩]
  | tick {tick equity balance} :
      admitTick env.branchNow a.lastTickTs tick = .ok () →
        Effect env a (.tick tick equity balance) ((a.updateEquity equity).updateBalance balance)
          [⟨a.id, .tickEvaluated equity, tick.quote.ts⟩]
  | tickEstimated {tick equity} :
      equity = equityAfterTick a.balance a.openPositions tick.quote →
        Effect env a (.tickEstimated tick) (a.setEstimatedEquity equity a.balance)
          [⟨a.id, .tickEvaluated equity, tick.quote.ts⟩]
  | dayRollover {had b} :
      a.rolloverDay had none env.rolloverNow = .ok b →
        Effect env a (.dayRollover had) b
          [⟨a.id, .dayRollover b.tradingDayIndex b.dayStartBalance, env.branchNow⟩]
  | endOfDay : Effect env a .endOfDay a []
  | onDemand : Effect env a .onDemand a []
  | emergencyStop {reason actorId at_} :
      Effect env a (.emergencyStop reason actorId at_) a.emergencyStop
        [⟨a.id, .accountStatusChanged a.status .emergencyStopped, at_⟩]
  | overrideBreach {o b} :
      a.clearBreach = .ok b →
        Effect env a (.overrideBreach o) b
          [⟨a.id, .accountStatusChanged .failed .active, o.at⟩,
            ⟨a.id, .overrideCleared o.clearsViolationId o.reason o.actorId o.at, o.at⟩]
  | payoutRequest {label quote b} :
      acceptedQuote a env.branchNow label = .ok quote → a.markPayoutPending = .ok b →
        Effect env a .payoutRequest b
          (⟨a.id, .payoutRequested quote.profitBasis quote.amount, env.branchNow⟩ ::
            if a.status ≠ b.status then
              [⟨a.id, .accountStatusChanged a.status b.status, env.branchNow⟩]
            else [])
  | payoutApprove {label quote b} :
      acceptedQuote a env.branchNow label = .ok quote →
        recordPayout a quote.amount quote.feeRefund env.branchNow = .ok b →
          Effect env a .payoutApprove
            { b with refundUsed := b.refundUsed || decide (0 < quote.feeRefund) }
            [⟨a.id, .payoutApproved quote.amount quote.feeRefund, env.branchNow⟩]

theorem applyBranch_effect {applied} (h : applyBranch env a ev = .ok applied) :
    Effect env a ev applied.account applied.events := by
  cases ev with
  | accountStarted at_ =>
      obtain ⟨started, hs, h⟩ := bind_eq_ok.mp h
      cases h; exact .accountStarted hs
  | orderSubmitted order => cases h; exact .orderSubmitted
  | tradeFilled trade =>
      obtain ⟨position, -, h⟩ := bind_eq_ok.mp h
      cases h
      refine .tradeFilled ?_
      unfold Trade.netPnl
      cases trade.exitInfo <;> rfl
  | tick tick equity balance =>
      obtain ⟨⟨⟩, ht, h⟩ := bind_eq_ok.mp h
      cases h; exact .tick ht
  | tickEstimated tick => cases h; exact .tickEstimated rfl
  | dayRollover had =>
      obtain ⟨b, hb, h⟩ := bind_eq_ok.mp h
      cases h; exact .dayRollover hb
  | endOfDay => cases h; exact .endOfDay
  | onDemand => cases h; exact .onDemand
  | emergencyStop reason actorId at_ => cases h; exact .emergencyStop
  | overrideBreach o =>
      obtain ⟨⟨⟩, -, h⟩ := bind_eq_ok.mp h
      split at h
      · cases h
      · obtain ⟨b, hb, h⟩ := bind_eq_ok.mp h
        cases h; exact .overrideBreach hb
  | payoutRequest =>
      obtain ⟨quote, hq, h⟩ := bind_eq_ok.mp h
      obtain ⟨b, hb, h⟩ := bind_eq_ok.mp h
      cases h; exact .payoutRequest hq hb
  | payoutApprove =>
      obtain ⟨quote, hq, h⟩ := bind_eq_ok.mp h
      obtain ⟨b, hb, h⟩ := bind_eq_ok.mp h
      cases h; exact .payoutApprove hq hb

/-- Only a fill leaves a trade and a position to be entered. The lists are those before the event. -/
theorem applyBranch_fill_lists {applied} (h : applyBranch env a ev = .ok applied) :
    ((∀ trade, ev ≠ .tradeFilled trade) → applied.tradeFill = none) ∧
      applied.openPositions = a.openPositions ∧ applied.todayTrades = a.todayTrades := by
  cases ev with
  | tradeFilled trade =>
      obtain ⟨_, -, h⟩ := bind_eq_ok.mp h
      cases h; exact ⟨fun hev => absurd rfl (hev trade), rfl, rfl⟩
  | orderSubmitted _ | tickEstimated _ | endOfDay | onDemand | emergencyStop _ _ _ =>
      cases h; exact ⟨fun _ => rfl, rfl, rfl⟩
  | accountStarted _ | tick _ _ _ | dayRollover _ =>
      obtain ⟨_, -, h⟩ := bind_eq_ok.mp h
      cases h; exact ⟨fun _ => rfl, rfl, rfl⟩
  | payoutRequest | payoutApprove =>
      obtain ⟨_, -, h⟩ := bind_eq_ok.mp h
      obtain ⟨_, -, h⟩ := bind_eq_ok.mp h
      cases h; exact ⟨fun _ => rfl, rfl, rfl⟩
  | overrideBreach o =>
      obtain ⟨_, -, h⟩ := bind_eq_ok.mp h
      split at h
      · cases h
      · obtain ⟨_, -, h⟩ := bind_eq_ok.mp h
        cases h; exact ⟨fun _ => rfl, rfl, rfl⟩

theorem applyBranch_tradeFill {applied} (h : applyBranch env a ev = .ok applied)
    (hev : ∀ trade, ev ≠ .tradeFilled trade) : applied.tradeFill = none :=
  (applyBranch_fill_lists h).1 hev

theorem applyBranch_lists {applied} (h : applyBranch env a ev = .ok applied) :
    applied.openPositions = a.openPositions ∧ applied.todayTrades = a.todayTrades :=
  (applyBranch_fill_lists h).2

theorem Effect.transition {evs} (h : Effect env a ev a' evs) : Transition env a ev a' := by
  cases h with
  | accountStarted h => exact .accountStarted h
  | orderSubmitted => exact .orderSubmitted
  | tradeFilled h => exact .tradeFilled
  | tick h => exact .tick h
  | tickEstimated h => exact .tickEstimated
  | dayRollover h => exact .dayRollover h
  | endOfDay => exact .endOfDay
  | onDemand => exact .onDemand
  | emergencyStop => exact .emergencyStop
  | overrideBreach h => exact .overrideBreach h
  | payoutRequest hq h => exact .payoutRequest h
  | payoutApprove hq h => exact .payoutApprove h

/-- The events that neither trade nor quote, and neither end a day nor pay out. -/
def PipelineEvent.isQuiet : PipelineEvent → Bool
  | .tradeFilled _ | .tick _ _ _ | .tickEstimated _ | .dayRollover _ | .payoutApprove => false
  | _ => true

/-- The account without the status and what else a quiet event writes. -/
def Account.outsideStatus (a : Account) : Account :=
  { a with
    status := .pending
    statusBeforeBreach := none
    startedAt := none
    currentTradingDayStart := none
    deadline := none }

theorem Transition.outsideStatus (h : Transition env a ev a') (hev : ev.isQuiet = true) :
    a'.outsideStatus = a.outsideStatus := by
  cases h with
  | accountStarted h =>
      obtain ⟨-, dayStart, -, rfl⟩ := Account.start_eq h
      rfl
  | overrideBreach h =>
      obtain ⟨-, rfl⟩ := Account.clearBreach_eq h
      rfl
  | payoutRequest h =>
      obtain ⟨-, rfl⟩ := Account.markPayoutPending_ok h
      rfl
  | tradeFilled | tick | tickEstimated | dayRollover | payoutApprove => cases hev
  | orderSubmitted | endOfDay | onDemand | emergencyStop => rfl

/-- A reading that no quiet event writes. -/
theorem Transition.quiet_reading {β : Type} (h : Transition env a ev a') (hev : ev.isQuiet = true)
    (f : Account → β) (hf : ∀ x : Account, f x.outsideStatus = f x) : f a' = f a := by
  rw [← hf a', h.outsideStatus hev, hf a]

/-- The account without anything that an event writes. -/
def Account.outsideEvents (a : Account) : Account :=
  { Account.new a.id a.tenantId a.plan with
    accountType := a.accountType
    challengeId := a.challengeId
    initialBalance := a.initialBalance
    targetReachedAt := a.targetReachedAt
    targetReachedOnDay := a.targetReachedOnDay
    version := a.version
    lastTickTs := a.lastTickTs
    openPositions := a.openPositions }

theorem markActiveTradingDay_outsideDays : a.markActiveTradingDay.outsideDays = a.outsideDays := by
  unfold Account.markActiveTradingDay
  split <;> rfl

theorem Transition.outsideEvents (h : Transition env a ev a') : a'.outsideEvents = a.outsideEvents := by
  by_cases hquiet : ev.isQuiet = true
  · exact h.quiet_reading hquiet Account.outsideEvents fun _ => rfl
  cases h with
  | tradeFilled =>
      exact eq_of_outsideDays markActiveTradingDay_outsideDays Account.outsideEvents fun _ => rfl
  | tick h => rfl
  | tickEstimated => rfl
  | dayRollover h => exact eq_of_outsideDays (rolloverDay_outsideDays h) Account.outsideEvents fun _ => rfl
  | payoutApprove h =>
      obtain ⟨-, rfl⟩ := recordPayout_eq h
      rfl
  | _ => exact absurd rfl hquiet

/-- A reading that no event writes. -/
theorem Transition.reading {β : Type} (h : Transition env a ev a') (f : Account → β)
    (hf : ∀ x : Account, f x.outsideEvents = f x) : f a' = f a := by
  rw [← hf a', h.outsideEvents, hf a]

theorem applyEvent_effect {applied} (h : applyEvent env a ev = .ok applied) :
    ∃ trades, Effect env { a with todayTrades := trades } ev applied.account applied.events := by
  obtain ⟨dayStart, -, h⟩ := bind_eq_ok.mp h
  exact ⟨_, applyBranch_effect h⟩

theorem applyEvent_tradeFill {applied} (h : applyEvent env a ev = .ok applied)
    (hev : ∀ trade, ev ≠ .tradeFilled trade) : applied.tradeFill = none := by
  obtain ⟨dayStart, -, h⟩ := bind_eq_ok.mp h
  exact applyBranch_tradeFill h hev

/-- An event acts on the account with its trades pruned to the event's day. -/
theorem applyEvent_transition {applied} (h : applyEvent env a ev = .ok applied) :
    ∃ trades, Transition env { a with todayTrades := trades } ev applied.account := by
  obtain ⟨trades, h⟩ := applyEvent_effect h
  exact ⟨trades, h.transition⟩

end Propfirm
