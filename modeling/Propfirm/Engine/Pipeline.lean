import Propfirm.Engine.Events
import Propfirm.Payout

/-!
# The event pipeline
-/

namespace Propfirm

/-! ## Inputs -/

inductive PipelineEvent where
  | accountStarted («at» : Timestamp)
  | orderSubmitted (order : Order)
  | tradeFilled (trade : Trade)
  | tick (tick : Tick) (brokerEquity brokerBalance : Money)
  | tickEstimated (tick : Tick)
  | dayRollover (hadTradesToday : Bool)
  | endOfDay
  | onDemand
  | emergencyStop (reason actorId : String) («at» : Timestamp)
  | overrideBreach (overrideRecord : Override)
  | payoutRequest
  | payoutApprove
deriving DecidableEq

/-- The time of an event; events that carry none take the wall clock. -/
def PipelineEvent.eventTimestamp (now : Timestamp) : PipelineEvent → Timestamp
  | .accountStarted at_ => at_
  | .orderSubmitted order => order.submittedAt
  | .tradeFilled trade => trade.executedAt
  | .tick t _ _ => t.quote.ts
  | .tickEstimated t => t.quote.ts
  | .dayRollover _ => now
  | .endOfDay => now
  | .onDemand => now
  | .emergencyStop _ _ at_ => at_
  | .overrideBreach o => o.at
  | .payoutRequest | .payoutApprove => now

def PipelineEvent.isDayRollover : PipelineEvent → Bool
  | .dayRollover _ => true
  | _ => false

/-- What one call draws from outside: the readings of the wall clock, each where the code takes it,
and the fresh identifiers. -/
structure Env where
  /-- The event's time, when the call checks for a new trading day. -/
  routingNow : Timestamp
  /-- The event's time, when the event is applied. -/
  applyNow : Timestamp
  /-- The time an event's own branch reads. -/
  branchNow : Timestamp
  /-- The fallback of a day rollover without a current day. -/
  rolloverNow : Timestamp
  contextNow : Timestamp
  /-- The time a rule reads from the clock itself. -/
  ruleNow : Timestamp
  reportNow : Timestamp
  snapshotNow : Timestamp
  emitNow : Timestamp
  positionId : PositionId
  violationId : RuleId → ViolationId

structure Pipeline where
  registry : RuleRegistry
  notifyViolation : Violation → Outcome Unit

def staleTickThresholdMinutes : ℤ := 10

/-! ## Day boundaries -/

/-- The catch-up loop: one rollover for each trading day up to that of the event. Only the first may
have had trades. The fuel bounds the number of days. -/
def rolloverLoop (eventTs eventDayStart now : Timestamp) : ℕ → Bool → Account → Outcome Account
  | 0, _, _ => panicWith "day rollover did not reach the event"
  | fuel + 1, firstRollover, a =>
      match a.currentTradingDayStart with
      | none => panicWith "called Option::unwrap() on a None value"
      | some start =>
          if start < eventDayStart then do
            let hadTrades := firstRollover && decide (a.todayRealizedPnl ≠ 0)
            let nextStart ← a.plan.nextTradingDayStart start
            let a' ←
              a.rolloverDay hadTrades (some (if eventDayStart ≤ nextStart then eventTs else nextStart))
                now
            rolloverLoop eventTs eventDayStart now fuel false a'
          else pure a

/-- Enough fuel for days of at least an hour. -/
def rolloverFuel (currentDayStart eventDayStart : Timestamp) : ℕ :=
  ((eventDayStart - currentDayStart) / Duration.hours 1).toNat + 2

def autoRollover (a : Account) (eventTs now : Timestamp) : Outcome (Account × List DomainEvent) := do
  let eventDayStart ← a.plan.tradingDayStart eventTs
  let currentDayStart ← a.dayStartOr eventTs
  if currentDayStart < eventDayStart then do
    let a' ← rolloverLoop eventTs eventDayStart now (rolloverFuel currentDayStart eventDayStart) true a
    pure (a', [⟨a.id, .dayRollover a'.tradingDayIndex a'.dayStartBalance, eventTs⟩])
  else pure (a, [])

/-- Explicit rollovers move the day themselves; every other event is caught up to first. -/
def route (env : Env) (a : Account) (ev : PipelineEvent) : Outcome (Account × List DomainEvent) :=
  if ev.isDayRollover then .ok (a, []) else autoRollover a (ev.eventTimestamp env.routingNow) env.rolloverNow

/-! ## Applying an event -/

/-- The state after an event, and what the rule context is built from. The position and trade lists
are those before a fill. -/
structure AppliedEvent where
  account : Account
  ctxKind : RuleContextKind
  openPositions : List Position
  todayTrades : List Trade
  tradeFill : Option (Trade × Position)
  events : List DomainEvent

/-- The position a fill opens or closes. A closing fill of an untracked position yields a closed one
made up from the fill. -/
def fillPosition (freshId : PositionId) (openPositions : List Position) (trade : Trade) :
    Outcome Position :=
  match trade.tradeSide with
  | .entry | .reverse =>
      .ok (.open freshId trade.accountId trade.symbol (.fromOrder trade.side) trade.price
        trade.quantity trade.executedAt trade.commission)
  | .exit =>
      match trade.exitInfo with
      | none => raise (.persistence [.lit "exit trade missing exit_info"])
      | some info =>
          match openPositions.find? fun p => p.id == info.positionId with
          | some pos =>
              .ok
                { pos with
                  status := .closed
                  closedAt := some trade.executedAt
                  realizedPnl := info.realizedPnl
                  openQuantity := 0 }
          | none =>
              .ok
                { id := info.positionId
                  accountId := trade.accountId
                  symbol := trade.symbol
                  side := .fromOrder trade.side
                  openedAt := trade.executedAt
                  closedAt := some trade.executedAt
                  status := .closed
                  avgEntryPrice := info.entryPrice
                  openedQuantity := info.closedQuantity
                  openQuantity := 0
                  realizedPnl := info.realizedPnl
                  commission := trade.commission
                  swap := trade.swap }

/-- Refuses a broker tick that is stale, or not newer than the last one evaluated. -/
def admitTick (now : Timestamp) (lastTickTs : Option Timestamp) (tick : Tick) : Outcome Unit :=
  let staleness := Duration.numMinutes (now - tick.quote.ts)
  if staleTickThresholdMinutes < staleness then
    raise (.tickRejected
      [.lit "tick ts ", .time tick.quote.ts, .lit " is ", .int staleness,
        .lit " minutes old (threshold ", .int staleTickThresholdMinutes,
        .lit "m) — refusing to evaluate stale equity"])
  else
    match lastTickTs with
    | none => .ok ()
    | some lastTs =>
        if tick.quote.ts ≤ lastTs then
          raise (.tickRejected
            [.lit "tick ts ", .time tick.quote.ts, .lit " is not newer than last-evaluated ts ",
              .time lastTs, .lit " — refusing to evaluate out-of-order tick"])
        else .ok ()

def acceptedQuote (a : Account) (now : Timestamp) (label : String) : Outcome PayoutQuote :=
  match a.plan.payoutConfig with
  | none => raise (.invalidState [.lit "plan has no payout configuration"])
  | some config =>
      let quote :=
        quotePayout a config a.lastPayoutAt (some a.balanceAtLastPayout) a.refundUsed now
      match quote.rejected with
      | some rejected => raise (.invalidState (.lit label :: rejected.debug))
      | none => .ok quote

/-- The state transition of an event on an account whose trade list is pruned to the day. -/
def applyBranch (env : Env) (a : Account) (ev : PipelineEvent) : Outcome AppliedEvent :=
  let applied (a' : Account) (ctxKind : RuleContextKind) (events : List DomainEvent) : AppliedEvent :=
    { account := a', ctxKind, openPositions := a.openPositions, todayTrades := a.todayTrades
      tradeFill := none, events }
  match ev with
  | .accountStarted at_ => do
      let started ← a.start at_
      pure (applied started .onDemand [⟨started.id, .accountStarted a.plan, at_⟩])
  | .orderSubmitted _ => .ok (applied a .onOrderSubmit [])
  | .tradeFilled trade => do
      let pnl :=
        match trade.exitInfo with
        | some info => info.realizedPnl
        | none => 0
      let position ← fillPosition env.positionId a.openPositions trade
      let a' :=
        (a.applyRealizedPnl pnl trade.commission trade.swap trade.executedAt).markActiveTradingDay
      pure
        { applied a' .onTradeFill [⟨a.id, .tradeFilled trade, trade.executedAt⟩] with
          tradeFill := some (trade, position) }
  | .tick tick brokerEquity brokerBalance => do
      admitTick env.branchNow a.lastTickTs tick
      pure (applied ((a.updateEquity brokerEquity).updateBalance brokerBalance) .onTick
        [⟨a.id, .tickEvaluated brokerEquity, tick.quote.ts⟩])
  | .tickEstimated tick =>
      let equity := equityAfterTick a.balance a.openPositions tick.quote
      .ok (applied (a.setEstimatedEquity equity a.balance) .onTick
        [⟨a.id, .tickEvaluated equity, tick.quote.ts⟩])
  | .dayRollover hadTradesToday => do
      let a' ← a.rolloverDay hadTradesToday none env.rolloverNow
      pure (applied a' .onDayRollover
        [⟨a.id, .dayRollover a'.tradingDayIndex a'.dayStartBalance, env.branchNow⟩])
  | .endOfDay => .ok (applied a .onEndOfDay [])
  | .onDemand => .ok (applied a .onDemand [])
  | .emergencyStop _ _ at_ =>
      .ok (applied a.emergencyStop .onDemand
        [⟨a.id, .accountStatusChanged a.status .emergencyStopped, at_⟩])
  | .overrideBreach o => do
      o.validate
      if o.accountId ≠ a.id then
        raise (.invalidState
          [.lit "override account_id ", .accountId o.accountId,
            .lit " does not match evaluated account ", .accountId a.id])
      else do
        let a' ← a.clearBreach
        pure (applied a' .onDemand
          [⟨a.id, .accountStatusChanged .failed .active, o.at⟩,
            ⟨a.id, .overrideCleared o.clearsViolationId o.reason o.actorId o.at, o.at⟩])
  | .payoutRequest => do
      let quote ← acceptedQuote a env.branchNow "payout request rejected: "
      let a' ← a.markPayoutPending
      pure (applied a' .onDemand
        (⟨a.id, .payoutRequested quote.profitBasis quote.amount, env.branchNow⟩ ::
          if a.status ≠ a'.status then
            [⟨a.id, .accountStatusChanged a.status a'.status, env.branchNow⟩]
          else []))
  | .payoutApprove => do
      let quote ← acceptedQuote a env.branchNow "payout approval rejected: "
      let paid ← recordPayout a quote.amount quote.feeRefund env.branchNow
      pure (applied { paid with refundUsed := paid.refundUsed || decide (0 < quote.feeRefund) }
        .onDemand [⟨a.id, .payoutApproved quote.amount quote.feeRefund, env.branchNow⟩])

def applyEvent (env : Env) (a : Account) (ev : PipelineEvent) : Outcome AppliedEvent := do
  let dayStart ← a.plan.tradingDayStart (ev.eventTimestamp env.applyNow)
  applyBranch env
    { a with todayTrades := a.todayTrades.filter fun t => decide (dayStart ≤ t.executedAt) } ev

/-- The context the rules see: the state after the event, with the lists before a fill. -/
def buildContext (env : Env) (applied : AppliedEvent) (ev : PipelineEvent) : RuleContext :=
  let ctx : RuleContext :=
    { RuleContext.new applied.account env.contextNow env.violationId env.ruleNow with
      kind := applied.ctxKind
      openPositions := applied.openPositions
      todayTrades := applied.todayTrades
      ruleConfig := .fromPlan applied.account.plan }
  match ev with
  | .orderSubmitted order => { ctx with pendingOrder := some order }
  | .tradeFilled trade => { ctx with latestTrade := some trade }
  | .tick _ brokerEquity brokerBalance =>
      { ctx with equityInput := .brokerReported brokerEquity brokerBalance }
  | .tickEstimated _ =>
      { ctx with
        equityInput := .estimated applied.account.estimatedEquity applied.account.estimatedBalance }
  | _ => ctx

def consumeFill (a : Account) : Option (Trade × Position) → Account
  | none => a
  | some (trade, position) =>
      let others := a.openPositions.filter fun p => p.id != position.id
      { a with
        openPositions := if position.isOpen then others ++ [position] else others
        todayTrades := a.todayTrades ++ [trade] }

/-! ## Applying a decision -/

def nextPhaseFor : ChallengePhase → ChallengePhase
  | .phase1 => .phase2
  | .phase2 => .funded
  | .funded => .phase1

/-- A hit target is marked, whatever the account's status. -/
def applyTargetHit (a : Account) (d : Decision) (serverTime : Timestamp) :
    Account × List DomainEvent :=
  if d.kind = .targetHit then
    (a.markTargetReached serverTime,
      [⟨a.id, .accountStatusChanged a.status .targetHitPending, serverTime⟩])
  else (a, [])

def Account.promotable (a : Account) : Bool :=
  a.targetReachedAt.isSome && a.status == .targetHitPending &&
    decide (a.plan.minTradingDays ≤ a.activeTradingDays)

def Account.beginPhase (a : Account) : Account :=
  { a with
    status := .active
    targetReachedAt := none
    targetReachedOnDay := none
    activeTradingDays := 0
    tradingDayIndex := 0
    dayCountedToday := false
    todayRealizedPnl := 0
    largestDayProfit := 0
    largestDayLoss := 0
    sumPositiveDaysProfit := 0
    dayStartBalance := a.balance
    dayStartEquity := a.equity
    currentTradingDayStart := none
    peakEquity := a.equity
    peakBalance := a.balance }

def upgradeOrFail (a : Account) (next : ChallengePhase) : Outcome Account :=
  match a.upgradePhase next with
  | .ok a' => .ok a'
  | .error (.error e) => raise (.invalidState (.lit "phase upgrade failed: " :: e.display))
  | .error f => .error f

def applyPromotion (a : Account) (serverTime : Timestamp) : Outcome (Account × List DomainEvent) :=
  if a.promotable then do
    let next := nextPhaseFor a.plan.phase
    let upgraded ← upgradeOrFail { a with status := .passed } next
    pure (upgraded.beginPhase,
      [⟨a.id, .accountStatusChanged a.status .passed, serverTime⟩,
        ⟨a.id, .planUpgraded a.plan.phase next, serverTime⟩])
  else .ok (a, [])

def liquidationReason (d : Decision) : LiquidationReason :=
  match d.kind with
  | .liquidate =>
      let violation :=
        (d.allViolations.find? fun v =>
          decide (ViolationSeverity.liquidate.rank ≤ v.severity.rank)).or d.allViolations.head?
      .ruleBreach ((violation.map Violation.kind).getD .custom)
  | .emergency => .emergencyStop
  | _ => .manual

/-- A terminating decision moves the account to its target status, remembering the one before. -/
def applyTermination (a : Account) (d : Decision) (serverTime : Timestamp) (actorId : String) :
    Account × List DomainEvent :=
  match d.accountStatusTarget with
  | none => (a, [])
  | some target =>
      let a' : Account :=
        { a with
          statusBeforeBreach :=
            if target = .failed ∨ target = .emergencyStopped then some a.status
            else a.statusBeforeBreach
          status := target }
      let liquidation : List DomainEvent :=
        if d.kind = .liquidate ∨ d.kind = .emergency then
          [⟨a.id,
            .liquidationRequested (.new a.id a.tenantId a.openPositions (liquidationReason d)
              (d.allViolations.head?.map Violation.id) actorId serverTime), serverTime⟩]
        else []
      (a', ⟨a.id, .accountStatusChanged a.status target, serverTime⟩ :: liquidation)

def applyDecision (a : Account) (d : Decision) (serverTime : Timestamp) (actorId : String) :
    Outcome (Account × List DomainEvent) := do
  let (marked, targetEvents) := applyTargetHit a d serverTime
  let (promoted, promotionEvents) ← applyPromotion marked serverTime
  let (final, terminationEvents) := applyTermination promoted d serverTime actorId
  pure (final, targetEvents ++ promotionEvents ++ terminationEvents)

/-! ## Processing -/

structure Snapshot where
  accountId : AccountId
  «at» : Timestamp
  account : AccountSnapshot
  decision : Decision
deriving DecidableEq

structure PipelineResult where
  snapshot : Snapshot
  events : List DomainEvent
  result : EvaluationResult
  account : Account

def PipelineEvent.actorId : PipelineEvent → String
  | .emergencyStop _ actorId _ => actorId
  | _ => "rule_engine"

def stampTick (a : Account) : PipelineEvent → Account
  | .tick tick _ _ | .tickEstimated tick => { a with lastTickTs := some tick.quote.ts }
  | _ => a

def decisionEvents (accountId : AccountId) (d : Decision) (now : Timestamp) : List DomainEvent :=
  if d.kind = .fail ∨ d.kind = .liquidate then
    [⟨accountId, .accountStatusChanged .active .failed, now⟩]
  else []

def Pipeline.notifyAll (p : Pipeline) : List Violation → Outcome Unit
  | [] => .ok ()
  | v :: vs => do
      p.notifyViolation v
      p.notifyAll vs

/-- Processes one event on an account: day catch-up, state transition, rule evaluation, decision. -/
def Pipeline.process (p : Pipeline) (env : Env) (a : Account) (ev : PipelineEvent) :
    Outcome PipelineResult := do
  let (routed, rolloverEvents) ← route env a ev
  let applied ← applyEvent env routed ev
  let ctx := buildContext env applied ev
  let result := Evaluator.evaluate p.registry ctx env.reportNow
  let filled := consumeFill applied.account applied.tradeFill
  let (decided, statusEvents) ← applyDecision filled result.decision ctx.serverTime ev.actorId
  let final := stampTick decided ev
  p.notifyAll result.violations
  pure
    { snapshot :=
        { accountId := final.id, «at» := env.snapshotNow, account := .ofAccount final
          decision := result.decision }
      events :=
        rolloverEvents ++ applied.events ++ statusEvents ++
          decisionEvents a.id result.decision env.emitNow ++
          result.violations.map fun v => ⟨a.id, .ruleViolated v, ctx.serverTime⟩
      result
      account := final }

def Pipeline.run (p : Pipeline) (a : Account) : List (Env × PipelineEvent) → Outcome Account
  | [] => .ok a
  | (env, ev) :: rest => do
      let r ← p.process env a ev
      p.run r.account rest

/-- The pipeline over the rules of a plan, with a notifier that only logs. -/
def Pipeline.ofPlan (plan : ChallengePlan) : Pipeline where
  registry := .withDefaultRulesForPlan plan
  notifyViolation := fun _ => .ok ()

def Env.at (t : Timestamp) : Env where
  routingNow := t
  applyNow := t
  branchNow := t
  rolloverNow := t
  contextNow := t
  ruleNow := t
  reportNow := t
  snapshotNow := t
  emitNow := t
  positionId := ⟨0⟩
  violationId := fun _ => ⟨0⟩

end Propfirm
