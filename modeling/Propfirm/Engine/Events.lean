import Propfirm.Engine.Decision
import Propfirm.Engine.State

/-!
# Domain events and liquidation instructions

Identifiers of events and instructions, and causation links, are left out.
-/

namespace Propfirm

/-! ## Liquidation -/

structure LiquidationPosition where
  positionId : PositionId
  symbol : Symbol
  side : PositionSide
  openQuantity : Quantity
  avgEntryPrice : Price
deriving DecidableEq

def LiquidationPosition.fromPosition (p : Position) : LiquidationPosition where
  positionId := p.id
  symbol := p.symbol
  side := p.side
  openQuantity := p.openQuantity
  avgEntryPrice := p.avgEntryPrice

inductive LiquidationReason where
  | ruleBreach (kind : ViolationKind)
  | emergencyStop
  | manual
deriving DecidableEq

structure LiquidationInstruction where
  accountId : AccountId
  tenantId : TenantId
  positions : List LiquidationPosition
  reason : LiquidationReason
  triggeredByViolationId : Option ViolationId
  estimatedNotional : Money
  issuedAt : Timestamp
  actorId : String
deriving DecidableEq

/-- The instruction to close every open position. The notional is estimated with an empty instrument
registry, whose contract size is one. -/
def LiquidationInstruction.new (accountId : AccountId) (tenantId : TenantId)
    (positions : List Position) (reason : LiquidationReason)
    (triggeredByViolationId : Option ViolationId) (actorId : String) (issuedAt : Timestamp) :
    LiquidationInstruction :=
  let liqPositions := (positions.filter Position.isOpen).map LiquidationPosition.fromPosition
  { accountId, tenantId, positions := liqPositions, reason, triggeredByViolationId
    estimatedNotional :=
      (liqPositions.map fun p =>
        let spec := InstrumentRegistry.new.get p.symbol
        |spec.notional (p.openQuantity / spec.contractSize) p.avgEntryPrice|).sum
    issuedAt, actorId }

/-! ## Domain events -/

inductive DomainEventKind where
  | accountStarted (plan : ChallengePlan)
  | accountStatusChanged (from_ to_ : AccountStatus)
  | accountSnapshotted (snapshot : AccountSnapshot)
  | orderEvent (orderId : OrderId) (newStatus : OrderStatus)
  | tradeFilled (trade : Trade)
  | positionOpened (positionId : PositionId) (symbol : Symbol) (side : PositionSide) (qty : Quantity)
  | positionClosed (positionId : PositionId) (realizedPnl : Money)
  | tickEvaluated (equity : Money)
  | dayRollover (newDayIndex : ℕ) (dayStart : Money)
  | ruleViolated (violation : Violation)
  | planUpgraded (fromPhase toPhase : ChallengePhase)
  | payoutRequested (profitBasis amount : Money)
  | payoutApproved (amount feeRefund : Money)
  | liquidationRequested (instruction : LiquidationInstruction)
  | overrideCleared (clearsViolationId : ViolationId) (reason actorId : String) (clearedAt : Timestamp)

structure DomainEvent where
  accountId : AccountId
  kind : DomainEventKind
  occurredAt : Timestamp

end Propfirm
