import Propfirm.Engine.Events
import Propfirm.Lib.Replay

/-!
# The event store

The in-memory store is a log for each account. Replay reads the events of an account as a second
interpreter of them, apart from the pipeline that emitted them.
-/

namespace Propfirm

open Replay

structure InMemoryEventStore where
  events : AccountId → List DomainEvent

/-- The status that a violation alone puts a replayed account in. -/
def ViolationKind.terminal : ViolationKind → Option AccountStatus
  | .dailyDrawdown | .maxDrawdown | .trailingDrawdown => some .failed
  | .profitTargetMissed => some .passed
  | _ => none

/-- Replays one event on the account `id`. -/
def replayEvent (id : AccountId) (acc : Account) (ev : DomainEvent) : Outcome Account :=
  match ev.kind with
  | .accountStarted _ => acc.start ev.occurredAt
  | .accountStatusChanged _ to_ => .ok { acc with status := to_ }
  | .tradeFilled trade =>
      let net := trade.netPnl
      let balance := acc.balance + net
      .ok
        { acc with
          balance
          totalRealizedPnl := acc.totalRealizedPnl + net
          peakBalance := if acc.peakBalance < balance then balance else acc.peakBalance }
  | .dayRollover newDayIndex dayStart =>
      .ok
        { acc with
          activeTradingDays :=
            if acc.todayRealizedPnl ≠ 0 then acc.activeTradingDays + 1 else acc.activeTradingDays
          tradingDayIndex := newDayIndex
          dayStartBalance := dayStart
          todayRealizedPnl := 0 }
  | .tickEvaluated equity =>
      .ok
        { acc with
          equity
          peakEquity := if acc.peakEquity < equity then equity else acc.peakEquity }
  | .accountSnapshotted snapshot =>
      .ok
        { acc with
          status := snapshot.status
          balance := snapshot.balance
          equity := snapshot.equity
          peakEquity := snapshot.peakEquity
          peakBalance := snapshot.peakBalance
          dayStartBalance := snapshot.dayStartBalance
          activeTradingDays := snapshot.activeTradingDays
          tradingDayIndex := snapshot.tradingDayIndex
          targetReachedAt := snapshot.targetReachedAt
          version := snapshot.version }
  | .orderEvent _ _ => .ok acc
  | .positionOpened positionId symbol side qty =>
      if acc.openPositions.any fun p => p.id == positionId then .ok acc
      else
        .ok
          { acc with
            openPositions := acc.openPositions ++
              [{ id := positionId
                 accountId := id
                 symbol
                 side
                 openedAt := ev.occurredAt
                 closedAt := none
                 status := .open
                 avgEntryPrice := 0
                 openedQuantity := qty
                 openQuantity := qty
                 realizedPnl := 0
                 commission := 0
                 swap := 0 }] }
  | .positionClosed positionId realizedPnl =>
      -- the first position of that identifier is closed where it stands
      .ok
        { acc with
          openPositions :=
            match acc.openPositions.findIdx? fun p => p.id == positionId with
            | none => acc.openPositions
            | some idx => acc.openPositions.modify idx fun p =>
                { p with
                  status := .closed
                  closedAt := some ev.occurredAt
                  realizedPnl
                  openQuantity := 0 } }
  | .ruleViolated violation => .ok { acc with status := violation.kind.terminal.getD acc.status }
  | .planUpgraded _ toPhase => .ok { acc with accountType := .ofPhase toPhase }
  | .payoutRequested _ _ => .ok { acc with status := .payoutPending }
  | .payoutApproved amount feeRefund =>
      let balance := acc.balance - amount
      .ok
        { acc with
          balance
          balanceAtLastPayout := balance
          lastPayoutAt := some ev.occurredAt
          payoutCount := acc.payoutCount + 1
          refundUsed := if 0 < feeRefund then true else acc.refundUsed
          status := .funded }
  | .liquidationRequested _ => .ok { acc with status := .closed }
  | .overrideCleared .. => .ok { acc with status := .active }

namespace InMemoryEventStore

def empty : InMemoryEventStore := ⟨fun _ => []⟩

def append (s : InMemoryEventStore) (ev : DomainEvent) : InMemoryEventStore :=
  ⟨Function.update s.events ev.accountId (s.events ev.accountId ++ [ev])⟩

def all (s : InMemoryEventStore) (id : AccountId) : List DomainEvent := s.events id

def recent (s : InMemoryEventStore) (id : AccountId) (n : ℕ) : List DomainEvent :=
  let all := s.all id
  if n < all.length then all.drop (all.length - n) else all

/-- Rebuilds an account from its events, under the tenant drawn for it. The first event has to be the
start of the account. -/
def replay (s : InMemoryEventStore) (id : AccountId) (tenantId : TenantId) : Outcome Account :=
  let events := s.all id
  match events.head?.map DomainEvent.kind with
  | some (.accountStarted plan) => Replay.replay (replayEvent id) (.new id tenantId plan) events
  | _ => raise (.notFound [.lit "no AccountStarted event for account ", .accountId id])

end InMemoryEventStore

end Propfirm
