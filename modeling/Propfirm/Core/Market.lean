import Propfirm.Core.Types

/-!
# Orders, fills, positions, quotes and instruments
-/

namespace Propfirm

/-! ## Orders -/

inductive OrderSide where
  | buy
  | sell
deriving DecidableEq

inductive OrderType where
  | market
  | limit (price : Price)
  | stop (stop : Price)
  | stopLimit (stop limit : Price)
deriving DecidableEq

inductive OrderKind where
  | «open»
  | close (positionId : PositionId) (partialQuantity : Option Quantity)
  | reverse
deriving DecidableEq

inductive OrderStatus where
  | pending
  | accepted
  | partiallyFilled
  | filled
  | cancelled
  | rejected
  | expired
deriving DecidableEq

structure Order where
  id : OrderId
  accountId : AccountId
  symbol : Symbol
  side : OrderSide
  kind : OrderKind
  orderType : OrderType
  quantity : Quantity
  stopLoss : Option Price
  takeProfit : Option Price
  submittedAt : Timestamp
  avgFillPrice : Option Price
deriving DecidableEq

/-! ## Fills -/

inductive TradeSide where
  | entry
  | exit
  | reverse
deriving DecidableEq

structure TradeExit where
  positionId : PositionId
  realizedPnl : Money
  closedQuantity : Quantity
  entryPrice : Price
  exitPrice : Price
deriving DecidableEq

structure Trade where
  id : TradeId
  orderId : OrderId
  accountId : AccountId
  symbol : Symbol
  side : OrderSide
  tradeSide : TradeSide
  price : Price
  quantity : Quantity
  commission : Money
  swap : Money
  executedAt : Timestamp
  exitInfo : Option TradeExit
deriving DecidableEq

def Trade.netPnl (t : Trade) : Money :=
  (match t.exitInfo with
    | none => 0
    | some e => e.realizedPnl) - t.commission - t.swap

/-! ## Positions -/

inductive PositionSide where
  | long
  | short
deriving DecidableEq

def PositionSide.fromOrder : OrderSide → PositionSide
  | .buy => .long
  | .sell => .short

inductive PositionStatus where
  | «open»
  | closed
  | liquidated
deriving DecidableEq

structure Position where
  id : PositionId
  accountId : AccountId
  symbol : Symbol
  side : PositionSide
  openedAt : Timestamp
  closedAt : Option Timestamp
  status : PositionStatus
  avgEntryPrice : Price
  openedQuantity : Quantity
  openQuantity : Quantity
  realizedPnl : Money
  commission : Money
  swap : Money
deriving DecidableEq

def Position.open (id : PositionId) (accountId : AccountId) (symbol : Symbol) (side : PositionSide)
    (entryPrice : Price) (quantity : Quantity) (openedAt : Timestamp) (commission : Money) :
    Position :=
  { id, accountId, symbol, side, openedAt
    closedAt := none
    status := .open
    avgEntryPrice := entryPrice
    openedQuantity := quantity
    openQuantity := quantity
    realizedPnl := 0
    commission
    swap := 0 }

def Position.isOpen (p : Position) : Bool := p.status == .open && decide (0 < p.openQuantity)

/-! ## Quotes -/

structure Quote where
  bid : Price
  ask : Price
  ts : Timestamp
deriving DecidableEq

def Quote.mid (q : Quote) : Price := (q.bid + q.ask) / 2

structure Tick where
  symbol : Symbol
  quote : Quote
deriving DecidableEq

def unrealizedPnl (entry current : Price) (qty : Quantity) (side : PositionSide) : Money :=
  (match side with
    | .long => current - entry
    | .short => entry - current) * qty

def Position.unrealizedPnl (p : Position) (q : Quote) : Money :=
  if p.isOpen then
    Propfirm.unrealizedPnl p.avgEntryPrice
      (match p.side with
        | .long => q.bid
        | .short => q.ask) p.openQuantity p.side
  else 0

/-! ## Instruments -/

structure InstrumentSpec where
  symbol : Symbol
  contractSize : Decimal
  pipSize : Decimal
  isLowcap : Bool
deriving DecidableEq

namespace InstrumentSpec

/-- The spec of an unregistered symbol: one unit is one lot. -/
def default : InstrumentSpec :=
  { symbol := ⟨"<DEFAULT>"⟩, contractSize := 1, pipSize := 1 / 10000, isLowcap := false }

def unitsToLots (spec : InstrumentSpec) (units : Quantity) : Outcome Lots :=
  units.div spec.contractSize

def notional (spec : InstrumentSpec) (lots : Lots) (price : Price) : Money :=
  lots * spec.contractSize * price

end InstrumentSpec

structure InstrumentRegistry where
  specs : Symbol → Option InstrumentSpec

namespace InstrumentRegistry

def new : InstrumentRegistry := ⟨fun _ => none⟩

def get (r : InstrumentRegistry) (s : Symbol) : InstrumentSpec := (r.specs s).getD .default

end InstrumentRegistry

end Propfirm
