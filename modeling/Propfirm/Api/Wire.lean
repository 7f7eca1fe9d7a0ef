import Propfirm.Pure

/-!
# The wire forms of the evaluate endpoint
-/

namespace Propfirm

/-- What is not the engine's own: reading and printing identifiers, times given in milliseconds, and the
upper case of a text. -/
structure WireFormat where
  parseUuid : String → Except String ℕ
  showUuid : ℕ → String
  fromTimestampMillis : ℤ → Option Timestamp
  toUppercase : String → String

def WireFormat.symbol (wire : WireFormat) (text : String) : Symbol := ⟨wire.toUppercase text⟩

/-! ## Failures -/

inductive StatusCode where
  | badRequest
  | forbidden
  | unprocessableEntity
  | internalServerError
deriving DecidableEq

/-- How a request can end without a response: an error status with its text, or a panic. -/
inductive ApiFault where
  | status (code : StatusCode) (msg : Text)
  | panic (msg : String)
deriving DecidableEq

abbrev ApiOutcome (α : Type) := Except ApiFault α

namespace ApiOutcome

variable {α : Type}

def badRequest (msg : Text) : ApiOutcome α := .error (.status .badRequest msg)

def ofText : Except String α → ApiOutcome α
  | .ok a => .ok a
  | .error e => badRequest [.lit e]

def ofOutcome (code : StatusCode) : Outcome α → ApiOutcome α
  | .ok a => .ok a
  | .error (.error e) => .error (.status code e.display)
  | .error (.panic msg) | .error (.overflow msg) => .error (.panic msg)

end ApiOutcome

/-! ## Positions and trades -/

def parsePositionSide (side : String) : Except String PositionSide :=
  match side.toLower with
  | "long" | "buy" => .ok .long
  | "short" | "sell" => .ok .short
  | other => .error ("invalid position side '" ++ other ++ "'")

def parseOrderSide (side : String) : Except String OrderSide :=
  match side.toLower with
  | "buy" | "long" => .ok .buy
  | "sell" | "short" => .ok .sell
  | other => .error ("invalid trade side '" ++ other ++ "'")

/-- A reversal has no wire form. -/
def parseTradeSide (tradeSide : String) : Except String TradeSide :=
  match tradeSide.toLower with
  | "entry" | "open" => .ok .entry
  | "exit" | "close" => .ok .exit
  | other => .error ("invalid trade_side '" ++ other ++ "'")

def parsePositionId (wire : WireFormat) (positionId : String) : Except String PositionId :=
  match wire.parseUuid positionId with
  | .ok raw => .ok ⟨raw⟩
  | .error e => .error ("invalid position_id: " ++ e)

structure PositionDto where
  positionId : String
  symbol : String
  side : String
  openQuantity : Decimal
  avgEntryPrice : Decimal
  openedAt : Timestamp
deriving DecidableEq

def PositionDto.intoDomain (wire : WireFormat) (accountId : AccountId) (p : PositionDto) :
    Except String Position := do
  let side ← parsePositionSide p.side
  let id ← parsePositionId wire p.positionId
  pure
    { id, accountId, side
      symbol := wire.symbol p.symbol
      openedAt := p.openedAt
      closedAt := none
      status := .open
      avgEntryPrice := p.avgEntryPrice
      openedQuantity := p.openQuantity
      openQuantity := p.openQuantity
      realizedPnl := 0
      commission := 0
      swap := 0 }

structure BridgeTickPositionDto where
  positionId : String
  symbol : String
  side : String
  openQuantity : Decimal
  avgEntryPrice : Decimal
  openedAt : Timestamp
  closedAt : Option Timestamp
  status : Option String
  realizedPnl : Option Decimal
  commission : Option Decimal
  swap : Option Decimal
deriving DecidableEq

/-- Any status text but two is read as open. -/
def parsePositionStatus (status : Option String) : PositionStatus :=
  match status.map String.toLower with
  | some "closed" => .closed
  | some "liquidated" => .liquidated
  | _ => .open

def BridgeTickPositionDto.intoDomain (wire : WireFormat) (accountId : AccountId)
    (p : BridgeTickPositionDto) : Except String Position := do
  let side ← parsePositionSide p.side
  let id ← parsePositionId wire p.positionId
  pure
    { id, accountId, side
      symbol := wire.symbol p.symbol
      openedAt := p.openedAt
      closedAt := p.closedAt
      status := parsePositionStatus p.status
      avgEntryPrice := p.avgEntryPrice
      openedQuantity := p.openQuantity
      openQuantity := p.openQuantity
      realizedPnl := p.realizedPnl.getD 0
      commission := p.commission.getD 0
      swap := p.swap.getD 0 }

structure TradeDto where
  symbol : String
  side : String
  tradeSide : String
  price : Decimal
  quantity : Decimal
  executedAt : Timestamp
  realizedPnl : Option Decimal
deriving DecidableEq

structure TradeIds where
  tradeId : TradeId
  orderId : OrderId
  positionId : PositionId
deriving DecidableEq

def TradeDto.intoDomain (wire : WireFormat) (accountId : AccountId) (ids : TradeIds) (t : TradeDto) :
    Except String Trade := do
  let side ← parseOrderSide t.side
  let tradeSide ← parseTradeSide t.tradeSide
  pure
    { id := ids.tradeId
      orderId := ids.orderId
      accountId, side, tradeSide
      symbol := wire.symbol t.symbol
      price := t.price
      quantity := t.quantity
      commission := 0
      swap := 0
      executedAt := t.executedAt
      exitInfo :=
        if tradeSide = .exit then
          some
            { positionId := ids.positionId
              realizedPnl := t.realizedPnl.getD 0
              closedQuantity := t.quantity
              entryPrice := t.price
              exitPrice := t.price }
        else none }

/-- Converts a list, the element at `i` with what is drawn for it; the first error is reported. -/
def convertFrom {δ β : Type} (f : ℕ → δ → Except String β) (i : ℕ) :
    List δ → Except String (List β)
  | [] => .ok []
  | d :: ds => do
      let b ← f i d
      let bs ← convertFrom f (i + 1) ds
      pure (b :: bs)

/-! ## Requests and responses -/

structure BridgeTickPayload where
  equityCents : ℤ
  balanceCents : ℤ
  positions : List BridgeTickPositionDto
  brokerTime : ℤ
deriving DecidableEq

structure InternalEvaluateRequest where
  accountId : String
  accountState : Option Account
  rulePack : Option RulePack
  bridgeTick : Option BridgeTickPayload
  tick : Option Tick
  equitySource : Option String
  openPositions : Option (List PositionDto)
  todayTrades : Option (List TradeDto)
  crossReferenceTrades : Option (List TradeDto)

structure FloorHints where
  floorDailyCents : Option ℤ
  floorTotalCents : Option ℤ
  targetEquityCents : Option ℤ
  floorsVersion : ℕ
deriving DecidableEq

structure InternalEvaluateResponse where
  evaluated : Bool
  decisionKind : String
  winningPriority : ℕ
  inputHash : String
  packVersion : ℕ
  packId : String
  violations : List Text
  violationDetails : List Violation
  accountState : Account
  hints : Option FloorHints

end Propfirm
