import Propfirm.Engine.Decision
import Propfirm.Hashing

/-!
# Stateless evaluation

The digest over the hashed values is a parameter. A rule pack is known by its identifier, its version
and the digest of its content, which is all an evaluation reads of it.
-/

namespace Propfirm

inductive EquitySource where
  | brokerReported
  | estimated
deriving DecidableEq

def EquitySource.parse (s : String) : Outcome EquitySource :=
  match s.toLower with
  | "broker_reported" | "broker" => .ok .brokerReported
  | "estimated" | "estimate" => .ok .estimated
  | other =>
      raise (.invalidConfig
        [.lit "unknown equity_source '", .lit other,
          .lit "' (expected broker_reported | estimated)"])

structure RulePack where
  id : String
  version : ℕ
  contentHash : String
deriving DecidableEq

structure EvaluateInputs where
  openPositions : List Position
  todayTrades : List Trade
  crossReferenceTrades : List Trade
  pendingOrder : Option Order
  latestTrade : Option Trade
  latestTick : Option Tick
  equitySource : EquitySource
deriving DecidableEq

namespace EvaluateInputs

def default : EvaluateInputs where
  openPositions := []
  todayTrades := []
  crossReferenceTrades := []
  pendingOrder := none
  latestTrade := none
  latestTick := none
  equitySource := .estimated

def forTick (openPositions : List Position) (todayTrades : List Trade) (latestTick : Tick) :
    EvaluateInputs :=
  { default with openPositions, todayTrades, latestTick := some latestTick }

def withEquitySource (i : EvaluateInputs) (equitySource : EquitySource) : EvaluateInputs :=
  { i with equitySource }

def withCrossReferenceTrades (i : EvaluateInputs) (crossReferenceTrades : List Trade) :
    EvaluateInputs :=
  { i with crossReferenceTrades }

end EvaluateInputs

/-! ## The input hash -/

def RuleContextKind.display : RuleContextKind → String
  | .onOrderSubmit => "on_order_submit"
  | .onTradeFill => "on_trade_fill"
  | .onTick => "on_tick"
  | .onDayRollover => "on_day_rollover"
  | .onEndOfDay => "on_end_of_day"
  | .onDemand => "on_demand"

def Position.hashedFields (p : Position) : List FieldValue :=
  [.uuid p.id.raw, .text p.symbol.text, .discriminant p.side.ctorIdx, .decimal p.openQuantity,
    .decimal p.avgEntryPrice]

def Trade.todayFields (t : Trade) : List FieldValue :=
  [.uuid t.id.raw, .text t.symbol.text, .discriminant t.side.ctorIdx, .decimal t.price,
    .decimal t.quantity, .time t.executedAt]

def Trade.referenceFields (t : Trade) : List FieldValue :=
  [.uuid t.id.raw, .uuid t.accountId.raw, .text t.symbol.text, .decimal t.price,
    .decimal t.quantity]

def Order.hashedFields (o : Order) : List FieldValue :=
  [.uuid o.id.raw, .text o.symbol.text, .discriminant o.side.ctorIdx, .decimal o.quantity,
    .time o.submittedAt]

def Trade.latestFields (t : Trade) : List FieldValue := [.uuid t.id.raw, .time t.executedAt]

def Tick.hashedFields (t : Tick) : List FieldValue :=
  [.text t.symbol.text, .decimal t.quote.bid, .decimal t.quote.ask, .time t.quote.ts]

/-- The values of the lists, the source and the optional parts, without separators. -/
def EvaluateInputs.hashedFields (i : EvaluateInputs) : List FieldValue :=
  i.openPositions.flatMap Position.hashedFields ++ i.todayTrades.flatMap Trade.todayFields ++
    i.crossReferenceTrades.flatMap Trade.referenceFields ++
    [.discriminant i.equitySource.ctorIdx] ++ i.pendingOrder.elim [] Order.hashedFields ++
    i.latestTrade.elim [] Trade.latestFields ++ i.latestTick.elim [] Tick.hashedFields

/-- Everything that is fed to the hasher, in order (`compute_input_hash`). -/
def inputFields (account : Account) (pack : RulePack) (ctxKind : RuleContextKind)
    (serverTime : Timestamp) (inputs : EvaluateInputs) : List FieldValue :=
  account.hashedFields ++ account.plan.hashedFields ++
    [.text pack.contentHash, .time serverTime, .text ctxKind.display] ++ inputs.hashedFields

def computeInputHash (digest : List FieldValue → String) (account : Account) (pack : RulePack)
    (ctxKind : RuleContextKind) (serverTime : Timestamp) (inputs : EvaluateInputs) : String :=
  digest (inputFields account pack ctxKind serverTime inputs)

/-! ## Evaluation -/

/-- What a call draws from outside: fresh identifiers and clock readings. -/
structure EvaluateDraws where
  violationId : RuleId → ViolationId
  wallClock : Timestamp
  reportNow : Timestamp

structure PureVerdict where
  decision : Decision
  reports : List RuleReport
  inputHash : String
  packVersion : ℕ
  packId : String
deriving DecidableEq

def PureVerdict.isTerminating (v : PureVerdict) : Bool := v.decision.isTerminating

namespace Pure

/-- The context of a stateless evaluation. No instruments are registered in it, and the equity is that
of the account, under the source the caller states. -/
def context (draws : EvaluateDraws) (account : Account) (ctxKind : RuleContextKind)
    (serverTime : Timestamp) (inputs : EvaluateInputs) : RuleContext :=
  { RuleContext.new account serverTime draws.violationId draws.wallClock with
    kind := ctxKind
    openPositions := inputs.openPositions
    todayTrades := inputs.todayTrades
    crossReferenceTrades := inputs.crossReferenceTrades
    pendingOrder := inputs.pendingOrder
    latestTrade := inputs.latestTrade
    ruleConfig := .fromPlan account.plan
    equityInput :=
      match inputs.equitySource with
      | .brokerReported => .brokerReported account.equity account.balance
      | .estimated => .estimated account.equity account.balance }

def evaluate (digest : List FieldValue → String) (draws : EvaluateDraws) (account : Account)
    (pack : RulePack) (registry : RuleRegistry) (ctxKind : RuleContextKind)
    (serverTime : Timestamp) (inputs : EvaluateInputs) : PureVerdict :=
  let ctx := context draws account ctxKind serverTime inputs
  let reports := registry.evaluate ctx draws.reportNow
  { decision := .fromReports reports
    reports
    inputHash := computeInputHash digest account pack ctxKind serverTime inputs
    packVersion := pack.version
    packId := pack.id }

end Pure

end Propfirm
