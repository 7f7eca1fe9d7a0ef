import Propfirm.Api.Wire
import Propfirm.Engine.Pipeline
import Propfirm.RegistryCache

/-!
# The evaluate endpoint
-/

namespace Propfirm

/-! ## Floor hints -/

/-- An amount in whole cents; one that does not fit gives zero. -/
def toCents (m : Money) : ℤ := (Decimal.toI64? (m * 100)).getD 0

namespace Account

/-- Below this equity the daily loss rule fires; none on a balance basis. -/
def floorDailyCents (a : Account) : Option ℤ :=
  if a.plan.drawdownOnBalance ∨ a.plan.maxDailyDrawdownPct ≤ 0 then none
  else
    let floorOf (reference : Money) : Option ℤ :=
      some (toCents (reference - a.plan.maxDailyDrawdownPct * reference))
    match a.plan.dailyLossType with
    | .none => none
    | .pctInitial => floorOf a.initialBalance
    | .pctPriorDay => floorOf a.dayStartEquity
    | .trailingIntradayHigh => floorOf a.intradayPeakEquity

def floorTotalCents (a : Account) : Option ℤ :=
  if a.plan.drawdownOnBalance ∨ a.plan.maxTotalDrawdownPct ≤ 0 then none
  else
    let pct := a.plan.maxTotalDrawdownPct
    let buffer := pct * a.initialBalance
    some (toCents
      (match a.plan.maxLossReference with
        | .static => a.initialBalance - buffer
        | .trailing => a.peakBalance - pct * a.peakBalance
        | .eodTrailing =>
            let unlocked := a.dayStartBalance - buffer
            if a.plan.eodTrailLocksAtStart then min unlocked a.initialBalance else unlocked
        | .intradayTrail => a.peakEquity - pct * a.peakEquity))

def targetEquityCents (a : Account) : Option ℤ :=
  if 0 < a.plan.profitTargetPct then
    some (toCents (a.initialBalance + a.plan.profitTargetPct * a.initialBalance))
  else none

def computeFloorHints (a : Account) : Option FloorHints :=
  if a.floorDailyCents.isNone && a.floorTotalCents.isNone && a.targetEquityCents.isNone then none
  else some ⟨a.floorDailyCents, a.floorTotalCents, a.targetEquityCents, a.version⟩

end Account

/-! ## Requests -/

def RulePack.syntheticFromPlan (wire : WireFormat) (digest : List FieldValue → String)
    (accountId : AccountId) (tenantId : TenantId) (plan : ChallengePlan) : RulePack :=
  let id := "plan-" ++ wire.showUuid accountId.raw
  { id
    version := 1
    contentHash :=
      digest
        [.text id, .count 1, .uuid tenantId.raw, .decimal plan.initialBalance, .count plan.leverage,
          .decimal plan.profitTargetPct] }

def validateAccountState (wire : WireFormat) (acc : Account) (accountId : AccountId)
    (tenantId : TenantId) : ApiOutcome Unit :=
  if acc.id ≠ accountId then
    .badRequest
      [.lit "account_state.id ", .accountId acc.id, .lit " does not match account_id ",
        .accountId accountId]
  else if acc.tenantId ≠ tenantId then
    .error (.status .forbidden
      [.lit "account_state.tenant_id ", .lit (wire.showUuid acc.tenantId.raw),
        .lit " does not match authenticated tenant ", .lit (wire.showUuid tenantId.raw)])
  else .ok ()

/-- What one request draws from outside: the wall clock and fresh identifiers. -/
structure ApiDraws where
  now : Timestamp
  crossReferenceAccountId : AccountId
  crossReferenceIds : ℕ → TradeIds
  todayIds : ℕ → TradeIds
  evaluation : EvaluateDraws

namespace InternalEvaluateRequest

def source (req : InternalEvaluateRequest) : ApiOutcome EquitySource :=
  match req.bridgeTick, req.equitySource with
  | some _, _ => .ok .brokerReported
  | none, none => .ok .estimated
  | none, some s =>
      if s = "estimated" then .ok .estimated
      else .ofOutcome .badRequest (EquitySource.parse s)

/-- The trades of other accounts. They are converted under one drawn account, and any of the
evaluated account would be dropped. -/
def references (req : InternalEvaluateRequest) (wire : WireFormat) (draws : ApiDraws)
    (accountId : AccountId) : ApiOutcome (List Trade) := do
  let trades ← .ofText (convertFrom
    (fun i t => t.intoDomain wire draws.crossReferenceAccountId (draws.crossReferenceIds i)) 0
    (req.crossReferenceTrades.getD []))
  pure (trades.filter fun t => decide (t.accountId ≠ accountId))

def today (req : InternalEvaluateRequest) (wire : WireFormat) (draws : ApiDraws) (accountId : AccountId) :
    ApiOutcome (List Trade) :=
  .ofText (convertFrom (fun i t => t.intoDomain wire accountId (draws.todayIds i)) 0
    (req.todayTrades.getD []))

structure Ingested where
  account : Account
  openPositions : List Position
  todayTrades : List Trade
  serverTime : Timestamp
  latestTick : Option Tick

def ingestBridge (wire : WireFormat) (draws : ApiDraws) (accountId : AccountId) (acc : Account)
    (req : InternalEvaluateRequest) (payload : BridgeTickPayload) : ApiOutcome Ingested := do
  let openPositions ← .ofText (convertFrom
    (fun _ p => BridgeTickPositionDto.intoDomain wire accountId p) 0 payload.positions)
  let todayTrades ← req.today wire draws accountId
  match wire.fromTimestampMillis payload.brokerTime with
  | none => .badRequest [.lit "invalid broker_time"]
  | some serverTime =>
      pure
        { account := { acc with equity := payload.equityCents / 100, balance := payload.balanceCents / 100 }
          openPositions, todayTrades, serverTime
          latestTick := none }

def ingestTick (wire : WireFormat) (draws : ApiDraws) (accountId : AccountId) (acc : Account)
    (req : InternalEvaluateRequest) : ApiOutcome Ingested :=
  match req.tick with
  | none => .badRequest [.lit "tick is required when bridge_tick is absent"]
  | some tick => do
      let openPositions ← .ofText (convertFrom
        (fun _ p => PositionDto.intoDomain wire accountId p) 0 (req.openPositions.getD []))
      let todayTrades ← req.today wire draws accountId
      pure
        { account := acc
          openPositions, todayTrades
          serverTime := tick.quote.ts
          latestTick := some tick }

def ingest (wire : WireFormat) (draws : ApiDraws) (accountId : AccountId) (acc : Account)
    (req : InternalEvaluateRequest) : ApiOutcome Ingested :=
  match req.bridgeTick with
  | some payload => ingestBridge wire draws accountId acc req payload
  | none => ingestTick wire draws accountId acc req

end InternalEvaluateRequest

/-! ## Evaluation -/

def rejectStale (now serverTime : Timestamp) : ApiOutcome Unit :=
  let stalenessSecs := Duration.numSeconds (now - serverTime)
  if 10 * 60 < stalenessSecs then
    .error (.status .unprocessableEntity
      [.lit "tick rejected: server_time is ", .int stalenessSecs,
        .lit " seconds old (threshold: ", .int (10 * 60), .lit "s)"])
  else .ok ()

/-- What the rules are asked to judge. -/
def InternalEvaluateRequest.Ingested.inputs (i : Ingested) (references : List Trade)
    (source : EquitySource) : EvaluateInputs :=
  match i.latestTick with
  | some tick =>
      ((EvaluateInputs.forTick i.openPositions i.todayTrades tick).withCrossReferenceTrades
        references).withEquitySource source
  | none =>
      { EvaluateInputs.default with
        openPositions := i.openPositions
        todayTrades := i.todayTrades
        crossReferenceTrades := references
        equitySource := source }

/-- Broker figures raise the two peaks; estimates do not. -/
def raisePeaks (source : EquitySource) (acc : Account) : Account :=
  match source with
  | .brokerReported =>
      { acc with
        peakEquity := if acc.peakEquity < acc.equity then acc.equity else acc.peakEquity
        peakBalance := if acc.peakBalance < acc.balance then acc.balance else acc.peakBalance }
  | .estimated => acc

def DecisionKind.debug : DecisionKind → String
  | .pass => "Pass"
  | .warn => "Warn"
  | .earlyWarning => "EarlyWarning"
  | .targetHit => "TargetHit"
  | .fail => "Fail"
  | .softFail => "SoftFail"
  | .gapFlagged => "GapFlagged"
  | .liquidate => "Liquidate"
  | .emergency => "Emergency"

def notEvaluated (acc : Account) : InternalEvaluateResponse where
  evaluated := false
  decisionKind := "NotEvaluated"
  winningPriority := 0
  inputHash := ""
  packVersion := 0
  packId := ""
  violations := []
  violationDetails := []
  accountState := acc
  hints := none

section Handler

variable (wire : WireFormat) (digest : List FieldValue → String)
  (hash : List FieldValue → UInt64) (cache : RegistryCache) (draws : ApiDraws)

def evaluateIngested (accountId : AccountId) (tenantId : TenantId) (plan : ChallengePlan)
    (source : EquitySource) (references : List Trade) (i : InternalEvaluateRequest.Ingested) :
    ApiOutcome InternalEvaluateResponse := do
  rejectStale draws.now i.serverTime
  let acc := raisePeaks source i.account
  let verdict := Pure.evaluate digest draws.evaluation acc
    (.syntheticFromPlan wire digest accountId tenantId plan) (cache.getOrBuild hash plan).1 .onTick
    i.serverTime (i.inputs references source)
  let (final, _) ← .ofOutcome .internalServerError
    (applyDecision acc verdict.decision i.serverTime "evaluate_internal")
  pure
    { evaluated := true
      decisionKind := verdict.decision.kind.debug
      winningPriority := verdict.decision.winningPriority
      inputHash := verdict.inputHash
      packVersion := verdict.packVersion
      packId := verdict.packId
      violations := verdict.decision.allViolations.map Violation.message
      violationDetails := verdict.decision.allViolations
      accountState := final
      hints := final.computeFloorHints }

def evaluateState (accountId : AccountId) (tenantId : TenantId) (source : EquitySource)
    (acc : Account) (req : InternalEvaluateRequest) : ApiOutcome InternalEvaluateResponse :=
  if acc.status.evaluationMode = .skip then .ok (notEvaluated acc)
  else if req.rulePack.isSome then
    .badRequest
      [.lit "rule_pack is no longer accepted; evaluation uses the account's bound plan"]
  else do
    let references ← req.references wire draws accountId
    let ingested ← req.ingest wire draws accountId acc
    evaluateIngested wire digest hash cache draws accountId tenantId acc.plan source references
      ingested

/-- The evaluate endpoint. The cache it leaves is the one `getOrBuild` returns for the plan of the
account, if the request gets that far. -/
def evaluateInternal (tenantId : TenantId) (req : InternalEvaluateRequest) :
    ApiOutcome InternalEvaluateResponse := do
  let raw ← .ofText (wire.parseUuid req.accountId)
  let source ← req.source
  match req.accountState with
  | none => .badRequest [.lit "account_state is required for stateless evaluation"]
  | some acc => do
      validateAccountState wire acc ⟨raw⟩ tenantId
      evaluateState wire digest hash cache draws ⟨raw⟩ tenantId source acc req

end Handler

end Propfirm
