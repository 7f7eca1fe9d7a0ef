import Propfirm.Api.Handler
import Propfirm.Api.Override

/-!
# The endpoints that run the pipeline

Each takes the account from the request, runs the pipeline over its plan on it, and answers with the
account that the pipeline leaves. The service keeps no account. The audit entries, which are written
nowhere, are left out.
-/

namespace Propfirm

/-! ## Texts -/

def ViolationKind.display : ViolationKind → String
  | .dailyDrawdown => "daily_drawdown"
  | .maxDrawdown => "max_drawdown"
  | .trailingDrawdown => "trailing_drawdown"
  | .profitTargetMissed => "profit_target_missed"
  | .minTradingDays => "min_trading_days"
  | .minProfitableDays => "min_profitable_days"
  | .consistency => "consistency"
  | .newsTrading => "news_trading"
  | .overnightHolding => "overnight_holding"
  | .weekendHolding => "weekend_holding"
  | .maxPositionSize => "max_position_size"
  | .maxLotSize => "max_lot_size"
  | .maxOpenPositions => "max_open_positions"
  | .maxDailyTrades => "max_daily_trades"
  | .timeLimit => "time_limit"
  | .cooldown => "cooldown"
  | .hedging => "hedging"
  | .gridTrading => "grid_trading"
  | .copyTrading => "copy_trading"
  | .missingStopLoss => "missing_stop_loss"
  | .missingTakeProfit => "missing_take_profit"
  | .crossAccountHedging => "cross_account_hedging"
  | .lowcapExposure => "lowcap_exposure"
  | .custom => "custom"

def ViolationKind.debug : ViolationKind → String
  | .dailyDrawdown => "DailyDrawdown"
  | .maxDrawdown => "MaxDrawdown"
  | .trailingDrawdown => "TrailingDrawdown"
  | .profitTargetMissed => "ProfitTargetMissed"
  | .minTradingDays => "MinTradingDays"
  | .minProfitableDays => "MinProfitableDays"
  | .consistency => "Consistency"
  | .newsTrading => "NewsTrading"
  | .overnightHolding => "OvernightHolding"
  | .weekendHolding => "WeekendHolding"
  | .maxPositionSize => "MaxPositionSize"
  | .maxLotSize => "MaxLotSize"
  | .maxOpenPositions => "MaxOpenPositions"
  | .maxDailyTrades => "MaxDailyTrades"
  | .timeLimit => "TimeLimit"
  | .cooldown => "Cooldown"
  | .hedging => "Hedging"
  | .gridTrading => "GridTrading"
  | .copyTrading => "CopyTrading"
  | .missingStopLoss => "MissingStopLoss"
  | .missingTakeProfit => "MissingTakeProfit"
  | .crossAccountHedging => "CrossAccountHedging"
  | .lowcapExposure => "LowcapExposure"
  | .custom => "Custom"

def ViolationSeverity.debug : ViolationSeverity → String
  | .info => "Info"
  | .warning => "Warning"
  | .hard => "Hard"
  | .liquidate => "Liquidate"

/-! ## Requests and responses -/

structure ManualRunRequest where
  accountId : String
  accountState : Option Account

structure ManualRunResponse where
  decisionKind : String
  passed : Bool
  violations : List Text
  violationDetails : List Violation
  accountState : Account

structure EmergencyStopRequest where
  accountId : String
  accountState : Option Account
  reason : String
  actorId : String

structure EmergencyStopResponse where
  decisionKind : String
  stoppedAt : Timestamp
  accountState : Account

structure EvaluateOrderRequest where
  accountId : String
  accountState : Option Account
  symbol : String
  side : String
  quantity : Decimal
  orderType : String
  price : Option Decimal
  stopLoss : Option Decimal
  takeProfit : Option Decimal

structure EvaluateOrderResponse where
  decision : String
  passed : Bool
  violations : List Text
  violationDetails : List Violation
  accountState : Account

/-- The whole body of an override request: the part that is checked first, and who overrides why. -/
structure OverrideBody extends OverrideRequest where
  reason : String
  actorId : String

structure OverrideResponse where
  overrideId : ViolationId
  clearedAt : Timestamp
  accountState : Account

structure OverrideSummary where
  overrideId : String
  clearsViolationId : String
  reason : String
  actorId : String
  «at» : String

structure BreachReportRequest where
  accountId : String
  accountState : Option Account
  violations : List Violation
  overrides : List OverrideSummary

structure ViolationSummary where
  ruleName : String
  kind : String
  severity : String
  message : Text
  occurredAt : Timestamp
  cleared : Bool
deriving DecidableEq

structure BreachReportResponse where
  accountId : String
  accountStatus : String
  violations : List ViolationSummary
  currentViolations : List ViolationSummary

/-! ## Handlers -/

/-- What one request draws: the clock where the handler reads it itself, fresh identifiers, and what the
pipeline draws. -/
structure ServiceDraws where
  now : Timestamp
  env : Env
  orderId : OrderId
  overrideId : ViolationId
  /-- In place of the identifier of the n-th override that cannot be read. -/
  unreadableId : ℕ → ViolationId

def EvaluationResult.passed (r : EvaluationResult) : Bool := r.decision.kind == .pass

def PipelineResult.passed (r : PipelineResult) : Bool := r.result.passed

def ViolationSummary.of (cleared : Bool) (v : Violation) : ViolationSummary where
  ruleName := v.ruleName
  kind := v.kind.debug
  severity := v.severity.debug
  message := v.message
  occurredAt := v.occurredAt
  cleared

section Handlers

variable (wire : WireFormat) (hash : List FieldValue → UInt64) (cache : RegistryCache)
  (draws : ServiceDraws)

/-- The account that a request is about, if it is that of the identifier and the tenant. -/
def requestedAccount (missing : String) (tenantId : TenantId) (accountId : String)
    (accountState : Option Account) : ApiOutcome Account := do
  let raw ← .ofText (wire.parseUuid accountId)
  match accountState with
  | none => .badRequest [.lit missing]
  | some acc => do
      validateAccountState wire acc ⟨raw⟩ tenantId
      pure acc

/-- The pipeline of a request: the cached registry of the plan, and a notifier that only logs. -/
def servicePipeline (plan : ChallengePlan) : Pipeline where
  registry := (cache.getOrBuild hash plan).1
  notifyViolation := fun _ => .ok ()

def runPipeline (acc : Account) (ev : PipelineEvent) : ApiOutcome PipelineResult :=
  .ofOutcome .internalServerError ((servicePipeline hash cache acc.plan).process draws.env acc ev)

def manualRun (tenantId : TenantId) (req : ManualRunRequest) : ApiOutcome ManualRunResponse := do
  let acc ← requestedAccount wire "account_state is required for stateless evaluation" tenantId
    req.accountId req.accountState
  if acc.status.evaluationMode = .skip then
    pure
      { decisionKind := "NotEvaluated"
        passed := false
        violations := []
        violationDetails := []
        accountState := acc }
  else do
    let r ← runPipeline hash cache draws acc .onDemand
    pure
      { decisionKind := r.snapshot.decision.kind.debug
        passed := r.passed
        violations := r.result.violations.map Violation.message
        violationDetails := r.result.decision.allViolations
        accountState := r.account }

/-- An account that is stopped already is answered as if it was stopped by this request. -/
def emergencyStop (tenantId : TenantId) (req : EmergencyStopRequest) :
    ApiOutcome EmergencyStopResponse := do
  let acc ← requestedAccount wire "account_state is required for stateless evaluation" tenantId
    req.accountId req.accountState
  if acc.status = .emergencyStopped then
    pure { decisionKind := "Emergency", stoppedAt := draws.now, accountState := acc }
  else if acc.status.evaluationMode = .skip then
    pure { decisionKind := "NotEvaluated", stoppedAt := draws.now, accountState := acc }
  else do
    let r ← runPipeline hash cache draws acc (.emergencyStop req.reason req.actorId draws.now)
    pure
      { decisionKind := r.snapshot.decision.kind.debug
        stoppedAt := draws.now
        accountState := r.account }

def EvaluateOrderRequest.orderSide (req : EvaluateOrderRequest) : ApiOutcome OrderSide :=
  match req.side with
  | "buy" => .ok .buy
  | "sell" => .ok .sell
  | other => .badRequest [.lit "invalid side ", .lit other]

/-- Any type but a limit is taken for a market order, and a limit without a price for one at zero. -/
def EvaluateOrderRequest.order (req : EvaluateOrderRequest) (accountId : AccountId) (side : OrderSide) :
    Order where
  id := draws.orderId
  accountId
  symbol := wire.symbol req.symbol
  side
  kind := .open
  orderType :=
    match req.orderType with
    | "market" => .market
    | "limit" => .limit (req.price.getD 0)
    | _ => .market
  quantity := req.quantity
  stopLoss := req.stopLoss
  takeProfit := req.takeProfit
  submittedAt := draws.now
  avgFillPrice := none

def evaluateOrder (tenantId : TenantId) (req : EvaluateOrderRequest) :
    ApiOutcome EvaluateOrderResponse := do
  let acc ← requestedAccount wire "account_state is required for stateless evaluation" tenantId
    req.accountId req.accountState
  if acc.status.evaluationMode = .skip then
    pure
      { decision := "NotEvaluated"
        passed := false
        violations := []
        violationDetails := []
        accountState := acc }
  else do
    let side ← req.orderSide
    let r ← runPipeline hash cache draws acc (.orderSubmitted (req.order wire draws acc.id side))
    pure
      { decision := r.snapshot.decision.kind.debug
        passed := r.passed
        violations := r.result.violations.map fun v => .lit v.kind.display :: .lit ": " :: v.message
        violationDetails := r.result.decision.allViolations
        accountState := r.account }

/-- The identifier to clear is the one of the violation: the two were compared. -/
def OverrideBody.record (req : OverrideBody) (accountId : AccountId) : Override where
  accountId
  clearsViolationId := req.violation.id
  reason := req.reason
  actorId := req.actorId
  «at» := draws.now

def overrideBreach (tenantId : TenantId) (req : OverrideBody) : ApiOutcome OverrideResponse := do
  let acc ← checkOverride wire tenantId req.toOverrideRequest
  let r ← runPipeline hash cache draws acc (.overrideBreach (req.record draws acc.id))
  pure { overrideId := draws.overrideId, clearedAt := draws.now, accountState := r.account }

/-- The first violation of another tenant is refused. -/
def checkTenants (tenantId : TenantId) : List Violation → ApiOutcome Unit
  | [] => .ok ()
  | v :: vs =>
      if v.tenantId ≠ tenantId then
        .error (.status .forbidden
          [.lit "violation.tenant_id ", .lit (wire.showUuid v.tenantId.raw),
            .lit " does not match request tenant ", .lit (wire.showUuid tenantId.raw)])
      else checkTenants tenantId vs

/-- The violations that the overrides name, with a drawn identifier for a name that cannot be read. -/
def clearedIds (overrides : List OverrideSummary) : List ViolationId :=
  overrides.zipIdx.map fun (o, i) =>
    match wire.parseUuid o.clearsViolationId with
    | .ok raw => ⟨raw⟩
    | .error _ => draws.unreadableId i

/-- The report runs the pipeline whatever the status of the account is, and keeps none of what it leaves
but the status. -/
def breachReport (tenantId : TenantId) (req : BreachReportRequest) :
    ApiOutcome BreachReportResponse := do
  let acc ← requestedAccount wire "account_state is required for breach report" tenantId req.accountId
    req.accountState
  checkTenants wire tenantId req.violations
  let cleared := clearedIds wire draws req.overrides
  let r ← runPipeline hash cache draws acc .onDemand
  pure
    { accountId := req.accountId
      accountStatus := r.account.status.debug
      violations := req.violations.map fun v => .of (decide (v.id ∈ cleared)) v
      currentViolations := r.result.violations.map (.of false) }

end Handlers

/-! ## The service -/

/-- A request to one of the endpoints that take an account, the evaluation without an idempotency key. -/
inductive ServiceRequest where
  | evaluate (req : InternalEvaluateRequest) (draws : ApiDraws)
  | manualRun (req : ManualRunRequest)
  | emergencyStop (req : EmergencyStopRequest)
  | evaluateOrder (req : EvaluateOrderRequest)
  | overrideBreach (req : OverrideBody)
  | breachReport (req : BreachReportRequest)

inductive ServiceResponse where
  | evaluate (r : InternalEvaluateResponse)
  | manualRun (r : ManualRunResponse)
  | emergencyStop (r : EmergencyStopResponse)
  | evaluateOrder (r : EvaluateOrderResponse)
  | overrideBreach (r : OverrideResponse)
  | breachReport (r : BreachReportResponse)

def ServiceRequest.accountState : ServiceRequest → Option Account
  | .evaluate req _ => req.accountState
  | .manualRun req => req.accountState
  | .emergencyStop req => req.accountState
  | .evaluateOrder req => req.accountState
  | .overrideBreach req => req.accountState
  | .breachReport req => req.accountState

def ServiceRequest.accountId : ServiceRequest → String
  | .evaluate req _ => req.accountId
  | .manualRun req => req.accountId
  | .emergencyStop req => req.accountId
  | .evaluateOrder req => req.accountId
  | .overrideBreach req => req.accountId
  | .breachReport req => req.accountId

/-- The account that is sent back; a report sends none. -/
def ServiceResponse.accountState : ServiceResponse → Option Account
  | .evaluate r => some r.accountState
  | .manualRun r => some r.accountState
  | .emergencyStop r => some r.accountState
  | .evaluateOrder r => some r.accountState
  | .overrideBreach r => some r.accountState
  | .breachReport _ => none

def dispatch (wire : WireFormat) (digest : List FieldValue → String) (hash : List FieldValue → UInt64)
    (cache : RegistryCache) (draws : ServiceDraws) (headers : EvaluateHeaders) (request : ServiceRequest) :
    ApiOutcome ServiceResponse := do
  let tenantId ← extractTenantId wire headers
  match request with
  | .evaluate req apiDraws =>
      .evaluate <$> evaluateInternal wire digest hash cache apiDraws tenantId req
  | .manualRun req => .manualRun <$> manualRun wire hash cache draws tenantId req
  | .emergencyStop req => .emergencyStop <$> emergencyStop wire hash cache draws tenantId req
  | .evaluateOrder req => .evaluateOrder <$> evaluateOrder wire hash cache draws tenantId req
  | .overrideBreach req => .overrideBreach <$> overrideBreach wire hash cache draws tenantId req
  | .breachReport req => .breachReport <$> breachReport wire hash cache draws tenantId req

end Propfirm
