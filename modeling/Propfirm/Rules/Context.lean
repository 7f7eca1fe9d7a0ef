import Propfirm.Core.Account
import Propfirm.Core.Violation

/-!
# Rules: what they read and what they report
-/

namespace Propfirm

/-! ## The context of an evaluation -/

/-- Who vouches for the equity and balance of an evaluation. -/
inductive EquityInput where
  | brokerReported (equity balance : Money)
  | estimated (equity balance : Money)
deriving DecidableEq

namespace EquityInput

def default : EquityInput := .estimated 0 0

def isBrokerReported : EquityInput → Bool
  | .brokerReported .. => true
  | .estimated .. => false

def brokerEquity : EquityInput → Option Money
  | .brokerReported equity _ => some equity
  | .estimated .. => none

end EquityInput

structure NewsTradingConfig where
  windowMinutes : ℕ
  /-- Whether existing positions may be closed during news; no rule reads it. -/
  allowCloses : Bool
deriving DecidableEq

structure OvernightConfig where
  forbiddenFromHour : ℕ
  forbiddenToHour : ℕ
deriving DecidableEq

structure WeekendConfig where
  forbiddenFromHour : ℕ
deriving DecidableEq

/-- The part of the per-rule configuration that is for rules which read it. -/
structure RuleConfig where
  newsTrading : Option NewsTradingConfig
  overnightHolding : Option OvernightConfig
  weekendHolding : Option WeekendConfig
deriving DecidableEq

namespace RuleConfig

def empty : RuleConfig := ⟨none, none, none⟩

/-- None of the values read by rules depends on the plan. -/
def fromPlan (_plan : ChallengePlan) : RuleConfig where
  newsTrading := some { windowMinutes := 2, allowCloses := true }
  overnightHolding := some { forbiddenFromHour := 22, forbiddenToHour := 7 }
  weekendHolding := some { forbiddenFromHour := 21 }

end RuleConfig

inductive RuleContextKind where
  | onOrderSubmit
  | onTradeFill
  | onTick
  | onDayRollover
  | onEndOfDay
  | onDemand
deriving DecidableEq

inductive EvaluationScope where
  | preTrade
  | postTrade
  | onTick
  | periodic
  | onDemand
deriving DecidableEq

/-- What a rule reads. `violationId` draws the identifier of the violation a rule builds, `wallClock`
is the time a rule reads from the clock itself. -/
structure RuleContext where
  account : Account
  openPositions : List Position
  todayTrades : List Trade
  pendingOrder : Option Order
  latestTrade : Option Trade
  crossReferenceTrades : List Trade
  instruments : InstrumentRegistry
  serverTime : Timestamp
  kind : RuleContextKind
  ruleConfig : RuleConfig
  equityInput : EquityInput
  violationId : RuleId → ViolationId
  wallClock : Timestamp

namespace RuleContext

def new (account : Account) (serverTime : Timestamp) (violationId : RuleId → ViolationId)
    (wallClock : Timestamp) : RuleContext where
  account
  openPositions := []
  todayTrades := []
  pendingOrder := none
  latestTrade := none
  crossReferenceTrades := []
  instruments := .new
  serverTime
  kind := .onDemand
  ruleConfig := .empty
  equityInput := .default
  violationId
  wallClock

def equityIsBrokerReported (ctx : RuleContext) : Bool := ctx.equityInput.isBrokerReported

def requireBrokerEquity (ctx : RuleContext) : Except String Money :=
  match ctx.equityInput.brokerEquity with
  | some equity => .ok equity
  | none =>
      .error "equity is estimated; broker-reported equity required for terminating verdicts"

def requireStarted (ctx : RuleContext) : Except String Unit :=
  if ctx.account.startedAt.isSome then .ok ()
  else .error "account has not been started; cannot evaluate drawdown/target rules"

end RuleContext

/-! ## Verdicts -/

/-- A verdict over the records it carries. -/
inductive Verdict (ν : Type) where
  | pass
  | warn (v : ν)
  | fail (v : ν)
  | softFail (v : ν)
  | liquidate (v : ν)
  | targetHit (v : ν)
  | emergency (v : ν)
  | earlyWarning (v : ν)
  | gapFlagged (v : ν)
  | skip
deriving DecidableEq

abbrev RuleVerdict := Verdict Violation

namespace Verdict

variable {ν μ : Type}

def map (f : ν → μ) : Verdict ν → Verdict μ
  | .pass => .pass
  | .warn v => .warn (f v)
  | .fail v => .fail (f v)
  | .softFail v => .softFail (f v)
  | .liquidate v => .liquidate (f v)
  | .targetHit v => .targetHit (f v)
  | .emergency v => .emergency (f v)
  | .earlyWarning v => .earlyWarning (f v)
  | .gapFlagged v => .gapFlagged (f v)
  | .skip => .skip

def violation : Verdict ν → Option ν
  | .warn v | .fail v | .softFail v | .liquidate v | .targetHit v | .emergency v | .earlyWarning v
  | .gapFlagged v => some v
  | .pass | .skip => none

end Verdict

/-! ## Rule packs -/

inductive RuleUnit where
  | percent
  | money
deriving DecidableEq

/-- The lookups rules make into the free-form JSON of a pack entry. -/
structure ParamsJson where
  decimal : String → Option Decimal
  u64 : String → Option ℕ

structure RuleParams where
  value : Option Decimal
  unit : Option RuleUnit
  basis : Option LossReference
  toleranceCents : Option ℤ
  priority : Option ℕ
  earlyWarningPct : Option Decimal
  enabled : Bool
  paramsJson : ParamsJson
  severity : Option String
  failurePolicy : Option String

namespace RuleParams

def effectiveMoney (p : RuleParams) (reference : Money) : Option Money :=
  match p.value with
  | none => none
  | some v =>
      match p.unit with
      | some .money => some v
      | some .percent | none => some (v * reference)

def effectivePctWith (arith : Arithmetic) (p : RuleParams) (unitContext : String) (reference : Money) :
    Outcome Decimal :=
  match p.value with
  | none =>
      raise (.invalidConfig
        [.lit unitContext, .lit ": no pack value present — caller must fall back to plan"])
  | some v =>
      match p.unit with
      | some .percent | none => .ok v
      | some .money =>
          if reference = 0 then
            raise (.invalidConfig
              [.lit unitContext, .lit ": money-unit value ", .dec v,
                .lit " cannot be normalized against a zero reference"])
          else .ok (arith.div v reference)

def effectiveCount (p : RuleParams) (unitContext : String) : Outcome Decimal :=
  match p.value with
  | none =>
      raise (.invalidConfig
        [.lit unitContext, .lit ": no pack value present — caller must fall back to plan"])
  | some v => .ok v

end RuleParams

/-! ## Rules -/

structure Rule where
  id : RuleId
  name : String
  kind : ViolationKind
  scope : EvaluationScope
  severity : ViolationSeverity
  priority : ℕ
  params : Option RuleParams
  isEnabled : RuleContext → Bool
  evaluate : RuleContext → Outcome RuleVerdict

/-- What a rule of the standard library says about a context, before the record is built from it. -/
structure Finding where
  severity : ViolationSeverity
  message : Text
  breach : Option (Money × Money) := none

def buildViolation (id : RuleId) (name : String) (kind : ViolationKind) (ctx : RuleContext)
    (f : Finding) : Violation :=
  let v : Violation :=
    { id := ctx.violationId id
      accountId := ctx.account.id
      tenantId := ctx.account.tenantId
      ruleId := id
      ruleName := name
      kind
      severity := f.severity
      message := f.message
      occurredAt := ctx.serverTime
      breachValue := none
      thresholdValue := none
      utilization := none }
  match f.breach with
  | some (breach, threshold) => v.withBreach breach threshold
  | none => v

structure StdRule where
  id : RuleName
  name : String
  kind : ViolationKind
  scope : EvaluationScope
  severity : ViolationSeverity
  priority : ℕ := 100
  params : Option RuleParams
  isEnabled : RuleContext → Bool
  judge : RuleContext → Outcome (Verdict Finding)

namespace StdRule

def evaluate (r : StdRule) (ctx : RuleContext) : Outcome RuleVerdict :=
  (r.judge ctx).map (Verdict.map (buildViolation (.named r.id) r.name r.kind ctx))

def toRule (r : StdRule) : Rule where
  id := .named r.id
  name := r.name
  kind := r.kind
  scope := r.scope
  severity := r.severity
  priority := r.priority
  params := r.params
  isEnabled := r.isEnabled
  evaluate := r.evaluate

end StdRule

end Propfirm
