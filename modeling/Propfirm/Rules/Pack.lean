import Propfirm.Pure

/-!
# Registries from rule packs
-/

namespace Propfirm

inductive RuleBasis where
  | static
  | trailing
  | eodTrailing
  | intradayTrail

structure RuleEntry where
  id : String
  kind : String
  basis : RuleBasis
  unit : RuleUnit
  value : Decimal
  toleranceCents : Option ℤ
  earlyWarningPct : Option Decimal
  priority : ℕ
  enabled : Bool
  paramsJson : ParamsJson
  severity : Option String
  failurePolicy : Option String

/-- The parameters `{}`. -/
def ParamsJson.empty : ParamsJson := ⟨fun _ => none, fun _ => none⟩

def RuleEntry.new (id kind : String) (value : Decimal) : RuleEntry where
  id
  kind
  basis := .static
  unit := .percent
  value
  toleranceCents := some 1
  earlyWarningPct := some (8 / 10)
  priority := 100
  enabled := true
  paramsJson := .empty
  severity := none
  failurePolicy := none

/-- A pack together with its entries. -/
structure PackWithRules extends RulePack where
  rules : List RuleEntry

/-- The first entry whose identifier an earlier one has is refused. -/
def PackWithRules.checkIds (packId : String) : List String → List RuleEntry → Outcome Unit
  | _, [] => .ok ()
  | seen, entry :: entries =>
      if entry.id ∈ seen then
        raise (.invalidConfig
          [.lit "pack ", .lit packId, .lit " has duplicate rule id '", .lit entry.id, .lit "'"])
      else checkIds packId (entry.id :: seen) entries

def PackWithRules.validate (pack : PackWithRules) : Outcome Unit :=
  if pack.id.isEmpty then raise (.invalidConfig [.lit "pack id cannot be empty"])
  else if pack.rules.isEmpty then
    raise (.invalidConfig [.lit "pack ", .lit pack.id, .lit " has no rules"])
  else checkIds pack.id [] pack.rules

def RuleBasis.lossReference : RuleBasis → LossReference
  | .static => .static
  | .trailing => .trailing
  | .eodTrailing => .eodTrailing
  | .intradayTrail => .intradayTrail

def RuleParams.fromEntry (e : RuleEntry) : RuleParams where
  value := some e.value
  unit := some e.unit
  basis := some e.basis.lossReference
  toleranceCents := e.toleranceCents
  priority := some e.priority
  earlyWarningPct := e.earlyWarningPct
  enabled := e.enabled
  paramsJson := e.paramsJson
  severity := e.severity
  failurePolicy := e.failurePolicy

/-- Three rules of the standard library have no kind of their own in a pack, and the last two kinds read
nothing of the entry. -/
def defaultFactoryForKind (kind : String) : Option (Option RuleParams → StdRule) :=
  match kind with
  | "daily_drawdown" => some dailyDrawdownRule
  | "max_drawdown" => some maxDrawdownRule
  | "trailing_drawdown" => some trailingDrawdownRule
  | "profit_target" => some profitTargetRule
  | "min_trading_days" => some minTradingDaysRule
  | "consistency" => some consistencyRule
  | "news_trading" => some newsTradingRule
  | "overnight_holding" => some overnightHoldingRule
  | "weekend_holding" => some weekendHoldingRule
  | "max_position_size" => some maxPositionSizeRule
  | "max_open_positions" => some maxOpenPositionsRule
  | "max_daily_trades" => some maxDailyTradesRule
  | "time_limit" => some timeLimitRule
  | "cooldown" => some cooldownRule
  | "hedging" => some hedgingRule
  | "grid_trading" => some gridTradingRule
  | "copy_trading" => some copyTradingRule
  | "sl_required" => some stopLossRequiredRule
  | "tp_required" => some takeProfitRequiredRule
  | "hft_scalping" => some hftScalpingRule
  | "per_trade_max_loss" => some perTradeMaxLossRule
  | "inactivity" => some inactivityRule
  | "max_total_lots" => some maxTotalLotsRule
  | "trading_hours" => some fun _ => tradingHoursRule
  | "margin" => some fun _ => marginRule
  | _ => none

namespace RuleRegistry

def addEntry (packId : String) (registry : RuleRegistry) (entry : RuleEntry) : Outcome RuleRegistry :=
  if !entry.enabled then .ok registry
  else
    match defaultFactoryForKind entry.kind with
    | none =>
        raise (.invalidConfig
          [.lit "rule pack ", .lit packId, .lit " references unsupported rule kind '", .lit entry.kind,
            .lit "' — the rule would silently not be enforced"])
    | some factory => .ok (registry.register (factory (some (.fromEntry entry))).toRule)

def buildFromPack (pack : PackWithRules) : Outcome RuleRegistry :=
  pack.rules.foldlM (addEntry pack.id) empty

/-- One of the registries that the engine builds, from its default library or from a pack. -/
def IsBuilt (registry : RuleRegistry) : Prop :=
  registry.IsDefault ∨ ∃ pack, buildFromPack pack = .ok registry

end RuleRegistry

end Propfirm
