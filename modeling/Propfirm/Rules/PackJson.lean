import Propfirm.Lib.Json
import Propfirm.Rules.StoredPack

/-!
# Rule packs as JSON

A pack is written by hand and read by a derived reader. The texts of identifiers, numbers and times, and
those of JSON values, are parameters.
-/

namespace Propfirm

/-- The texts that are written and read by libraries. -/
structure PackFormat where
  print : Json → Except String String
  parse : String → Except String Json
  showUuid : ℕ → String
  parseUuid : String → Option ℕ
  showDecimal : Decimal → String
  parseDecimal : String → Option Decimal
  showTime : Timestamp → String
  parseTime : String → Option Timestamp

def PackLifecycle.display : PackLifecycle → String
  | .draft => "draft"
  | .active => "active"
  | .superseded => "superseded"

def RuleBasis.display : RuleBasis → String
  | .static => "static"
  | .trailing => "trailing"
  | .eodTrailing => "eod_trailing"
  | .intradayTrail => "intraday_trail"

def RuleUnit.display : RuleUnit → String
  | .percent => "percent"
  | .money => "money"

section Format

variable (format : PackFormat) (digest : List FieldValue → String) {read : String → ParamsJson}

/-! ## Writing -/

def PackFormat.decimalJson (d : Decimal) : Json := .str (format.showDecimal d)

/-- The free-form parameters are written under another name, and the two texts not at all. -/
def StoredEntry.jsonFields (e : StoredEntry read) : List (String × Json) :=
  [("id", .str e.id), ("kind", .str e.kind), ("basis", .str e.basis.display), ("unit", .str e.unit.display),
    ("value", format.decimalJson e.value), ("tolerance_cents", .ofOption .num e.toleranceCents),
    ("early_warning_pct", .ofOption format.decimalJson e.earlyWarningPct), ("priority", .num e.priority),
    ("enabled", .bool e.enabled), ("params", .str e.paramsText)]

def StoredPack.jsonFields (pack : StoredPack read) : List (String × Json) :=
  [("id", .str pack.id), ("version", .num pack.version),
    ("tenant_id", .str (format.showUuid pack.tenantId.raw)), ("lifecycle", .str pack.lifecycle.display),
    ("effective_from", .str (format.showTime pack.effectiveFrom)),
    ("superseded_by", .ofOption .str pack.supersededBy), ("description", .str pack.description),
    ("initial_balance", format.decimalJson pack.initialBalance), ("leverage", .num pack.leverage),
    ("profit_target_pct", format.decimalJson pack.profitTargetPct),
    ("rules", .arr (pack.rules.map fun e => .obj (e.jsonFields format))),
    ("content_hash", .str (pack.contentHash digest))]

def StoredPack.toJson (pack : StoredPack read) : Outcome String :=
  match format.print (.obj (pack.jsonFields format digest)) with
  | .ok text => .ok text
  | .error msg => raise (.serialization [.lit msg])

/-! ## Reading -/

/-- A decimal is read from its text, or from a number. -/
def PackFormat.decimal : Json.Reader Decimal
  | .num n => .ok n
  | j => Json.parsed "a Decimal type representing a fixed-point number" format.parseDecimal j

def PackLifecycle.fromJson : Json.Reader PackLifecycle :=
  Json.variant [("draft", .draft), ("active", .active), ("superseded", .superseded)]

def RuleBasis.fromJson : Json.Reader RuleBasis :=
  Json.variant [("static", .static), ("trailing", .trailing), ("eod_trailing", .eodTrailing),
    ("intraday_trail", .intradayTrail)]

def RuleUnit.fromJson : Json.Reader RuleUnit := Json.variant [("percent", .percent), ("money", .money)]

variable (read)

def StoredEntry.fromJson : Json.Reader (StoredEntry read) := fun j => do
  let fields ← j.object
  let id ← Json.required "id" Json.string fields
  let kind ← Json.required "kind" Json.string fields
  let basis ← Json.required "basis" RuleBasis.fromJson fields
  let unit ← Json.required "unit" RuleUnit.fromJson fields
  let value ← Json.required "value" format.decimal fields
  let toleranceCents ← Json.optional "tolerance_cents" Json.i64 fields
  let earlyWarningPct ← Json.optional "early_warning_pct" format.decimal fields
  let priority ← Json.required "priority" Json.u32 fields
  let enabled ← Json.required "enabled" Json.boolean fields
  let paramsText ← Json.required "params_json" Json.string fields
  let severity ← Json.optional "severity" Json.string fields
  let failurePolicy ← Json.optional "failure_policy" Json.string fields
  pure
    { id, kind, basis, unit, value, earlyWarningPct, enabled, severity, failurePolicy, paramsText
      toleranceCents := toleranceCents.map Subtype.val
      priority := priority.val
      paramsJson := read paramsText
      paramsJson_eq := rfl
      priority_lt := priority.property
      toleranceCents_range := fun cents hcents => by
        obtain ⟨c, -, rfl⟩ := Option.map_eq_some_iff.mp hcents
        exact c.property }

def StoredPack.fromJsonValue : Json.Reader (StoredPack read) := fun j => do
  let fields ← j.object
  let id ← Json.required "id" Json.string fields
  let version ← Json.required "version" Json.u32 fields
  let tenantId ← Json.required "tenant_id" (Json.parsed "a formatted UUID string" format.parseUuid) fields
  let lifecycle ← Json.required "lifecycle" PackLifecycle.fromJson fields
  let effectiveFrom ← Json.required "effective_from"
    (Json.parsed "an RFC 3339 formatted date and time string" format.parseTime) fields
  let supersededBy ← Json.optional "superseded_by" Json.string fields
  let description ← Json.required "description" Json.string fields
  let rules ← Json.required "rules" (Json.array (StoredEntry.fromJson format read)) fields
  let initialBalance ← Json.required "initial_balance" format.decimal fields
  let leverage ← Json.required "leverage" Json.u32 fields
  let profitTargetPct ← Json.required "profit_target_pct" format.decimal fields
  pure
    { id, lifecycle, effectiveFrom, supersededBy, description, rules, initialBalance, profitTargetPct
      version := version.val
      tenantId := ⟨tenantId⟩
      leverage := leverage.val
      version_lt := version.property
      leverage_lt := leverage.property }

def StoredPack.fromJson (text : String) : Except Json.ReadError (StoredPack read) :=
  match format.parse text with
  | .ok j => StoredPack.fromJsonValue format read j
  | .error msg => .error (.malformed msg)

end Format

end Propfirm
