import Propfirm.Rules.Pack

/-!
# Rule packs as they are stored

The free-form parameters of an entry are stored as a text. What the rules look up in it is given by the
JSON reader `read`, which is a parameter.
-/

namespace Propfirm

inductive PackLifecycle where
  | draft
  | active
  | superseded
deriving DecidableEq

deriving instance DecidableEq for RuleBasis

structure StoredEntry (read : String → ParamsJson) extends RuleEntry where
  paramsText : String
  paramsJson_eq : paramsJson = read paramsText
  priority_lt : priority < 2 ^ 32
  toleranceCents_range : ∀ cents ∈ toleranceCents, -2 ^ 63 ≤ cents ∧ cents < 2 ^ 63

structure StoredPack (read : String → ParamsJson) where
  id : String
  version : ℕ
  tenantId : TenantId
  lifecycle : PackLifecycle
  effectiveFrom : Timestamp
  supersededBy : Option String
  description : String
  rules : List (StoredEntry read)
  initialBalance : Money
  leverage : ℕ
  profitTargetPct : Decimal
  version_lt : version < 2 ^ 32
  leverage_lt : leverage < 2 ^ 32

def StoredEntry.new (read : String → ParamsJson) (id kind : String) (value : Decimal) : StoredEntry read :=
  { RuleEntry.new id kind value with
    paramsText := "\x7b\x7d"
    paramsJson := read "\x7b\x7d"
    paramsJson_eq := rfl
    priority_lt := show 100 < 2 ^ 32 by decide
    toleranceCents_range := fun cents hcents => by cases hcents; decide }

variable {read : String → ParamsJson}

/-- A first version with these entries, for a leverage of 100. -/
def StoredPack.ofRules (id : String) (rules : List (StoredEntry read)) : StoredPack read where
  id
  version := 1
  tenantId := ⟨1⟩
  lifecycle := .active
  effectiveFrom := 0
  supersededBy := none
  description := ""
  rules
  initialBalance := 10000
  leverage := 100
  profitTargetPct := 10 / 100
  version_lt := by decide
  leverage_lt := by decide

/-! ## The content hash -/

/-- The hashed fields of an entry. A signed count is hashed by its bits. -/
def StoredEntry.contentFields (e : StoredEntry read) : List FieldValue :=
  [.text e.id, .text e.kind, .discriminant e.basis.ctorIdx, .discriminant e.unit.ctorIdx,
    .decimal e.value, .count e.priority, .flag e.enabled,
    .option (fun cents => .count (asUsize cents)) e.toleranceCents, .option .decimal e.earlyWarningPct,
    .text e.paramsText]

namespace StoredPack

/-- The number of entries is not hashed. -/
def contentFields (pack : StoredPack read) : List FieldValue :=
  [.text pack.id, .count pack.version, .uuid pack.tenantId.raw] ++
    (pack.rules.flatMap StoredEntry.contentFields ++
      [.decimal pack.initialBalance, .count pack.leverage, .decimal pack.profitTargetPct])

def contentHash (digest : List FieldValue → String) (pack : StoredPack read) : String :=
  digest pack.contentFields

/-- What an evaluation reads of the pack. -/
def toPack (digest : List FieldValue → String) (pack : StoredPack read) : PackWithRules where
  id := pack.id
  version := pack.version
  contentHash := pack.contentHash digest
  rules := pack.rules.map StoredEntry.toRuleEntry

end StoredPack

end Propfirm
