import Propfirm.Api.Lemmas.Evaluate
import Propfirm.Core.Ids
import Propfirm.Rules.Theorems.PackJson
import Propfirm.Rules.Theorems.Packs

/-!
# The validation of a rule pack

A tenant has a pack checked before it is bound to accounts. The pack is checked, and hashed, under a tenant that
is reserved for it.
-/

namespace Propfirm

open Fallible

/-! ## The endpoint -/

def RuleBasis.parse (s : String) : Outcome RuleBasis :=
  match s.toLower with
  | "static" => .ok .static
  | "trailing" => .ok .trailing
  | "eod_trailing" | "eodtrailing" | "eod-trailing" => .ok .eodTrailing
  | "intraday_trail" | "intradaytrail" | "intraday-trail" => .ok .intradayTrail
  | other =>
      raise (.invalidConfig
        [.lit "unknown rule basis '", .lit other,
          .lit "' (expected static/trailing/eod_trailing/intraday_trail)"])

def RuleUnit.parse (s : String) : Outcome RuleUnit :=
  match s.toLower with
  | "percent" => .ok .percent
  | "money" => .ok .money
  | other =>
      raise (.invalidConfig [.lit "unknown rule unit '", .lit other, .lit "' (expected percent/money)"])

structure RuleEntryDto where
  id : String
  kind : String
  basis : String
  unit : String
  value : Decimal
  toleranceCents : Option ℤ
  earlyWarningPct : Option Decimal
  priority : ℕ
  enabled : Bool
  paramsJson : Option String
  severity : Option String
  failurePolicy : Option String
  priority_lt : priority < 2 ^ 32
  toleranceCents_range : ∀ cents ∈ toleranceCents, -2 ^ 63 ≤ cents ∧ cents < 2 ^ 63

structure CreateRulePackRequest where
  id : String
  version : ℕ
  description : String
  rules : List RuleEntryDto
  initialBalance : Money
  leverage : ℕ
  profitTargetPct : Decimal
  version_lt : version < 2 ^ 32
  leverage_lt : leverage < 2 ^ 32

structure RulePackResponse where
  id : String
  version : ℕ
  lifecycle : String
  contentHash : String

section Endpoint

variable (read : String → ParamsJson)

def RuleEntryDto.intoEntry (d : RuleEntryDto) : ApiOutcome (StoredEntry read) := do
  let basis ← .ofOutcome .badRequest (RuleBasis.parse d.basis)
  let unit ← .ofOutcome .badRequest (RuleUnit.parse d.unit)
  pure
    { id := d.id
      kind := d.kind
      basis, unit
      value := d.value
      toleranceCents := d.toleranceCents
      earlyWarningPct := d.earlyWarningPct
      priority := d.priority
      enabled := d.enabled
      paramsText := d.paramsJson.getD "\x7b\x7d"
      paramsJson := read (d.paramsJson.getD "\x7b\x7d")
      paramsJson_eq := rfl
      severity := d.severity
      failurePolicy := d.failurePolicy
      priority_lt := d.priority_lt
      toleranceCents_range := d.toleranceCents_range }

/-- The first entry that cannot be read is reported. -/
def readEntries : List RuleEntryDto → ApiOutcome (List (StoredEntry read))
  | [] => .ok []
  | d :: ds => do
      let e ← d.intoEntry read
      let es ← readEntries ds
      pure (e :: es)

variable {read}

def CreateRulePackRequest.toPack (hash : String → UInt64) (now : Timestamp) (req : CreateRulePackRequest)
    (rules : List (StoredEntry read)) : StoredPack read where
  id := req.id
  version := req.version
  tenantId := .named hash "validation"
  lifecycle := .draft
  effectiveFrom := now
  supersededBy := none
  description := req.description
  rules
  initialBalance := req.initialBalance
  leverage := req.leverage
  profitTargetPct := req.profitTargetPct
  version_lt := req.version_lt
  leverage_lt := req.leverage_lt

variable (read)

def validateRulePack (hash : String → UInt64) (digest : List FieldValue → String) (now : Timestamp)
    (req : CreateRulePackRequest) : ApiOutcome RulePackResponse := do
  let rules ← readEntries read req.rules
  let pack := req.toPack hash now rules
  .ofOutcome .badRequest (pack.toPack digest).validate
  pure
    { id := pack.id
      version := pack.version
      lifecycle := pack.lifecycle.display
      contentHash := pack.contentHash digest }

end Endpoint

/-! ## What is accepted -/

variable {read : String → ParamsJson} {hash : String → UInt64} {digest : List FieldValue → String}
  {now : Timestamp} {req : CreateRulePackRequest} {r : RulePackResponse} {d : RuleEntryDto}
  {ds : List RuleEntryDto} {es : List (StoredEntry read)}

/-- The texts of a basis and of a unit, in capitals or not. -/
def RuleEntryDto.Readable (d : RuleEntryDto) : Prop :=
  d.basis.toLower ∈ ["static", "trailing", "eod_trailing", "eodtrailing", "eod-trailing", "intraday_trail",
      "intradaytrail", "intraday-trail"] ∧
    d.unit.toLower ∈ ["percent", "money"]

theorem RuleBasis.parse_ok {s : String} :
    (∃ basis, RuleBasis.parse s = .ok basis) ↔
      s.toLower ∈ ["static", "trailing", "eod_trailing", "eodtrailing", "eod-trailing", "intraday_trail",
        "intradaytrail", "intraday-trail"] := by
  unfold RuleBasis.parse
  split <;> simp_all [raise]

theorem RuleUnit.parse_ok {s : String} :
    (∃ unit, RuleUnit.parse s = .ok unit) ↔ s.toLower ∈ ["percent", "money"] := by
  unfold RuleUnit.parse
  split <;> simp_all [raise]

theorem intoEntry_ok (read : String → ParamsJson) : (∃ e, d.intoEntry read = .ok e) ↔ d.Readable := by
  rw [RuleEntryDto.Readable, ← RuleBasis.parse_ok, ← RuleUnit.parse_ok]
  constructor
  · rintro ⟨e, h⟩
    obtain ⟨basis, hbasis, h⟩ := bind_eq_ok.mp h
    obtain ⟨unit, hunit, -⟩ := bind_eq_ok.mp h
    exact ⟨⟨basis, ofOutcome_eq_ok.mp hbasis⟩, unit, ofOutcome_eq_ok.mp hunit⟩
  · rintro ⟨⟨basis, hbasis⟩, unit, hunit⟩
    exact ⟨_, bind_eq_ok.mpr ⟨basis, ofOutcome_eq_ok.mpr hbasis,
      bind_eq_ok.mpr ⟨unit, ofOutcome_eq_ok.mpr hunit, rfl⟩⟩⟩

theorem intoEntry_id {e : StoredEntry read} (h : d.intoEntry read = .ok e) : e.id = d.id := by
  obtain ⟨basis, -, h⟩ := bind_eq_ok.mp h
  obtain ⟨unit, -, h⟩ := bind_eq_ok.mp h
  obtain rfl := pure_eq_ok.mp h
  rfl

theorem readEntries_ok (read : String → ParamsJson) :
    (∃ es, readEntries read ds = .ok es) ↔ ∀ d ∈ ds, d.Readable := by
  induction ds with
  | nil => exact iff_of_true ⟨[], rfl⟩ fun d hd => by cases hd
  | cons d ds ih =>
      rw [List.forall_mem_cons, ← ih, ← intoEntry_ok read]
      constructor
      · rintro ⟨es, h⟩
        obtain ⟨e, he, h⟩ := bind_eq_ok.mp h
        obtain ⟨es, hes, -⟩ := bind_eq_ok.mp h
        exact ⟨⟨e, he⟩, es, hes⟩
      · rintro ⟨⟨e, he⟩, es, hes⟩
        exact ⟨_, bind_eq_ok.mpr ⟨e, he, bind_eq_ok.mpr ⟨es, hes, rfl⟩⟩⟩

theorem readEntries_ids (h : readEntries read ds = .ok es) :
    (es.map fun e => e.id) = ds.map RuleEntryDto.id := by
  induction ds generalizing es with
  | nil =>
      obtain rfl := Except.ok.inj h
      rfl
  | cons d ds ih =>
      obtain ⟨e, he, h⟩ := bind_eq_ok.mp h
      obtain ⟨es, hes, h⟩ := bind_eq_ok.mp h
      obtain rfl := pure_eq_ok.mp h
      rw [List.map_cons, List.map_cons, ih hes, intoEntry_id he]

theorem toPack_validate_ok (h : readEntries read req.rules = .ok es) :
    ((req.toPack hash now es).toPack digest).validate = .ok () ↔
      req.id.isEmpty = false ∧ req.rules ≠ [] ∧ (req.rules.map RuleEntryDto.id).Nodup := by
  have hids := readEntries_ids h
  have hempty : es = [] ↔ req.rules = [] := by
    rw [← List.map_eq_nil_iff (f := fun e => e.id), hids, List.map_eq_nil_iff]
  rw [validate_ok, ← hids, ne_eq, ne_eq, ← hempty]
  simp [StoredPack.toPack, CreateRulePackRequest.toPack, List.map_map, Function.comp_def]

/-- A pack is accepted exactly if it has a name and entries, its entries have names of their own, and each has one
of the texts of a basis and of a unit. Whether the kinds of its entries are known is not asked. -/
theorem validation_accepts_iff :
    (∃ r, validateRulePack read hash digest now req = .ok r) ↔
      req.id.isEmpty = false ∧ req.rules ≠ [] ∧ (req.rules.map RuleEntryDto.id).Nodup ∧
        ∀ d ∈ req.rules, d.Readable := by
  constructor
  · rintro ⟨r, h⟩
    obtain ⟨es, hes, h⟩ := bind_eq_ok.mp h
    obtain ⟨⟨⟩, hvalid, -⟩ := bind_eq_ok.mp h
    obtain ⟨hid, hrules, hnodup⟩ := (toPack_validate_ok hes).mp (ofOutcome_eq_ok.mp hvalid)
    exact ⟨hid, hrules, hnodup, (readEntries_ok read).mp ⟨es, hes⟩⟩
  · rintro ⟨hid, hrules, hnodup, hreadable⟩
    obtain ⟨es, hes⟩ := (readEntries_ok read).mpr hreadable
    have hvalid : ((req.toPack hash now es).toPack digest).validate = .ok () :=
      (toPack_validate_ok hes).mpr ⟨hid, hrules, hnodup⟩
    exact ⟨_, bind_eq_ok.mpr ⟨es, hes, bind_eq_ok.mpr ⟨(), ofOutcome_eq_ok.mpr hvalid, rfl⟩⟩⟩

/-! ## What is hashed -/

variable {pack : StoredPack read}

theorem RuleBasis.parse_display (b : RuleBasis) : RuleBasis.parse b.display = .ok b := by
  cases b <;> decide +kernel

theorem RuleUnit.parse_display (u : RuleUnit) : RuleUnit.parse u.display = .ok u := by
  cases u <;> decide +kernel

/-- The entry as a tenant sends it. -/
def StoredEntry.toDto (e : StoredEntry read) : RuleEntryDto where
  id := e.id
  kind := e.kind
  basis := e.basis.display
  unit := e.unit.display
  value := e.value
  toleranceCents := e.toleranceCents
  earlyWarningPct := e.earlyWarningPct
  priority := e.priority
  enabled := e.enabled
  paramsJson := some e.paramsText
  severity := e.severity
  failurePolicy := e.failurePolicy
  priority_lt := e.priority_lt
  toleranceCents_range := e.toleranceCents_range

def StoredPack.toRequest (pack : StoredPack read) : CreateRulePackRequest where
  id := pack.id
  version := pack.version
  description := pack.description
  rules := pack.rules.map StoredEntry.toDto
  initialBalance := pack.initialBalance
  leverage := pack.leverage
  profitTargetPct := pack.profitTargetPct
  version_lt := pack.version_lt
  leverage_lt := pack.leverage_lt

theorem intoEntry_toDto (e : StoredEntry read) : e.toDto.intoEntry read = .ok e := by
  cases e with
  | mk entry text hparams hpriority hcents =>
  cases entry
  cases hparams
  unfold RuleEntryDto.intoEntry StoredEntry.toDto
  rw [RuleBasis.parse_display, RuleUnit.parse_display]
  rfl

theorem readEntries_toDto (rules : List (StoredEntry read)) :
    readEntries read (rules.map StoredEntry.toDto) = .ok rules := by
  induction rules with
  | nil => rfl
  | cons e rules ih =>
      exact bind_eq_ok.mpr ⟨e, intoEntry_toDto e, bind_eq_ok.mpr ⟨rules, ih, rfl⟩⟩

theorem tenantId_of_contentFields {p q : StoredPack read} (h : p.contentFields = q.contentFields) :
    p.tenantId = q.tenantId := by
  obtain ⟨h, -⟩ := List.append_inj h rfl
  injection h with _ h
  injection h with _ h
  injection h with h _
  injection h with h
  exact congrArg TenantId.mk h

/-- A pack that is stored is read as it was. -/
theorem validateRulePack_toRequest (hvalid : (pack.toPack digest).validate = .ok ()) :
    validateRulePack read hash digest now pack.toRequest =
      .ok ⟨pack.id, pack.version, "draft",
        StoredPack.contentHash digest { pack with tenantId := .named hash "validation" }⟩ :=
  bind_eq_ok.mpr ⟨pack.rules, readEntries_toDto pack.rules,
    bind_eq_ok.mpr ⟨(), ofOutcome_eq_ok.mpr hvalid, rfl⟩⟩

/-- A pack that is stored and valid is read back entry by entry and accepted, and the hash that is returned is its
own exactly if it belongs to the tenant that is reserved for validations. -/
theorem resubmitted_hash_iff (hdigest : Function.Injective digest)
    (hvalid : (pack.toPack digest).validate = .ok ()) :
    readEntries read pack.toRequest.rules = .ok pack.rules ∧
      ∃ r, validateRulePack read hash digest now pack.toRequest = .ok r ∧
        (r.contentHash = pack.contentHash digest ↔ pack.tenantId = .named hash "validation") := by
  refine ⟨readEntries_toDto pack.rules, _, validateRulePack_toRequest hvalid, ?_⟩
  constructor
  · intro h
    exact (tenantId_of_contentFields (hdigest h)).symm
  · intro h
    rw [← h]

/-- The hash that a validation returns is not the hash of any pack of a tenant with a random identifier: the one
that a tenant sees before the pack is bound is none that a verdict on it can carry. -/
theorem validated_hash_never_bound (hdigest : Function.Injective digest)
    (h : validateRulePack read hash digest now req = .ok r) (bound : StoredPack read)
    (htenant : uuidVersion bound.tenantId.raw = 4) : bound.contentHash digest ≠ r.contentHash := by
  obtain ⟨es, -, h⟩ := bind_eq_ok.mp h
  obtain ⟨⟨⟩, -, h⟩ := bind_eq_ok.mp h
  obtain rfl := pure_eq_ok.mp h
  intro hhash
  have hsame : bound.tenantId = .named hash "validation" := tenantId_of_contentFields (hdigest hhash)
  have hversion : uuidVersion bound.tenantId.raw = 5 := by
    rw [hsame]
    exact uuidVersion_namedUuid _
  omega

/-! ## A pack of one entry -/

deriving instance Encodable for FieldValue

theorem exists_digest : ∃ digest : List FieldValue → String, Function.Injective digest :=
  ⟨unary, unary_injective⟩

/-- Bound to a tenant with a random identifier. -/
def boundPack : StoredPack fun _ => .empty := { packOf [lossEntry] with tenantId := ⟨4 * 2 ^ 76⟩ }

theorem boundPack_validate (digest : List FieldValue → String) :
    (boundPack.toPack digest).validate = .ok () :=
  validate_ok.mpr ⟨rfl, List.cons_ne_nil _ _, List.nodup_singleton _⟩

theorem resubmitted_hash_bound :
    ∃ digest : List FieldValue → String, Function.Injective digest ∧
      (boundPack.toPack digest).validate = .ok () ∧
      readEntries (fun _ => .empty) boundPack.toRequest.rules = .ok boundPack.rules ∧
      ∃ r, validateRulePack (fun _ => .empty) (fun _ => 0) digest 0 boundPack.toRequest = .ok r ∧
        (r.contentHash = boundPack.contentHash digest ↔
          boundPack.tenantId = .named (fun _ => 0) "validation") := by
  obtain ⟨digest, hdigest⟩ := exists_digest
  exact ⟨digest, hdigest, boundPack_validate digest, resubmitted_hash_iff hdigest (boundPack_validate digest)⟩

theorem validated_hash_not_of_boundPack :
    ∃ digest r, Function.Injective digest ∧
      validateRulePack (fun _ => .empty) (fun _ => 0) digest 0 boundPack.toRequest = .ok r ∧
      uuidVersion boundPack.tenantId.raw = 4 ∧ boundPack.contentHash digest ≠ r.contentHash := by
  obtain ⟨digest, hdigest⟩ := exists_digest
  have hversion : uuidVersion boundPack.tenantId.raw = 4 := by decide +kernel
  obtain ⟨r, hr⟩ : ∃ r, validateRulePack (fun _ => .empty) (fun _ => 0) digest 0 boundPack.toRequest = .ok r :=
    ⟨_, validateRulePack_toRequest (boundPack_validate digest)⟩
  exact ⟨digest, r, hdigest, hr, hversion, validated_hash_never_bound hdigest hr boundPack hversion⟩

end Propfirm
