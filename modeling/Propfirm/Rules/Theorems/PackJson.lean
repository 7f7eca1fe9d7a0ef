import Mathlib.Data.Rat.Encodable
import Propfirm.Lib.Fallible
import Propfirm.Rules.PackJson

/-!
# Reading back the JSON of a pack

The reader finds every field of a pack under the name it was written with, but not the parameters of an
entry. So only a pack without entries is read back.
-/

namespace Propfirm

open Fallible

variable {format : PackFormat} {digest : List FieldValue → String} {read : String → ParamsJson}
  {pack : StoredPack read} {e : StoredEntry read}

/-- What is written by the libraries is read back by them. -/
structure PackFormat.RoundTrips (format : PackFormat) : Prop where
  parse_print : ∀ j text, format.print j = .ok text → format.parse text = .ok j
  parseUuid_showUuid : ∀ n, format.parseUuid (format.showUuid n) = some n
  parseDecimal_showDecimal : ∀ d, format.parseDecimal (format.showDecimal d) = some d
  parseTime_showTime : ∀ t, format.parseTime (format.showTime t) = some t

/-! ## Values -/

theorem PackLifecycle.fromJson_display (l : PackLifecycle) : fromJson (.str l.display) = .ok l := by
  cases l <;> rfl

theorem RuleBasis.fromJson_display (b : RuleBasis) : fromJson (.str b.display) = .ok b := by cases b <;> rfl

theorem RuleUnit.fromJson_display (u : RuleUnit) : fromJson (.str u.display) = .ok u := by cases u <;> rfl

theorem PackFormat.RoundTrips.decimal_decimalJson (h : format.RoundTrips) (d : Decimal) :
    format.decimal (format.decimalJson d) = .ok d := by
  simp [decimal, decimalJson, Json.parsed, h.parseDecimal_showDecimal]

/-! ## Entries -/

theorem StoredEntry.toleranceCents_read (format : PackFormat) (e : StoredEntry read) :
    ∃ cents, Json.optional "tolerance_cents" Json.i64 (e.jsonFields format) = .ok cents := by
  have hlookup : (e.jsonFields format).lookup "tolerance_cents" =
      some (.ofOption .num e.toleranceCents) := rfl
  cases hcents : e.toleranceCents with
  | none => exact ⟨none, by simp [Json.optional, hlookup, hcents, Json.ofOption]⟩
  | some c =>
      have hrange := e.toleranceCents_range c hcents
      refine ⟨some ⟨c, hrange⟩, ?_⟩
      simp [Json.optional, hlookup, hcents, Json.ofOption, Json.i64_num hrange, Except.map]

/-- The reader does not find the parameters of an entry, which it has no default for. -/
theorem StoredEntry.fromJson_jsonFields (h : format.RoundTrips) (e : StoredEntry read) :
    StoredEntry.fromJson format read (.obj (e.jsonFields format)) = .error (.missingField "params_json") := by
  obtain ⟨cents, hcents⟩ := e.toleranceCents_read format
  have hid : Json.required "id" Json.string (e.jsonFields format) = .ok e.id := rfl
  have hkind : Json.required "kind" Json.string (e.jsonFields format) = .ok e.kind := rfl
  have hbasis : Json.required "basis" RuleBasis.fromJson (e.jsonFields format) = .ok e.basis :=
    (Json.required_of_lookup rfl).trans e.basis.fromJson_display
  have hunit : Json.required "unit" RuleUnit.fromJson (e.jsonFields format) = .ok e.unit :=
    (Json.required_of_lookup rfl).trans e.unit.fromJson_display
  have hvalue : Json.required "value" format.decimal (e.jsonFields format) = .ok e.value :=
    (Json.required_of_lookup rfl).trans (h.decimal_decimalJson e.value)
  have hwarning : Json.optional "early_warning_pct" format.decimal (e.jsonFields format) =
      .ok e.earlyWarningPct :=
    Json.optional_ofOption rfl (fun _ heq => by cases heq) h.decimal_decimalJson
  have hpriority : Json.required "priority" Json.u32 (e.jsonFields format) =
      .ok ⟨e.priority, e.priority_lt⟩ :=
    (Json.required_of_lookup rfl).trans (Json.u32_num e.priority_lt)
  have henabled : Json.required "enabled" Json.boolean (e.jsonFields format) = .ok e.enabled := rfl
  have hparams : Json.required "params_json" Json.string (e.jsonFields format) =
      .error (.missingField "params_json") := rfl
  have hobject : Json.object (.obj (e.jsonFields format)) = .ok (e.jsonFields format) := rfl
  unfold StoredEntry.fromJson
  rw [bind_of_ok hobject, bind_of_ok hid, bind_of_ok hkind, bind_of_ok hbasis, bind_of_ok hunit,
    bind_of_ok hvalue, bind_of_ok hcents, bind_of_ok hwarning, bind_of_ok hpriority, bind_of_ok henabled,
    hparams]
  rfl

/-! ## Packs -/

/-- The pack with its entries as they are read. -/
def StoredPack.reread (format : PackFormat) (pack : StoredPack read) :
    Except Json.ReadError (StoredPack read) :=
  (Json.array (StoredEntry.fromJson format read)
    (.arr (pack.rules.map fun e => .obj (e.jsonFields format)))).map fun rules => { pack with rules }

/-- Everything but the entries is read back. -/
theorem StoredPack.fromJsonValue_jsonFields (h : format.RoundTrips) (pack : StoredPack read) :
    StoredPack.fromJsonValue format read (.obj (pack.jsonFields format digest)) = pack.reread format := by
  have hobject : Json.object (.obj (pack.jsonFields format digest)) =
      .ok (pack.jsonFields format digest) := rfl
  have hid : Json.required "id" Json.string (pack.jsonFields format digest) = .ok pack.id := rfl
  have hversion : Json.required "version" Json.u32 (pack.jsonFields format digest) =
      .ok ⟨pack.version, pack.version_lt⟩ :=
    (Json.required_of_lookup rfl).trans (Json.u32_num pack.version_lt)
  have htenant : Json.required "tenant_id" (Json.parsed "a formatted UUID string" format.parseUuid)
      (pack.jsonFields format digest) = .ok pack.tenantId.raw :=
    (Json.required_of_lookup rfl).trans (Json.parsed_str (h.parseUuid_showUuid _))
  have hlifecycle : Json.required "lifecycle" PackLifecycle.fromJson (pack.jsonFields format digest) =
      .ok pack.lifecycle :=
    (Json.required_of_lookup rfl).trans pack.lifecycle.fromJson_display
  have heffective : Json.required "effective_from"
      (Json.parsed "an RFC 3339 formatted date and time string" format.parseTime)
      (pack.jsonFields format digest) = .ok pack.effectiveFrom :=
    (Json.required_of_lookup rfl).trans (Json.parsed_str (h.parseTime_showTime _))
  have hsuperseded : Json.optional "superseded_by" Json.string (pack.jsonFields format digest) =
      .ok pack.supersededBy :=
    Json.optional_ofOption rfl (fun _ heq => by cases heq) fun _ => rfl
  have hdescription : Json.required "description" Json.string (pack.jsonFields format digest) =
      .ok pack.description := rfl
  have hrules : Json.required "rules" (Json.array (StoredEntry.fromJson format read))
      (pack.jsonFields format digest) = Json.array (StoredEntry.fromJson format read)
        (.arr (pack.rules.map fun e => .obj (e.jsonFields format))) :=
    Json.required_of_lookup rfl
  have hbalance : Json.required "initial_balance" format.decimal (pack.jsonFields format digest) =
      .ok pack.initialBalance :=
    (Json.required_of_lookup rfl).trans (h.decimal_decimalJson _)
  have hleverage : Json.required "leverage" Json.u32 (pack.jsonFields format digest) =
      .ok ⟨pack.leverage, pack.leverage_lt⟩ :=
    (Json.required_of_lookup rfl).trans (Json.u32_num pack.leverage_lt)
  have htarget : Json.required "profit_target_pct" format.decimal (pack.jsonFields format digest) =
      .ok pack.profitTargetPct :=
    (Json.required_of_lookup rfl).trans (h.decimal_decimalJson _)
  unfold StoredPack.fromJsonValue StoredPack.reread
  rw [bind_of_ok hobject, bind_of_ok hid, bind_of_ok hversion, bind_of_ok htenant, bind_of_ok hlifecycle,
    bind_of_ok heffective, bind_of_ok hsuperseded, bind_of_ok hdescription, hrules]
  cases Json.array (StoredEntry.fromJson format read)
      (.arr (pack.rules.map fun e => .obj (e.jsonFields format))) with
  | error err => rfl
  | ok rules =>
      change (Json.required "initial_balance" format.decimal (pack.jsonFields format digest) >>= _) = _
      rw [bind_of_ok hbalance, bind_of_ok hleverage, bind_of_ok htarget]
      rfl

/-- The other pack has the same entries, and its registry is the same. -/
structure StoredPack.SameRules (digest : List FieldValue → String) (pack pack' : StoredPack read) : Prop where
  rules_eq : pack'.rules = pack.rules
  build_eq : RuleRegistry.buildFromPack (pack'.toPack digest) =
    RuleRegistry.buildFromPack (pack.toPack digest)

theorem StoredPack.fromJson_toJson (h : format.RoundTrips) {text : String}
    (htext : pack.toJson format digest = .ok text) :
    StoredPack.fromJson format read text = pack.reread format := by
  have hprint : format.print (.obj (pack.jsonFields format digest)) = .ok text := by
    unfold StoredPack.toJson at htext
    split at htext
    · cases htext
      assumption
    · cases htext
  simp only [StoredPack.fromJson, h.parse_print _ _ hprint]
  exact fromJsonValue_jsonFields h pack

theorem StoredPack.fromJson_of_rules (h : format.RoundTrips) {text : String}
    (htext : pack.toJson format digest = .ok text) (hrules : pack.rules ≠ []) :
    StoredPack.fromJson format read text = .error (.missingField "params_json") := by
  obtain ⟨e, es, hrules⟩ := List.exists_cons_of_ne_nil hrules
  rw [fromJson_toJson h htext, reread, hrules, List.map_cons,
    Json.array_cons_error (StoredEntry.fromJson_jsonFields h e)]
  rfl

/-- The text of a pack is read back exactly if the pack has no entries. -/
theorem pack_json_round_trips_iff (h : format.RoundTrips) {text : String}
    (htext : pack.toJson format digest = .ok text) :
    (∃ pack', StoredPack.fromJson format read text = .ok pack' ∧ pack.SameRules digest pack') ↔
      pack.rules = [] := by
  constructor
  · rintro ⟨pack', hread, -⟩
    by_contra hrules
    rw [StoredPack.fromJson_of_rules h htext hrules] at hread
    cases hread
  · intro hrules
    refine ⟨{ pack with rules := [] }, ?_, hrules.symm, ?_⟩
    · rw [StoredPack.fromJson_toJson h htext, StoredPack.reread, hrules]
      rfl
    · simp only [RuleRegistry.buildFromPack, StoredPack.toPack, hrules]

/-! ## Two packs -/

/-- Every value has a text. -/
def plainFormat : PackFormat where
  print := fun j => .ok (unary j.tokens)
  parse := fun text => ((ofUnary text).bind Json.ofTokens).elim (.error "expected value") .ok
  showUuid := unary
  parseUuid := ofUnary
  showDecimal := unary
  parseDecimal := ofUnary
  showTime := unary
  parseTime := ofUnary

theorem plainFormat_roundTrips : plainFormat.RoundTrips where
  parse_print := fun j text h => by
    obtain rfl := Except.ok.inj h
    simp only [plainFormat, ofUnary_unary, Option.bind_some, Json.ofTokens_tokens, Option.elim_some]
  parseUuid_showUuid := ofUnary_unary
  parseDecimal_showDecimal := ofUnary_unary
  parseTime_showTime := ofUnary_unary

def packOf (rules : List (StoredEntry fun _ => .empty)) : StoredPack fun _ => .empty :=
  .ofRules "starter" rules

theorem pack_json_round_trips_empty :
    ∃ text pack', (packOf []).toJson plainFormat (fun _ => "") = .ok text ∧
      StoredPack.fromJson plainFormat (fun _ => .empty) text = .ok pack' ∧
      (packOf []).SameRules (fun _ => "") pack' := by
  obtain ⟨text, htext⟩ : ∃ text, (packOf []).toJson plainFormat (fun _ => "") = .ok text := ⟨_, rfl⟩
  obtain ⟨pack', hread, hsame⟩ := (pack_json_round_trips_iff plainFormat_roundTrips htext).mpr rfl
  exact ⟨text, pack', htext, hread, hsame⟩

def lossEntry : StoredEntry fun _ => .empty :=
  .new _ "max_total_loss" "max_drawdown" (10 / 100)

/-- One entry is enough for the reader to refuse what was written. -/
theorem pack_json_refused :
    ∃ text, (packOf [lossEntry]).toJson plainFormat (fun _ => "") = .ok text ∧
      StoredPack.fromJson plainFormat (fun _ => .empty) text = .error (.missingField "params_json") :=
  ⟨_, rfl, StoredPack.fromJson_of_rules plainFormat_roundTrips rfl (List.cons_ne_nil _ _)⟩

end Propfirm
