import Propfirm.Lemmas.Hashing
import Propfirm.Lib.Records
import Propfirm.Rules.Lemmas.Texts
import Propfirm.Rules.StoredPack

/-!
# What the content hash of a pack identifies

The hashed fields determine every entry but its two texts. Packs with the same fields are built alike, and
their rules differ where a text is read.
-/

namespace Propfirm

open Fallible Records

variable {read : String → ParamsJson} {p q : StoredPack read}

/-! ## Reading the fields back -/

@[simp] theorem RuleBasis.ctorIdx_inj {a b : RuleBasis} : a.ctorIdx = b.ctorIdx ↔ a = b :=
  (Function.LeftInverse.injective RuleBasis.ofNat_ctorIdx).eq_iff

@[simp] theorem RuleUnit.ctorIdx_inj {a b : RuleUnit} : a.ctorIdx = b.ctorIdx ↔ a = b :=
  (Function.LeftInverse.injective RuleUnit.ofNat_ctorIdx).eq_iff

theorem asUsize_inj {a b : ℤ} (ha : -2 ^ 63 ≤ a ∧ a < 2 ^ 63) (hb : -2 ^ 63 ≤ b ∧ b < 2 ^ 63)
    (h : asUsize a = asUsize b) : a = b := by
  unfold asUsize at h
  omega

theorem option_asUsize_inj {x y : Option ℤ} (hx : ∀ c ∈ x, -2 ^ 63 ≤ c ∧ c < 2 ^ 63)
    (hy : ∀ c ∈ y, -2 ^ 63 ≤ c ∧ c < 2 ^ 63)
    (h : FieldValue.option (fun c => .count (asUsize c)) x = .option (fun c => .count (asUsize c)) y) :
    x = y := by
  cases x with
  | none => cases y with
    | none => rfl
    | some b => cases h
  | some a => cases y with
    | none => cases h
    | some b =>
        have hcount : asUsize a = asUsize b := by simpa [FieldValue.option] using h
        rw [asUsize_inj (hx a rfl) (hy b rfl) hcount]

theorem StoredEntry.eq_withTexts {e e' : StoredEntry read} (h : e.contentFields = e'.contentFields) :
    e'.toRuleEntry = e.toRuleEntry.withTexts e'.severity e'.failurePolicy := by
  have hparams := e.paramsJson_eq
  have hparams' := e'.paramsJson_eq
  have hrange := e.toleranceCents_range
  have hrange' := e'.toleranceCents_range
  simp only [contentFields, List.cons.injEq, FieldValue.text.injEq, FieldValue.discriminant.injEq,
    FieldValue.decimal.injEq, FieldValue.count.injEq, FieldValue.flag.injEq, FieldValue.option_decimal,
    RuleBasis.ctorIdx_inj, RuleUnit.ctorIdx_inj, and_true] at h
  obtain ⟨hid, hkind, hbasis, hunit, hvalue, hpriority, henabled, hcents, hwarning, htext⟩ := h
  have hcents := option_asUsize_inj hrange hrange' hcents
  rw [htext, ← hparams'] at hparams
  cases hentry : e.toRuleEntry
  cases hentry' : e'.toRuleEntry
  simp_all [RuleEntry.withTexts]

theorem StoredPack.map_contentFields (h : p.contentFields = q.contentFields) :
    p.rules.map StoredEntry.contentFields = q.rules.map StoredEntry.contentFields := by
  obtain ⟨-, h⟩ := List.append_inj h rfl
  have hends (pack : StoredPack read) :
      Ends (fun e : StoredEntry read => e.contentFields) (fun _ => True)
        [.decimal pack.initialBalance, .count pack.leverage, .decimal pack.profitTargetPct] :=
    ⟨trivial, fun a t _ heq => by simp [StoredEntry.contentFields] at heq⟩
  exact (flatMap_append_inj (fun _ _ => rfl) (fun _ _ => trivial) (hends p) (hends q) h).1

/-! ## Entries with other texts -/

/-- What two registries are compared by: the rule, its priority, and the class of its verdict with the
severity of the violation. -/
def RuleReport.grade (report : RuleReport) : RuleId × ℕ × Verdict ViolationSeverity :=
  (report.ruleId, report.priority, report.verdict.map Violation.severity)

/-- An entry of a known kind, and texts to replace its own. -/
structure Rewording where
  entry : RuleEntry
  severity : Option String
  failurePolicy : Option String
  factory : Option RuleParams → StdRule
  factory_eq : defaultFactoryForKind entry.kind = some factory

namespace Rewording

variable {x y : Rewording} {xs : List Rewording} {ctx : RuleContext} {now : Timestamp} {o : Overflow}

def reworded (x : Rewording) : RuleEntry := x.entry.withTexts x.severity x.failurePolicy

def rule (x : Rewording) : Rule := (x.factory (some (.fromEntry x.entry))).toRule

def rewordedRule (x : Rewording) : Rule := (x.factory (some (.fromEntry x.reworded))).toRule

theorem built_entry (x : Rewording) : x.entry.built = some x.rule :=
  Option.map_eq_some_iff.mpr ⟨_, x.factory_eq, rfl⟩

theorem built_reworded (x : Rewording) : x.reworded.built = some x.rewordedRule :=
  Option.map_eq_some_iff.mpr ⟨_, x.factory_eq, rfl⟩

theorem rewordedRule_id (x : Rewording) : x.rewordedRule.id = x.rule.id :=
  congrArg RuleId.named ((isFactory x.factory_eq).id_eq _ _)

/-- The two rules that ignore their entries have no parameters. -/
theorem takesParams_of_isSome (x : Rewording) (h : x.rule.params.isSome = true) :
    takesParams x.entry.kind := by
  by_contra hparams
  have hfactory := x.factory_eq
  rw [takesParams, not_and_or, not_not, not_not] at hparams
  have hnone : (x.factory (some (.fromEntry x.entry))).params = none := by
    rcases hparams with hkind | hkind <;>
      · rw [hkind] at hfactory
        rw [← Option.some.inj hfactory]
        rfl
  have hsome : (x.factory (some (.fromEntry x.entry))).params.isSome = true := h
  rw [hnone] at hsome
  cases hsome

theorem rule_id_eq_iff : x.rule.id = y.rule.id ↔ x.entry.kind = y.entry.kind :=
  RuleEntry.id_eq_iff_of_built x.built_entry y.built_entry

theorem grid_factory (hkind : x.entry.kind = "grid_trading") : x.factory = gridTradingRule := by
  have h := x.factory_eq
  rw [hkind] at h
  exact (Option.some.inj h).symm

/-- Where the rule fails, the policies decide. -/
theorem policy_eq_of_grade (hparams : takesParams x.entry.kind)
    (hfails : ∃ f, (x.rule.under o).evaluate ctx = .error f)
    (hfails' : ∃ f, (x.rewordedRule.under o).evaluate ctx = .error f)
    (hgrade : (x.rewordedRule.under o).grade ctx = (x.rule.under o).grade ctx) :
    x.entry.policy = x.reworded.policy := by
  have hleft : (x.rule.under o).grade ctx = x.entry.policy.verdict .warning :=
    grade_of_failure x.factory_eq hparams hfails
  have hright : (x.rewordedRule.under o).grade ctx = x.reworded.policy.verdict .warning :=
    grade_of_failure (e := x.reworded) x.factory_eq hparams hfails'
  rw [hleft, hright] at hgrade
  exact (FailurePolicy.verdict_inj.mp hgrade).symm

theorem occurs_reworded (x : Rewording) (o : Overflow) (ctx : RuleContext) :
    o.occurs x.rewordedRule.id x.rewordedRule.params ctx = o.occurs x.rule.id x.rule.params ctx :=
  congrFun (occurs_withTexts x.factory_eq o x.entry x.severity x.failurePolicy) ctx

/-- Where the grid rule finds a pattern, the severities decide. -/
theorem asksHard_eq_of_grade (hkind : x.entry.kind = "grid_trading")
    (hoccurs : o.occurs x.rule.id x.rule.params ctx = false)
    (hfound : GridTradingRule.found (some (.fromEntry x.entry)) ctx = .ok true)
    (hgrade : (x.rewordedRule.under o).grade ctx = (x.rule.under o).grade ctx) :
    x.entry.asksHard = x.reworded.asksHard := by
  have hgraded (e : RuleEntry) (hfound : GridTradingRule.found (some (.fromEntry e)) ctx = .ok true) :
      (gridTradingRule (some (.fromEntry e))).toRule.grade ctx =
        .warn (if e.asksHard then .hard else .warning) := by
    refine StdRule.grade_of_ok ?_
    rw [GridTradingRule.graded_eq, hfound, GridTradingRule.effectiveSeverity_fromEntry]
    rfl
  rw [Rule.grade_under hoccurs, Rule.grade_under ((x.occurs_reworded o ctx).trans hoccurs), rule, rewordedRule,
    grid_factory hkind, hgraded _ hfound, hgraded x.reworded (GridTradingRule.found_withTexts.trans hfound)]
    at hgrade
  have hif := Verdict.warn.inj hgrade
  cases hhard : x.entry.asksHard <;> cases hhard' : x.reworded.asksHard <;> simp_all

/-- The texts change no grade exactly if they agree where they are read. -/
theorem grade_eq_iff (henabled : x.entry.enabled = true) :
    (∀ ctx, x.rule.runsIn ctx = true → (x.rewordedRule.under o).grade ctx = (x.rule.under o).grade ctx) ↔
      x.entry.GradesAlike o x.reworded := by
  constructor
  · intro hgrade
    refine ⟨?_, ?_⟩
    · rintro (hfails | ⟨rule, ctx, hbuilt, hsome, hruns, hoccurs⟩)
      · have hparams : takesParams x.entry.kind := by
          constructor
          all_goals
            intro hkind
            rw [hkind] at hfails
            exact hfails
        obtain ⟨f, hf⟩ := judge_failingContext x.factory_eq henabled hfails
        obtain ⟨f', hf'⟩ := judge_failingContext (e := x.reworded) x.factory_eq henabled hfails
        have hruns : x.rule.runsIn (failingContext x.entry) = true :=
          Bool.and_eq_true_iff.mpr ⟨isEnabled_failingContext x.factory_eq henabled hfails, rfl⟩
        exact policy_eq_of_grade hparams (Rule.evaluate_under_of_error (StdRule.evaluate_of_error hf))
          (Rule.evaluate_under_of_error (StdRule.evaluate_of_error hf')) (hgrade _ hruns)
      · obtain rfl := Option.some.inj (x.built_entry.symm.trans hbuilt)
        have hparams : takesParams x.entry.kind := x.takesParams_of_isSome hsome
        exact policy_eq_of_grade hparams (Rule.evaluate_under_of_occurs hoccurs)
          (Rule.evaluate_under_of_occurs ((x.occurs_reworded o ctx).trans hoccurs)) (hgrade _ hruns)
    · rintro ⟨hkind, rule, ctx, hbuilt, hruns, hoccurs, hfound⟩
      obtain rfl := Option.some.inj (x.built_entry.symm.trans hbuilt)
      exact asksHard_eq_of_grade hkind hoccurs hfound (hgrade _ hruns)
  · intro halike ctx hruns
    exact grade_withTexts x.factory_eq halike hruns

/-- The rewordings in the place of their rules in a registry. -/
def inForce (xs : List Rewording) : Directory fun x : Rewording => x.rule.id := xs.foldl .enter .empty

theorem mem_inForce : x ∈ (inForce xs).items ↔ LastOfKey (fun x => x.entry.kind) xs x :=
  Directory.mem_foldl_enter_empty.trans (lastOfKey_congr fun _ _ => rule_id_eq_iff)

theorem evaluate_map_grade {f : Rewording → Rule} (hid : ∀ x, (f x).id = x.rule.id) :
    (((RuleRegistry.empty.registerAll (xs.map f)).under o).evaluate ctx now).map RuleReport.grade =
      ((inForce xs).items.filter fun x => (f x).runsIn ctx).map fun x =>
        (x.rule.id, (f x).priority, ((f x).under o).grade ctx) := by
  have hrules : (RuleRegistry.empty.registerAll (xs.map f)).rules = (inForce xs).items.map f := by
    rw [(RuleRegistry.empty_lists.registerAll _).rules_eq]
    exact Directory.items_foldl_enter_map hid rfl
  simp only [RuleRegistry.evaluate, RuleRegistry.under, hrules, List.filter_map, List.map_map]
  refine List.map_congr_left fun x _ => ?_
  rw [← hid x]
  rfl

theorem evaluate_eq_iff (henabled : ∀ x ∈ xs, x.entry.enabled = true) :
    (∀ ctx now,
      (((RuleRegistry.empty.registerAll (xs.map rule)).under o).evaluate ctx now).map RuleReport.grade =
        (((RuleRegistry.empty.registerAll (xs.map rewordedRule)).under o).evaluate ctx now).map
          RuleReport.grade) ↔
      ∀ x, LastOfKey (fun x => x.entry.kind) xs x → x.entry.GradesAlike o x.reworded := by
  have hruns (x : Rewording) : x.rewordedRule.runsIn = x.rule.runsIn := (frame_withTexts x.factory_eq).1
  have hpriority (x : Rewording) : x.rewordedRule.priority = x.rule.priority :=
    (frame_withTexts x.factory_eq).2
  simp only [evaluate_map_grade fun _ => rfl, evaluate_map_grade rewordedRule_id, hruns, hpriority,
    List.map_inj_left, List.mem_filter, mem_inForce, Prod.mk.injEq, true_and, and_imp]
  constructor
  · intro hgrade x hlast
    exact (grade_eq_iff (henabled x hlast.mem)).mp fun ctx hrun => (hgrade ctx 0 x hlast hrun).symm
  · intro halike ctx _ x hlast hrun
    exact ((grade_eq_iff (henabled x hlast.mem)).mpr (halike x hlast) ctx hrun).symm

end Rewording

/-! ## Packs -/

/-- The kinds of the enabled entries are known. -/
def PackWithRules.Known (pack : PackWithRules) : Prop :=
  ∀ e ∈ pack.rules, e.enabled = true → (defaultFactoryForKind e.kind).isSome = true

/-- The entry whose rule stays in the registry: the last enabled one of its kind. -/
def PackWithRules.InForce (pack : PackWithRules) (e : RuleEntry) : Prop :=
  LastOfKey RuleEntry.kind (pack.rules.filter RuleEntry.enabled) e

/-- Both packs are built or neither is, and their registries grade every context alike. -/
structure PackWithRules.BuildsAlike (o : Overflow) (pack pack' : PackWithRules) : Prop where
  built_iff : (∃ registry, RuleRegistry.buildFromPack pack = .ok registry) ↔
    ∃ registry, RuleRegistry.buildFromPack pack' = .ok registry
  grade_eq : ∀ registry registry', RuleRegistry.buildFromPack pack = .ok registry →
    RuleRegistry.buildFromPack pack' = .ok registry' → ∀ ctx now,
      ((registry.under o).evaluate ctx now).map RuleReport.grade =
        ((registry'.under o).evaluate ctx now).map RuleReport.grade

theorem buildFromPack_ok_iff {pack : PackWithRules} {registry : RuleRegistry} :
    RuleRegistry.buildFromPack pack = .ok registry ↔
      pack.Known ∧ RuleRegistry.empty.registerAll pack.builtRules = registry := by
  rw [buildFromPack_ok]
  simp only [PackWithRules.Known, RuleEntry.built, Option.isSome_map]

theorem exists_rewordings {es es' : List (StoredEntry read)}
    (h : es.map StoredEntry.contentFields = es'.map StoredEntry.contentFields)
    (hknown : ∀ e ∈ es, e.enabled = true → (defaultFactoryForKind e.kind).isSome = true) :
    ∃ xs : List Rewording,
      (es.map StoredEntry.toRuleEntry).filter RuleEntry.enabled = xs.map Rewording.entry ∧
        (es'.map StoredEntry.toRuleEntry).filter RuleEntry.enabled = xs.map Rewording.reworded := by
  induction es generalizing es' with
  | nil =>
      rw [List.map_nil, eq_comm, List.map_eq_nil_iff] at h
      subst h
      exact ⟨[], rfl, rfl⟩
  | cons e es ih =>
      cases es' with
      | nil => simp at h
      | cons e' es' =>
          obtain ⟨hhead, htail⟩ := List.cons.inj h
          obtain ⟨xs, hleft, hright⟩ := ih htail fun e he => hknown e (List.mem_cons_of_mem _ he)
          have htexts := StoredEntry.eq_withTexts hhead
          cases henabled : e.enabled with
          | false =>
              have henabled' : e'.enabled = false := by rw [htexts]; exact henabled
              exact ⟨xs, by simp [henabled, hleft], by simp [henabled', hright]⟩
          | true =>
              have henabled' : e'.enabled = true := by rw [htexts]; exact henabled
              obtain ⟨factory, hfactory⟩ := Option.isSome_iff_exists.mp (hknown e List.mem_cons_self henabled)
              refine ⟨⟨e.toRuleEntry, e'.severity, e'.failurePolicy, factory, hfactory⟩ :: xs, ?_, ?_⟩
              · simp [henabled, hleft]
              · rw [List.map_cons, List.filter_cons_of_pos henabled', hright]
                exact congrArg (· :: _) htexts

theorem builtRules_eq_map {pack : PackWithRules} {xs : List Rewording} {f : Rewording → RuleEntry}
    {g : Rewording → Rule} (hrules : pack.rules.filter RuleEntry.enabled = xs.map f)
    (hbuilt : ∀ x, (f x).built = some (g x)) : pack.builtRules = xs.map g := by
  have hcomp : RuleEntry.built ∘ f = some ∘ g := funext hbuilt
  rw [PackWithRules.builtRules, hrules, List.filterMap_map, hcomp, List.filterMap_eq_map]

theorem buildsAlike_iff {pack pack' : PackWithRules} {xs : List Rewording} {o : Overflow} (hknown : pack.Known)
    (hknown' : pack'.Known) (hleft : pack.rules.filter RuleEntry.enabled = xs.map Rewording.entry)
    (hright : pack'.rules.filter RuleEntry.enabled = xs.map Rewording.reworded) :
    pack.BuildsAlike o pack' ↔
      ∀ x, LastOfKey (fun x : Rewording => x.entry.kind) xs x → x.entry.GradesAlike o x.reworded := by
  have henabled : ∀ x ∈ xs, x.entry.enabled = true := fun x hx =>
    List.of_mem_filter (hleft ▸ List.mem_map_of_mem hx)
  rw [← Rewording.evaluate_eq_iff henabled, ← builtRules_eq_map hleft Rewording.built_entry,
    ← builtRules_eq_map hright Rewording.built_reworded]
  constructor
  · intro halike
    exact halike.grade_eq _ _ (buildFromPack_ok_iff.mpr ⟨hknown, rfl⟩)
      (buildFromPack_ok_iff.mpr ⟨hknown', rfl⟩)
  · intro hgrade
    refine ⟨by simp [buildFromPack_ok_iff, hknown, hknown'], fun r s hr hs => ?_⟩
    obtain ⟨-, rfl⟩ := buildFromPack_ok_iff.mp hr
    obtain ⟨-, rfl⟩ := buildFromPack_ok_iff.mp hs
    exact hgrade

section Packs

variable {digest : List FieldValue → String}

theorem StoredPack.known_of_contentFields (h : p.contentFields = q.contentFields)
    (hknown : (p.toPack digest).Known) : (q.toPack digest).Known := by
  obtain ⟨xs, -, hright⟩ := exists_rewordings (StoredPack.map_contentFields h)
    fun e he => hknown e.toRuleEntry (List.mem_map_of_mem he)
  intro e he henabled
  have hmem : e ∈ xs.map Rewording.reworded := hright ▸ List.mem_filter.mpr ⟨he, henabled⟩
  obtain ⟨x, -, rfl⟩ := List.mem_map.mp hmem
  exact Option.isSome_iff_exists.mpr ⟨_, x.factory_eq⟩

/-- The texts are not hashed. Packs with the same fields grade alike exactly if the texts of the entries in
force agree where they are read: the policy of a rule that may fail or overflow, and the severity of a grid
rule that may find a pattern. -/
theorem content_hash_identifies_iff (o : Overflow) (h : p.contentFields = q.contentFields) :
    (p.toPack digest).BuildsAlike o (q.toPack digest) ↔
      ((p.toPack digest).Known → ∀ e e', (p.toPack digest).InForce e → (q.toPack digest).InForce e' →
        e.kind = e'.kind → e.GradesAlike o e') := by
  by_cases hknown : (p.toPack digest).Known
  · have hknown' := StoredPack.known_of_contentFields h hknown
    obtain ⟨xs, hleft, hright⟩ := exists_rewordings (StoredPack.map_contentFields h)
      fun e he => hknown e.toRuleEntry (List.mem_map_of_mem he)
    have hleft : (p.toPack digest).rules.filter RuleEntry.enabled = xs.map Rewording.entry := hleft
    have hright : (q.toPack digest).rules.filter RuleEntry.enabled = xs.map Rewording.reworded := hright
    simp only [buildsAlike_iff hknown hknown' hleft hright, PackWithRules.InForce, hleft, hright,
      lastOfKey_map]
    constructor
    · rintro hall - _ _ ⟨x, hx, rfl⟩ ⟨y, hy, rfl⟩ hkind
      obtain rfl := hx.eq hy hkind
      exact hall x hx
    · intro hall x hx
      exact hall hknown _ _ ⟨x, hx, rfl⟩ ⟨x, hx, rfl⟩ rfl
  · have hknown' : ¬(q.toPack digest).Known := fun hq => hknown (StoredPack.known_of_contentFields h.symm hq)
    refine iff_of_true ⟨?_, fun r s hr => ?_⟩ fun hp => absurd hp hknown
    · simp [buildFromPack_ok_iff, hknown, hknown']
    · exact absurd (buildFromPack_ok_iff.mp hr).1 hknown

end Packs

/-- Where nothing overflows, a grid rule that can read its entry finds a pattern on some day. -/
theorem RuleEntry.findsGrid_never {e : RuleEntry} (henabled : e.enabled = true) :
    e.FindsGrid .never ↔ e.kind = "grid_trading" ∧ GridTradingRule.readable e := by
  refine and_congr_right fun hkind => ⟨?_, fun hreadable => ?_⟩
  · rintro ⟨rule, ctx, -, -, -, hfound⟩
    exact GridTradingRule.readable_of_found hfound
  · have hbuilt : e.built = some (gridTradingRule (some (.fromEntry e))).toRule := by
      rw [built, hkind]
      rfl
    exact ⟨_, GridTradingRule.martingaleContext (some (.fromEntry e)), hbuilt,
      Bool.and_eq_true_iff.mpr ⟨Bool.and_eq_true_iff.mpr ⟨henabled, rfl⟩, rfl⟩, rfl,
      GridTradingRule.found_martingaleContext hreadable⟩

/-- A pack of one entry, with the texts given. -/
def soloPack (kind : String) (value : Decimal) (severity failurePolicy : Option String) :
    StoredPack fun _ => .empty :=
  .ofRules "solo" [{ StoredEntry.new (fun _ => .empty) "rule" kind value with severity, failurePolicy }]

/-- A number of days does not fail, so its failure policy does not matter. -/
theorem content_hash_identifies_days :
    (soloPack "min_trading_days" 5 none (some "fail")).contentFields =
        (soloPack "min_trading_days" 5 none none).contentFields ∧
      ((soloPack "min_trading_days" 5 none (some "fail")).toPack fun _ => "").BuildsAlike .never
        ((soloPack "min_trading_days" 5 none none).toPack fun _ => "") := by
  have hfields : (soloPack "min_trading_days" 5 none (some "fail")).contentFields =
      (soloPack "min_trading_days" 5 none none).contentFields := rfl
  refine ⟨hfields, (content_hash_identifies_iff .never hfields).mpr ?_⟩
  intro _ e e' he _ _
  obtain rfl := List.mem_singleton.mp he.mem
  refine ⟨?_, fun hgrid => absurd hgrid.1 (by decide)⟩
  rintro (hfails | ⟨_, _, _, _, _, hoccurs⟩)
  · have hvalue : (5 : Decimal).toU32? = none := hfails
    exact absurd hvalue (by decide +kernel)
  · cases hoccurs

/-- Two packs with one hash: the grid pattern of one account is a hard violation under the first and a
warning under the second. -/
theorem content_hash_overlooks_severity :
    (soloPack "grid_trading" 3 (some "hard") none).contentFields =
        (soloPack "grid_trading" 3 none none).contentFields ∧
      ¬((soloPack "grid_trading" 3 (some "hard") none).toPack fun _ => "").BuildsAlike .never
        ((soloPack "grid_trading" 3 none none).toPack fun _ => "") := by
  refine ⟨rfl, fun halike => ?_⟩
  have hgrade := halike.grade_eq _ _ rfl rfl (GridTradingRule.martingaleContext none) 0
  exact absurd hgrade (by decide +kernel)

end Propfirm
