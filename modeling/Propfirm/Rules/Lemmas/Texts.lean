import Propfirm.Rules.Lemmas.Failures

/-!
# What the texts of an entry decide

The failure policy of an entry is read when its rule fails, and its severity by the grid rule, which gives
it to its findings. Nothing else of a verdict depends on either text.
-/

namespace Propfirm

open Fallible

variable {kind : String} {factory : Option RuleParams → StdRule} {e : RuleEntry} {r : StdRule} {rule : Rule}
  {ctx : RuleContext} {severity failurePolicy : Option String}

def RuleEntry.withTexts (e : RuleEntry) (severity failurePolicy : Option String) : RuleEntry :=
  { e with severity, failurePolicy }

/-! ## Failure policies -/

inductive FailurePolicy where
  | warn
  | softFail
  | fail
  | gapFlagged
deriving DecidableEq

namespace FailurePolicy

/-- Every other text stands for a warning, as no text does. -/
def parse (text : Option String) : FailurePolicy :=
  match text.getD "warn" with
  | "soft_fail" => .softFail
  | "fail" => .fail
  | "gap_flagged" => .gapFlagged
  | _ => .warn

def verdict {ν : Type} (base : ν) : FailurePolicy → Verdict ν
  | .warn => .warn base
  | .softFail => .softFail base
  | .fail => .fail base
  | .gapFlagged => .gapFlagged base

theorem verdict_inj {ν : Type} {base : ν} {p q : FailurePolicy} :
    p.verdict base = q.verdict base ↔ p = q := by
  cases p <;> cases q <;> simp [verdict]

theorem verdict_warns_iff {ν : Type} {base : ν} {p : FailurePolicy} :
    (p.verdict base).decisionKind = .warn ↔ p = .warn := by
  cases p <;> simp [verdict, Verdict.decisionKind]

end FailurePolicy

def RuleEntry.policy (e : RuleEntry) : FailurePolicy := .parse e.failurePolicy

theorem Rule.failureVerdict_eq (rule : Rule) (base : Violation) :
    rule.failureVerdict base =
      (FailurePolicy.parse (rule.params.bind RuleParams.failurePolicy)).verdict base := by
  unfold failureVerdict FailurePolicy.parse
  generalize (rule.params.bind RuleParams.failurePolicy).getD "warn" = text
  split <;> simp [FailurePolicy.verdict, *]

/-! ## Grades -/

/-- The class of the verdict of a rule, with the severity of its violation. -/
def Rule.grade (rule : Rule) (ctx : RuleContext) : Verdict ViolationSeverity :=
  (rule.verdict ctx).map Violation.severity

/-- What a rule of the library says, with only the severity of its finding. -/
def StdRule.graded (r : StdRule) (ctx : RuleContext) : Outcome (Verdict ViolationSeverity) :=
  (r.judge ctx).map (Verdict.map Finding.severity)

theorem StdRule.grade_of_ok {v : Verdict ViolationSeverity} (h : r.graded ctx = .ok v) :
    r.toRule.grade ctx = v := by
  obtain ⟨w, hjudge, rfl⟩ := map_eq_ok.mp h
  have heval : r.toRule.evaluate ctx = .ok (w.map (buildViolation (.named r.id) r.name r.kind ctx)) := by
    simp only [toRule, evaluate, hjudge]
    rfl
  simp only [Rule.grade, Rule.verdict, heval]
  cases w <;> simp [Verdict.map]

theorem Rule.grade_of_error {f : Fault} (h : rule.evaluate ctx = .error f) :
    rule.grade ctx =
      (FailurePolicy.parse (rule.params.bind RuleParams.failurePolicy)).verdict .warning := by
  have hmap (policy : FailurePolicy) (base : Violation) :
      (policy.verdict base).map Violation.severity = policy.verdict base.severity := by cases policy <;> rfl
  cases f with
  | error err | panic msg | overflow msg =>
      simp only [grade, verdict, h, failureVerdict_eq, hmap, failureViolation, buildViolation_severity]

theorem StdRule.evaluate_of_error {f : Fault} (h : r.judge ctx = .error f) :
    r.toRule.evaluate ctx = .error f := by
  simp only [toRule, evaluate, h]
  rfl

/-- The class of its verdict is that of the policy. -/
theorem StdRule.verdict_warns_of_error {f : Fault} (h : r.judge ctx = .error f) :
    (r.toRule.verdict ctx).decisionKind = .warn ↔
      FailurePolicy.parse (r.params.bind RuleParams.failurePolicy) = .warn := by
  have hgrade := Rule.grade_of_error (evaluate_of_error h)
  rw [← Verdict.decisionKind_map Violation.severity, ← Rule.grade, hgrade]
  exact FailurePolicy.verdict_warns_iff

/-! ## Overflow -/

/-- Where the arithmetic of a rule overflows, besides the times out of range that the rules have here. The
decimals and counts of the model have no bounds, so this is left open but for one thing: the texts of an
entry take no part in the arithmetic. -/
structure Overflow where
  occurs : RuleId → Option RuleParams → RuleContext → Bool
  occurs_texts : ∀ id p severity failurePolicy,
    occurs id (some { p with severity, failurePolicy }) = occurs id (some p)

def Overflow.never : Overflow := ⟨fun _ _ _ => false, fun _ _ _ _ => rfl⟩

variable {o : Overflow}

/-- The rule, which panics where its arithmetic overflows. -/
def Rule.under (o : Overflow) (rule : Rule) : Rule :=
  { rule with
    evaluate := fun ctx =>
      if o.occurs rule.id rule.params ctx then .error (.overflow "arithmetic overflow")
      else rule.evaluate ctx }

def RuleRegistry.under (o : Overflow) (registry : RuleRegistry) : RuleRegistry :=
  { registry with rules := registry.rules.map (Rule.under o) }

theorem Rule.evaluate_under_of_occurs (h : o.occurs rule.id rule.params ctx = true) :
    ∃ f, (rule.under o).evaluate ctx = .error f :=
  ⟨_, if_pos h⟩

theorem Rule.grade_under (h : o.occurs rule.id rule.params ctx = false) :
    (rule.under o).grade ctx = rule.grade ctx := by
  have heval : (rule.under o).evaluate ctx = rule.evaluate ctx := if_neg (ne_true_of_eq_false h)
  unfold grade verdict
  rw [heval]
  rfl

theorem Rule.evaluate_under_of_error {f : Fault} (h : rule.evaluate ctx = .error f) :
    ∃ f, (rule.under o).evaluate ctx = .error f := by
  by_cases hoccurs : o.occurs rule.id rule.params ctx = true
  · exact evaluate_under_of_occurs hoccurs
  · exact ⟨f, (if_neg hoccurs).trans h⟩

/-! ## The grid rule -/

/-- Whether the grid rule of an entry takes its findings for hard violations. -/
def RuleEntry.asksHard (e : RuleEntry) : Bool :=
  if e.severity.getD "" = "" then (e.paramsJson.decimal "severity_hard").any fun v => decide (1 ≤ v)
  else (e.severity.getD "").toLower = "hard"

namespace GridTradingRule

theorem effectiveSeverity_fromEntry :
    effectiveSeverity (some (.fromEntry e)) = if e.asksHard then .hard else .warning := by
  unfold effectiveSeverity RuleEntry.asksHard
  dsimp only [RuleParams.fromEntry]
  cases hseverity : e.severity with
  | none => simp
  | some text => by_cases hempty : text = "" <;> simp [hempty]

/-- Whether the rule finds a pattern. -/
def found (params : Option RuleParams) (ctx : RuleContext) : Outcome Bool :=
  if ctx.account.plan.gridTradingAllowed then .ok false
  else do
    let minEntries ← effectiveMinEntries params
    match ctx.pendingOrder with
    | none => pure false
    | some order => do
        let grid ← detectGrid Decimal.sqrt? params ctx order.symbol minEntries
        pure (grid.isSome || (detectEscalation params ctx order.symbol).isSome)

theorem graded_eq (params : Option RuleParams) (ctx : RuleContext) :
    (gridTradingRule params).graded ctx =
      (found params ctx).map fun b => if b then .warn (effectiveSeverity params) else .pass := by
  change (judge params ctx).map _ = _
  unfold judge found
  split
  · rfl
  · cases effectiveMinEntries params with
    | error f => rfl
    | ok minEntries =>
        simp only [bind, Except.bind]
        cases ctx.pendingOrder with
        | none => rfl
        | some order =>
            cases hgrid : detectGrid Decimal.sqrt? params ctx order.symbol minEntries with
            | error f => simp [hgrid, Except.map]
            | ok grid =>
                cases grid with
                | some grid => simp [hgrid, pure, Except.pure, Except.map, Verdict.map]
                | none =>
                    cases hescalation : detectEscalation params ctx order.symbol <;>
                      simp [hgrid, hescalation, pure, Except.pure, Except.map, Verdict.map]

theorem found_withTexts :
    found (some (.fromEntry (e.withTexts severity failurePolicy))) ctx = found (some (.fromEntry e)) ctx :=
  rfl

theorem effectiveEscalationLosses_pos (params : Option RuleParams) :
    0 < effectiveEscalationLosses params := by
  unfold effectiveEscalationLosses
  split <;> omega

def losingExit : Trade where
  id := ⟨1⟩
  orderId := ⟨1⟩
  accountId := ⟨1⟩
  symbol := ⟨"EURUSD"⟩
  side := .sell
  tradeSide := .exit
  price := 1
  quantity := 1
  commission := 0
  swap := 0
  executedAt := 0
  exitInfo := some
    { positionId := ⟨1⟩, realizedPnl := -1, closedQuantity := 1, entryPrice := 2, exitPrice := 1 }

/-- An entry of the given size. -/
def escalatedEntry (quantity : Quantity) : Trade :=
  { losingExit with side := .buy, tradeSide := .entry, quantity, exitInfo := none }

/-- As many losses as the rule asks for, and an entry that is large enough. -/
def martingaleContext (params : Option RuleParams) : RuleContext :=
  { faultyContext with
    instruments := .new
    todayTrades :=
      List.replicate (effectiveEscalationLosses params) losingExit ++
        [escalatedEntry (max (effectiveEscalationMultiplier params) 1)] }

theorem lossRun_martingaleContext (params : Option RuleParams) :
    lossRun (martingaleContext params) ⟨"EURUSD"⟩ = List.replicate (effectiveEscalationLosses params) 1 := by
  have hfilter :
      (martingaleContext params).todayTrades.filter
          (fun t => decide (t.symbol = ⟨"EURUSD"⟩) && decide (t.tradeSide = .exit)) =
        List.replicate (effectiveEscalationLosses params) losingExit := by
    simp [martingaleContext, List.filter_append, losingExit, escalatedEntry]
  have hsort (n : ℕ) : sortByTime (List.replicate n losingExit) = List.replicate n losingExit :=
    List.Pairwise.insertionSort_eq (List.pairwise_replicate.mpr (.inr le_rfl))
  have hloss : losingExit.netPnl < 0 := by decide +kernel
  have hquantity : losingExit.quantity = 1 := rfl
  simp [lossRun, hfilter, hsort, hloss, hquantity]

theorem detectEscalation_martingaleContext (params : Option RuleParams) :
    (detectEscalation params (martingaleContext params) ⟨"EURUSD"⟩).isSome = true := by
  have hpos := (effectiveEscalationLosses_pos params).ne'
  have hentries :
      (martingaleContext params).todayTrades.filter
          (fun t => decide (t.symbol = ⟨"EURUSD"⟩) && decide (t.tradeSide = .entry)) =
        [escalatedEntry (max (effectiveEscalationMultiplier params) 1)] := by
    simp [martingaleContext, List.filter_append, losingExit, escalatedEntry]
  have hlarge : 1 * effectiveEscalationMultiplier params ≤
      max 0 (escalatedEntry (max (effectiveEscalationMultiplier params) 1)).quantity := by
    rw [one_mul]
    exact (le_max_left _ _).trans (le_max_right _ _)
  simp only [detectEscalation, lossRun_martingaleContext, List.length_replicate, lt_irrefl, if_false,
    List.getLast?_replicate, if_neg hpos, hentries, List.map_cons, List.map_nil, List.foldl_cons,
    List.foldl_nil, if_pos hlarge, Option.isSome_some]

/-- The rule reads its number of entries and its window. -/
def readable (e : RuleEntry) : Prop :=
  e.value.toI64?.isSome = true ∧
    |effectiveMaxWindowMinutes (some (.fromEntry e)) * 60| ≤ Duration.maxSeconds

theorem found_martingaleContext (h : readable e) :
    found (some (.fromEntry e)) (martingaleContext (some (.fromEntry e))) = .ok true := by
  obtain ⟨hvalue, hwindow⟩ := h
  obtain ⟨n, hn⟩ : ∃ n, effectiveMinEntries (some (.fromEntry e)) = .ok n := by
    cases hmin : effectiveMinEntries (some (.fromEntry e)) with
    | ok n => exact ⟨n, rfl⟩
    | error f => simp [effectiveMinEntries_error.mp ⟨f, hmin⟩] at hvalue
  have htry : Duration.tryMinutes (effectiveMaxWindowMinutes (some (.fromEntry e))) = .ok _ := if_pos hwindow
  refine bind_eq_ok.mpr ⟨n, hn, ?_⟩
  refine bind_eq_ok.mpr ⟨_, bind_eq_ok.mpr ⟨_, htry, rfl⟩, ?_⟩
  rw [detectEscalation_martingaleContext]
  exact congrArg Except.ok (Bool.or_true _)

theorem readable_of_found (h : found (some (.fromEntry e)) ctx = .ok true) : readable e := by
  unfold found at h
  split at h
  · cases h
  · obtain ⟨n, hn, h⟩ := bind_eq_ok.mp h
    have hvalue : e.value.toI64?.isSome = true := by
      rw [Option.isSome_iff_ne_none]
      intro hnone
      obtain ⟨f, hf⟩ := effectiveMinEntries_error.mpr hnone
      rw [hf] at hn
      cases hn
    refine ⟨hvalue, ?_⟩
    split at h
    · cases h
    · obtain ⟨grid, hgrid, -⟩ := bind_eq_ok.mp h
      obtain ⟨window, hwindow, -⟩ := bind_eq_ok.mp hgrid
      by_contra hlong
      obtain ⟨f, hf⟩ := bounded_error.mpr (not_le.mp hlong)
      cases hwindow.symm.trans hf

end GridTradingRule

/-! ## Rules of two entries -/

/-- The arithmetic of the entry's rule overflows where the rule runs. -/
def RuleEntry.Overflows (o : Overflow) (e : RuleEntry) : Prop :=
  ∃ rule ctx, e.built = some rule ∧ rule.params.isSome = true ∧ rule.runsIn ctx = true ∧
    o.occurs rule.id rule.params ctx = true

/-- The grid rule of the entry finds a pattern where it runs. -/
def RuleEntry.FindsGrid (o : Overflow) (e : RuleEntry) : Prop :=
  e.kind = "grid_trading" ∧ ∃ rule ctx, e.built = some rule ∧ rule.runsIn ctx = true ∧
    o.occurs rule.id rule.params ctx = false ∧ GridTradingRule.found (some (.fromEntry e)) ctx = .ok true

/-- The grades of an entry's rule do not change with its texts. -/
structure RuleEntry.GradesAlike (o : Overflow) (e e' : RuleEntry) : Prop where
  policy_eq : mayFail e.kind e ∨ e.Overflows o → e.policy = e'.policy
  severity_eq : e.FindsGrid o → e.asksHard = e'.asksHard

/-- Neither text decides where a rule runs or what it goes before. -/
theorem frame_withTexts (h : defaultFactoryForKind kind = some factory) :
    (factory (some (.fromEntry (e.withTexts severity failurePolicy)))).toRule.runsIn =
        (factory (some (.fromEntry e))).toRule.runsIn ∧
      (factory (some (.fromEntry (e.withTexts severity failurePolicy)))).priority =
        (factory (some (.fromEntry e))).priority := by
  unfold defaultFactoryForKind at h
  split at h
  all_goals cases h
  all_goals exact ⟨rfl, rfl⟩

theorem judge_withTexts (h : defaultFactoryForKind kind = some factory) (hkind : kind ≠ "grid_trading") :
    (factory (some (.fromEntry (e.withTexts severity failurePolicy)))).judge =
      (factory (some (.fromEntry e))).judge := by
  unfold defaultFactoryForKind at h
  split at h
  case h_16 => exact absurd rfl hkind
  all_goals cases h
  all_goals rfl

theorem graded_withTexts (h : defaultFactoryForKind e.kind = some factory)
    (hgrid : e.kind = "grid_trading" → GridTradingRule.found (some (.fromEntry e)) ctx = .ok true →
      e.asksHard = (e.withTexts severity failurePolicy).asksHard) :
    (factory (some (.fromEntry (e.withTexts severity failurePolicy)))).graded ctx =
      (factory (some (.fromEntry e))).graded ctx := by
  by_cases hkind : e.kind = "grid_trading"
  · obtain rfl : factory = gridTradingRule := by
      rw [hkind] at h
      exact (Option.some.inj h).symm
    rw [GridTradingRule.graded_eq, GridTradingRule.graded_eq, GridTradingRule.found_withTexts,
      GridTradingRule.effectiveSeverity_fromEntry, GridTradingRule.effectiveSeverity_fromEntry]
    cases hfound : GridTradingRule.found (some (.fromEntry e)) ctx with
    | error f => rfl
    | ok b =>
        cases b with
        | false => rfl
        | true => rw [hgrid hkind hfound]
  · unfold StdRule.graded
    rw [judge_withTexts h hkind]

theorem occurs_withTexts (h : defaultFactoryForKind kind = some factory) (o : Overflow) (e : RuleEntry)
    (severity failurePolicy : Option String) :
    o.occurs (factory (some (.fromEntry (e.withTexts severity failurePolicy)))).toRule.id
        (factory (some (.fromEntry (e.withTexts severity failurePolicy)))).toRule.params =
      o.occurs (factory (some (.fromEntry e))).toRule.id (factory (some (.fromEntry e))).toRule.params := by
  by_cases hparams : takesParams kind
  · have htexts (p : RuleEntry) : (factory (some (.fromEntry p))).toRule.params = some (.fromEntry p) :=
      (isFactory h).params_eq hparams _
    have hid : (factory (some (.fromEntry (e.withTexts severity failurePolicy)))).toRule.id =
        (factory (some (.fromEntry e))).toRule.id :=
      congrArg RuleId.named ((isFactory h).id_eq _ _)
    rw [htexts, htexts, hid]
    exact o.occurs_texts _ (.fromEntry e) severity failurePolicy
  · rw [(isFactory h).congr hparams]

/-- A rule that fails gets the verdict of its policy, whatever makes it fail. -/
theorem grade_of_failure (h : defaultFactoryForKind e.kind = some factory) (hparams : takesParams e.kind)
    (hfails : ∃ f, ((factory (some (.fromEntry e))).toRule.under o).evaluate ctx = .error f) :
    ((factory (some (.fromEntry e))).toRule.under o).grade ctx = e.policy.verdict .warning := by
  obtain ⟨f, hf⟩ := hfails
  have htexts : (factory (some (.fromEntry e))).params = some (.fromEntry e) :=
    (isFactory h).params_eq hparams _
  rw [Rule.grade_of_error hf]
  change (FailurePolicy.parse ((factory (some (.fromEntry e))).params.bind _)).verdict _ = _
  rw [htexts]
  rfl

theorem grade_withTexts (h : defaultFactoryForKind e.kind = some factory)
    (halike : e.GradesAlike o (e.withTexts severity failurePolicy))
    (hruns : (factory (some (.fromEntry e))).toRule.runsIn ctx = true) :
    ((factory (some (.fromEntry (e.withTexts severity failurePolicy)))).toRule.under o).grade ctx =
      ((factory (some (.fromEntry e))).toRule.under o).grade ctx := by
  by_cases hparams : takesParams e.kind
  · have hbuilt : e.built = some (factory (some (.fromEntry e))).toRule := Option.map_eq_some_iff.mpr ⟨_, h, rfl⟩
    have hsome : (factory (some (.fromEntry e))).toRule.params.isSome = true := by
      change (factory (some (.fromEntry e))).params.isSome = true
      rw [(isFactory h).params_eq hparams]
      rfl
    have hoccurs := congrFun (occurs_withTexts h o e severity failurePolicy) ctx
    have hpolicy (hpolicy : e.policy = (e.withTexts severity failurePolicy).policy)
        (hleft : ∃ f, ((factory (some (.fromEntry (e.withTexts severity failurePolicy)))).toRule.under
          o).evaluate ctx = .error f)
        (hright : ∃ f, ((factory (some (.fromEntry e))).toRule.under o).evaluate ctx = .error f) :
        ((factory (some (.fromEntry (e.withTexts severity failurePolicy)))).toRule.under o).grade ctx =
          ((factory (some (.fromEntry e))).toRule.under o).grade ctx := by
      rw [grade_of_failure h hparams hright, hpolicy]
      exact grade_of_failure (e := e.withTexts severity failurePolicy) h hparams hleft
    cases hover : o.occurs (factory (some (.fromEntry e))).toRule.id
        (factory (some (.fromEntry e))).toRule.params ctx with
    | true =>
        exact hpolicy (halike.policy_eq (.inr ⟨_, ctx, hbuilt, hsome, hruns, hover⟩))
          (Rule.evaluate_under_of_occurs (hoccurs.trans hover)) (Rule.evaluate_under_of_occurs hover)
    | false =>
        have hgraded := graded_withTexts h fun hkind hfound =>
          halike.severity_eq ⟨hkind, _, ctx, hbuilt, hruns, hover, hfound⟩
        cases hresult : (factory (some (.fromEntry e))).graded ctx with
        | ok v =>
            rw [Rule.grade_under hover, Rule.grade_under (hoccurs.trans hover), StdRule.grade_of_ok hresult,
              StdRule.grade_of_ok (hgraded.trans hresult)]
        | error f =>
            have hleft := map_eq_error.mp (hgraded.trans hresult)
            have hright := map_eq_error.mp hresult
            exact hpolicy (halike.policy_eq (.inl (judge_failsOnly h hparams f hright)))
              (Rule.evaluate_under_of_error (StdRule.evaluate_of_error hleft))
              (Rule.evaluate_under_of_error (StdRule.evaluate_of_error hright))
  · rw [(isFactory h).congr hparams]

end Propfirm
