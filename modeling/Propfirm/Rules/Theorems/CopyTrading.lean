import Propfirm.Lemmas.Conversions
import Propfirm.Rules.Lemmas.Failures
import Propfirm.Rules.Lemmas.Limits
import Mathlib.Tactic.Linarith

/-!
# Thresholds of the copy trading rule

The value of a pack entry says how many mirrored trades a failure takes. On its way to a number of trades
it is truncated to a signed integer and reread as an unsigned one, so zero asks for no trade at all and a
negative value for more than there can be.
-/

namespace Propfirm

open Fallible

variable {params : Option RuleParams} {ctx : RuleContext} {e : RuleEntry} {trade : Trade}

/-- A whole number from one on. -/
def Decimal.IsPositiveCount (d : Decimal) : Prop := ∃ n : ℕ, 0 < n ∧ d = n

namespace CopyTradingRule

/-! ## Verdicts -/

/-- How many reference trades mirror the fill. -/
def hits (params : Option RuleParams) (trade : Trade) (ctx : RuleContext) : ℕ :=
  (ctx.crossReferenceTrades.filter (correlated (effectiveWindowSeconds params) trade)).length

/-- The class of the verdict on a number of hits. -/
def hitsKind (threshold hits : ℕ) : DecisionKind :=
  if threshold ≤ hits then .fail else if 1 ≤ hits then .warn else .pass

theorem evaluate_kind (hforbidden : ctx.account.plan.copyTradingAllowed = false)
    (hlatest : ctx.latestTrade = some trade) :
    ((copyTradingRule params).evaluate ctx).map Verdict.decisionKind =
      (effectiveFailThreshold params).map fun threshold => hitsKind threshold (hits params trade ctx) := by
  rw [StdRule.evaluate_decisionKind]
  change (judge params ctx).map _ = _
  simp only [judge, hforbidden, hlatest]
  cases effectiveFailThreshold params with
  | error f => rfl
  | ok threshold =>
      simp only [Bool.false_eq_true, if_false, bind, Except.bind, pure, Except.pure,
        apply_ite (Except.map Verdict.decisionKind)]
      simp only [Except.map, Verdict.decisionKind, hitsKind]
      rw [apply_ite Except.ok, apply_ite Except.ok]
      rfl

theorem evaluate_error {f : Fault} (hforbidden : ctx.account.plan.copyTradingAllowed = false)
    (h : effectiveFailThreshold params = .error f) : (copyTradingRule params).evaluate ctx = .error f := by
  change (judge params ctx).map _ = _
  simp only [judge, hforbidden, h]
  rfl

/-! ## Thresholds -/

theorem effectiveFailThreshold_some {n : ℤ} (h : e.value.toI64? = some n) :
    effectiveFailThreshold (some (.fromEntry e)) = .ok (asUsize n) := by
  simp [effectiveFailThreshold, RuleParams.effectiveCount, RuleParams.fromEntry, h, bind, Except.bind, pure,
    Except.pure]

theorem effectiveFailThreshold_count {n : ℕ} (hn : e.value = n) (h : n < 2 ^ 63) :
    effectiveFailThreshold (some (.fromEntry e)) = .ok n := by
  have hvalue : e.value.toI64? = some (n : ℤ) := by rw [hn, Decimal.toI64?_natCast h]
  rw [effectiveFailThreshold_some hvalue, asUsize, if_pos (Int.natCast_nonneg n), Int.toNat_natCast]

theorem hitsKind_eq_fail {threshold hits : ℕ} : hitsKind threshold hits = .fail ↔ threshold ≤ hits := by
  unfold hitsKind
  split_ifs with hfail <;> simp [hfail]

theorem hitsKind_noMilder {threshold hits hits' : ℕ} (h : hits ≤ hits') :
    NoMilder [.pass, .warn, .fail] (hitsKind threshold hits) (hitsKind threshold hits') :=
  ladder_noMilder (by decide) h.trans' h.trans'

theorem hits_mono {references : List Trade} (h : ctx.crossReferenceTrades.Subperm references) :
    hits params trade ctx ≤ hits params trade { ctx with crossReferenceTrades := references } :=
  (h.filter _).length_le

/-- What the threshold of an entry is for: a failure takes that many mirrored trades, fewer of them warn,
and a value that is no such number is refused. -/
structure FailsClosed (e : RuleEntry) (trade : Trade) (ctx : RuleContext) : Prop where
  fail_iff : e.value.IsPositiveCount →
    (((copyTradingRule (some (.fromEntry e))).evaluate ctx).map Verdict.decisionKind = .ok .fail ↔
      1 ≤ hits (some (.fromEntry e)) trade ctx ∧ e.value ≤ hits (some (.fromEntry e)) trade ctx)
  warn : e.value.IsPositiveCount → 1 ≤ hits (some (.fromEntry e)) trade ctx →
    hits (some (.fromEntry e)) trade ctx < e.value →
    ((copyTradingRule (some (.fromEntry e))).evaluate ctx).map Verdict.decisionKind = .ok .warn
  error : ¬e.value.IsPositiveCount → ∃ f, (copyTradingRule (some (.fromEntry e))).evaluate ctx = .error f

/-- More reference trades: the same error, or a verdict that is no milder. -/
def NeverMilder (rule : StdRule) (ctx ctx' : RuleContext) : Prop :=
  rule.NoMilder [.pass, .warn, .fail] ctx ctx' ∨
    ∃ f, rule.evaluate ctx = .error f ∧ rule.evaluate ctx' = .error f

section Closed

variable (hforbidden : ctx.account.plan.copyTradingAllowed = false)

include hforbidden

theorem neverMilder {references : List Trade} (hlatest : ctx.latestTrade = some trade)
    (h : ctx.crossReferenceTrades.Subperm references) :
    NeverMilder (copyTradingRule params) ctx { ctx with crossReferenceTrades := references } := by
  cases hthreshold : effectiveFailThreshold params with
  | error f => exact .inr ⟨f, evaluate_error hforbidden hthreshold, evaluate_error hforbidden hthreshold⟩
  | ok threshold =>
      have hkind (x : RuleContext) (hx : x.account.plan.copyTradingAllowed = false)
          (hlast : x.latestTrade = some trade) :
          ((copyTradingRule params).evaluate x).map Verdict.decisionKind =
            .ok (hitsKind threshold (hits params trade x)) := by
        rw [evaluate_kind hx hlast, hthreshold]
        rfl
      exact .inl ⟨_, _, hkind ctx hforbidden hlatest, hkind _ hforbidden hlatest,
        hitsKind_noMilder (hits_mono h)⟩

/-- Out of range every value is refused, a count too. -/
theorem failsClosed_of_none (h : e.value.toI64? = none) :
    FailsClosed e trade ctx ↔ (e.value.IsPositiveCount → hits (some (.fromEntry e)) trade ctx = 0) := by
  obtain ⟨f, hf⟩ := effectiveFailThreshold_error.mpr h
  have herror : (copyTradingRule (some (.fromEntry e))).evaluate ctx = .error f :=
    evaluate_error hforbidden hf
  constructor
  · intro hclosed hcount
    by_contra hne
    have hone : 1 ≤ hits (some (.fromEntry e)) trade ctx := Nat.one_le_iff_ne_zero.mpr hne
    rcases le_or_gt e.value (hits (some (.fromEntry e)) trade ctx) with hle | hlt
    · have hfail := (hclosed.fail_iff hcount).mpr ⟨hone, hle⟩
      rw [herror] at hfail
      cases hfail
    · have hwarn := hclosed.warn hcount hone hlt
      rw [herror] at hwarn
      cases hwarn
  · intro hzero
    refine ⟨fun hcount => ?_, fun hcount hone => ?_, fun _ => ⟨f, herror⟩⟩
    · rw [herror, hzero hcount]
      exact iff_of_false nofun fun hone => absurd hone.1 (by omega)
    · rw [hzero hcount] at hone
      exact absurd hone (by omega)

/-- In range the value counts as a threshold, whether it is one or not. -/
theorem failsClosed_of_some {n : ℤ} (hlatest : ctx.latestTrade = some trade)
    (h : e.value.toI64? = some n) :
    FailsClosed e trade ctx ↔ e.value.IsPositiveCount := by
  have hkind := @evaluate_kind (some (.fromEntry e)) ctx trade hforbidden hlatest
  constructor
  · intro hclosed
    by_contra hcount
    obtain ⟨f, hf⟩ := hclosed.error hcount
    rw [effectiveFailThreshold_some h, hf] at hkind
    cases hkind
  · rintro ⟨m, hpos, hm⟩
    have hrange : e.value < 2 ^ 63 := lt_of_toI64?_some h
    rw [hm] at hrange
    rw [effectiveFailThreshold_count hm (by exact_mod_cast hrange)] at hkind
    change _ = Except.ok (hitsKind m _) at hkind
    refine ⟨fun _ => ?_, fun _ hone hlt => ?_, fun hcount => absurd ⟨m, hpos, hm⟩ hcount⟩
    · rw [hkind, hm, Nat.cast_le, Except.ok.injEq, hitsKind_eq_fail]
      exact ⟨fun hle => ⟨hpos.trans_le hle, hle⟩, fun hle => hle.2⟩
    · rw [hm, Nat.cast_lt] at hlt
      rw [hkind, hitsKind, if_neg (not_le.mpr hlt), if_pos hone]

end Closed

end CopyTradingRule

open CopyTradingRule

/-- The threshold fails closed exactly on the counts and on the values out of the range of the conversion,
apart from a count out of range that meets a mirrored trade. More reference trades are judged no milder
whatever the value is. -/
theorem copy_threshold_closed_iff (hforbidden : ctx.account.plan.copyTradingAllowed = false)
    (hlatest : ctx.latestTrade = some trade) :
    (FailsClosed e trade ctx ↔
        (e.value.IsPositiveCount → e.value < 2 ^ 63 ∨ hits (some (.fromEntry e)) trade ctx = 0) ∧
          (¬e.value.IsPositiveCount → e.value ≤ -2 ^ 63 - 1 ∨ 2 ^ 63 ≤ e.value)) ∧
      ∀ references, ctx.crossReferenceTrades.Subperm references →
        NeverMilder (copyTradingRule (some (.fromEntry e))) ctx
          { ctx with crossReferenceTrades := references } := by
  refine ⟨?_, fun references h => neverMilder hforbidden hlatest h⟩
  rw [← Decimal.toI64?_eq_none]
  cases hvalue : e.value.toI64? with
  | none =>
      rw [failsClosed_of_none hforbidden hvalue]
      have hlarge (hcount : e.value.IsPositiveCount) : ¬e.value < 2 ^ 63 := by
        obtain ⟨m, -, hm⟩ := hcount
        have hnonneg : (0 : ℚ) ≤ e.value := by rw [hm]; exact Nat.cast_nonneg m
        rcases Decimal.toI64?_eq_none.mp hvalue with hlow | hhigh
        · linarith
        · exact not_lt.mpr hhigh
      simp only [implies_true, and_true]
      exact forall_congr' fun hcount => by simp only [hlarge hcount, false_or]
  | some n =>
      rw [failsClosed_of_some hforbidden hlatest hvalue]
      simp only [reduceCtorEq, imp_false, not_not]
      exact ⟨fun hcount => ⟨fun _ => .inl (lt_of_toI64?_some hvalue), hcount⟩, fun h => h.2⟩

def copyEntry (value : Decimal) : RuleEntry := RuleEntry.new "copies" "copy_trading" value

def copiedFill (accountId : AccountId) : Trade where
  id := ⟨1⟩
  orderId := ⟨1⟩
  accountId
  symbol := ⟨"EURUSD"⟩
  side := .buy
  tradeSide := .entry
  price := 1
  quantity := 1
  commission := 0
  swap := 0
  executedAt := 0
  exitInfo := none

/-- A fill that another account has mirrored so many times. -/
def copiedContext (times : ℕ) : RuleContext :=
  { RuleContext.new (Account.new ⟨1⟩ ⟨1⟩ (.default ⟨1⟩ 0)) 0 (fun _ => ⟨0⟩) 0 with
    latestTrade := some (copiedFill ⟨1⟩)
    crossReferenceTrades := List.replicate times (copiedFill ⟨2⟩) }

theorem copy_threshold_closed_three :
    FailsClosed (copyEntry 3) (copiedFill ⟨1⟩) (copiedContext 2) ∧
      NeverMilder (copyTradingRule (some (.fromEntry (copyEntry 3)))) (copiedContext 2)
        (copiedContext 3) := by
  have hthree : (copyEntry 3).value.IsPositiveCount := ⟨3, by decide, by decide +kernel⟩
  obtain ⟨hclosed, hmilder⟩ :=
    @copy_threshold_closed_iff (copiedContext 2) (copyEntry 3) (copiedFill ⟨1⟩) rfl rfl
  refine ⟨hclosed.mpr ⟨fun _ => .inl (by decide +kernel), fun hcount => absurd hthree hcount⟩, ?_⟩
  refine hmilder (List.replicate 3 (copiedFill ⟨2⟩)) (List.Sublist.subperm ?_)
  exact (List.replicate_sublist_replicate _).mpr (by decide)

/-- A threshold of zero fails a fill that nobody mirrored; a negative one lets five copies pass with a
warning. -/
theorem copy_threshold_open :
    (¬(copyEntry 0).value.IsPositiveCount ∧
        ((copyTradingRule (some (.fromEntry (copyEntry 0)))).evaluate (copiedContext 0)).map
            Verdict.decisionKind = .ok .fail ∧
        ¬FailsClosed (copyEntry 0) (copiedFill ⟨1⟩) (copiedContext 0)) ∧
      ¬(copyEntry (-1)).value.IsPositiveCount ∧
        ((copyTradingRule (some (.fromEntry (copyEntry (-1))))).evaluate (copiedContext 5)).map
            Verdict.decisionKind = .ok .warn ∧
        ¬FailsClosed (copyEntry (-1)) (copiedFill ⟨1⟩) (copiedContext 5) := by
  have hopen {e : RuleEntry} {ctx : RuleContext} {kind : DecisionKind} (hcount : e.value ≤ 0)
      (hkind : ((copyTradingRule (some (.fromEntry e))).evaluate ctx).map Verdict.decisionKind = .ok kind) :
      ¬e.value.IsPositiveCount ∧
        ((copyTradingRule (some (.fromEntry e))).evaluate ctx).map Verdict.decisionKind = .ok kind ∧
        ¬FailsClosed e (copiedFill ⟨1⟩) ctx := by
    have hnot : ¬e.value.IsPositiveCount := by
      rintro ⟨n, hpos, hn⟩
      rw [hn] at hcount
      exact absurd hcount (not_le.mpr (Nat.cast_pos.mpr hpos))
    refine ⟨hnot, hkind, fun hclosed => ?_⟩
    obtain ⟨f, hf⟩ := hclosed.error hnot
    rw [hf] at hkind
    cases hkind
  exact ⟨hopen (by decide +kernel) (by decide +kernel), hopen (by decide +kernel) (by decide +kernel)⟩

end Propfirm
