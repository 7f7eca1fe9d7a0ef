import Propfirm.Engine.Lemmas.Runs
import Propfirm.Engine.Lemmas.Targets
import Propfirm.Engine.Theorems.Promotion
import Propfirm.Rules.Lemmas.Limits
import Mathlib.Tactic.Linarith

/-!
# Loss floors

A floor lies a rate below the initial balance or below a peak. The peaks fall only when a promotion
resets them.
-/

namespace Propfirm

open Fallible

variable {p : Pipeline} {env : Env} {a b : Account} {ev : PipelineEvent} {r : PipelineResult}
  {calls : List Processed}

/-! ## Floors -/

namespace Account

/-- The floor of the maximum drawdown rule without a rule pack. -/
def maxDrawdownFloor (basis : LossReference) (a : Account) : Money :=
  MaxDrawdownRule.floor basis a.plan.maxTotalDrawdownPct a

/-- The floor of the trailing drawdown rule without a rule pack. -/
def trailingFloor (a : Account) : Money := a.peakEquity - a.plan.trailingDrawdownPct * a.peakEquity

def peaks (a : Account) : Money × Money := (a.peakBalance, a.peakEquity)

/-- What a promotion keeps of the terms of the account. -/
def terms (a : Account) : Money × ChallengePlan := (a.initialBalance, a.plan.withPhase .phase1)

end Account

theorem RuleContext.Reports.of_require {ctx : RuleContext} {equity : Money}
    (hstarted : ctx.requireStarted = .ok ()) (hequity : ctx.requireBrokerEquity = .ok equity) :
    ctx.Reports equity := by
  refine ⟨?_, hequity⟩
  unfold RuleContext.requireStarted at hstarted
  split at hstarted
  · assumption
  · cases hstarted

/-- The rule liquidates what falls below this floor by more than a cent. -/
theorem maxDrawdown_liquidates_iff {ctx : RuleContext} {equity : Money}
    (hrate : 0 < ctx.account.plan.maxTotalDrawdownPct) (hstarted : ctx.requireStarted = .ok ())
    (hequity : ctx.requireBrokerEquity = .ok equity) :
    (∃ finding, MaxDrawdownRule.judge none ctx = .ok (.liquidate finding)) ↔
      (if ctx.account.plan.drawdownOnBalance then ctx.account.balance else equity) <
        ctx.account.maxDrawdownFloor ctx.account.plan.maxLossReference - 1 / 100 := by
  have htolerance : toleranceMoney (MaxDrawdownRule.toleranceCents none) = 1 / 100 := by
    simp [toleranceMoney, MaxDrawdownRule.toleranceCents]
  have hpct : 0 < MaxDrawdownRule.effectivePct none ctx := hrate
  rw [← htolerance]
  exact StdRule.liquidates_iff_judge.symm.trans
    (MaxDrawdownRule.liquidates_iff (.of_require hstarted hequity) hpct)

theorem trailingDrawdown_liquidates_iff {ctx : RuleContext} {equity : Money}
    (henabled : ctx.account.plan.trailingDrawdownEnabled = true) (hstarted : ctx.requireStarted = .ok ())
    (hequity : ctx.requireBrokerEquity = .ok equity) :
    (∃ finding, TrailingDrawdownRule.judge none ctx = .ok (.liquidate finding)) ↔
      equity < ctx.account.trailingFloor := by
  have htrail : TrailingDrawdownRule.effectiveTrailMoney none ctx = some _ := if_pos henabled
  exact StdRule.liquidates_iff_judge.symm.trans
    (TrailingDrawdownRule.liquidates_iff (.of_require hstarted hequity) htrail)

theorem below_mono {rate x y : Money} (hrate : rate ≤ 1) (h : x ≤ y) : x - rate * x ≤ y - rate * y := by
  have := mul_nonneg (sub_nonneg.mpr hrate) (sub_nonneg.mpr h)
  linarith

theorem maxDrawdownFloor_mono {basis : LossReference} (hbasis : basis ≠ .eodTrailing)
    (hterms : b.terms = a.terms) (hrate : a.plan.maxTotalDrawdownPct ≤ 1) (hpeaks : a.peaks ≤ b.peaks) :
    a.maxDrawdownFloor basis ≤ b.maxDrawdownFloor basis := by
  have hinitial : b.initialBalance = a.initialBalance := congrArg Prod.fst hterms
  have hpct : b.plan.maxTotalDrawdownPct = a.plan.maxTotalDrawdownPct :=
    congrArg (fun x : Money × ChallengePlan => x.2.maxTotalDrawdownPct) hterms
  have hon : b.plan.drawdownOnBalance = a.plan.drawdownOnBalance :=
    congrArg (fun x : Money × ChallengePlan => x.2.drawdownOnBalance) hterms
  have hpeak : MaxDrawdownRule.peak a ≤ MaxDrawdownRule.peak b := by
    simp only [MaxDrawdownRule.peak, hon]
    split
    · exact hpeaks.1
    · exact hpeaks.2
  unfold Account.maxDrawdownFloor
  rw [hpct]
  cases basis with
  | static => exact (congrArg (fun x => x - _ * x) hinitial).ge
  | trailing => exact below_mono hrate hpeaks.1
  | eodTrailing => exact absurd rfl hbasis
  | intradayTrail => exact below_mono hrate hpeak

theorem trailingFloor_mono (hterms : b.terms = a.terms) (hrate : a.plan.trailingDrawdownPct ≤ 1)
    (hpeaks : a.peaks ≤ b.peaks) : a.trailingFloor ≤ b.trailingFloor := by
  have hpct : b.plan.trailingDrawdownPct = a.plan.trailingDrawdownPct :=
    congrArg (fun x => x.2.trailingDrawdownPct) hterms
  unfold Account.trailingFloor
  rw [hpct]
  exact below_mono hrate hpeaks.2

/-! ## One call -/

theorem Transition.peaks_le (h : Transition env a ev b) : a.peaks ≤ b.peaks := by
  have hraise (peak x : Money) : peak ≤ if peak < x then x else peak := by
    split
    · exact le_of_lt ‹_›
    · exact le_rfl
  by_cases hquiet : ev.isQuiet = true
  · exact (h.quiet_reading hquiet Account.peaks fun _ => rfl).ge
  cases h with
  | tradeFilled =>
      rw [eq_of_outsideDays markActiveTradingDay_outsideDays Account.peaks fun _ => rfl]
      exact ⟨hraise _ _, le_rfl⟩
  | tick h => exact ⟨hraise _ _, hraise _ _⟩
  | tickEstimated => exact le_rfl
  | dayRollover h =>
      exact (eq_of_outsideDays (rolloverDay_outsideDays h) Account.peaks fun _ => rfl).ge
  | payoutApprove h =>
      obtain ⟨-, rfl⟩ := recordPayout_eq h
      exact le_rfl
  | _ => exact absurd rfl hquiet

theorem Evaluated.peaks_le (s : Evaluated env a ev) : a.peaks ≤ s.applied.account.peaks := by
  obtain ⟨trades, htr⟩ := applyEvent_transition s.apply_eq
  have hrouted : s.routed.peaks = a.peaks :=
    s.routed_reading Account.peaks fun _ => rfl
  exact hrouted.ge.trans htr.peaks_le

theorem Evaluated.applied_terms (s : Evaluated env a ev) : s.applied.account.terms = a.terms :=
  congrArg (fun x : Ladder => (x.initialBalance, x.plan.withPhase .phase1)) s.applied_ladder

theorem Passage.account_terms (s : Passage p env a ev r) : r.account.terms = s.applied.account.terms :=
  s.applied_reading Account.terms (fun _ _ _ _ _ _ => rfl) (fun _ _ => rfl) fun _ _ _ _ => rfl

/-- Without a promotion the rules see the peaks as the call leaves them. -/
theorem Passage.account_peaks (s : Passage p env a ev r) (hphase : r.account.plan.phase = a.plan.phase) :
    r.account.peaks = s.applied.account.peaks :=
  s.unpromoted_reading (s.not_promotable_of_phase hphase) Account.peaks (fun _ _ _ _ _ _ => rfl)
    fun _ _ _ _ => rfl

namespace Processed

def KeepsPhase (c : Processed) : Prop := c.after.plan.phase = c.before.plan.phase

theorem seen_terms (c : Processed) : c.seen.terms = c.before.terms := by
  obtain ⟨s⟩ := c.passage
  rw [c.seen_eq s.toEvaluated, s.applied_terms]

theorem after_terms (c : Processed) : c.after.terms = c.before.terms := by
  obtain ⟨s⟩ := c.passage
  exact s.account_terms.trans s.applied_terms

theorem peaks_le_seen (c : Processed) : c.before.peaks ≤ c.seen.peaks := by
  obtain ⟨s⟩ := c.passage
  rw [c.seen_eq s.toEvaluated]
  exact s.peaks_le

theorem seen_peaks (c : Processed) (h : c.KeepsPhase) : c.seen.peaks = c.after.peaks := by
  obtain ⟨s⟩ := c.passage
  rw [c.seen_eq s.toEvaluated]
  exact (s.account_peaks h).symm

end Processed

/-! ## Runs -/

/-- From the account at the start, over those the rules judge in turn, to the one at the end. -/
structure NeverFalls {β : Type} [Preorder β] (f : Account → β) (a : Account) (calls : List Processed)
    (b : Account) : Prop where
  start_le : ∀ c ∈ calls, f a ≤ f c.seen
  seen_le : calls.Pairwise fun later earlier => f earlier.seen ≤ f later.seen
  le_end : ∀ c ∈ calls, f c.seen ≤ f b

theorem Run.terms (h : Run a calls b) : b.terms = a.terms ∧ ∀ c ∈ calls, c.before.terms = a.terms := by
  have hend {calls : List Processed} {b : Account} (h : Run a calls b) : b.terms = a.terms :=
    h.invariant (P := fun _ => True) (fun x => x.terms = a.terms) (fun c _ hc => c.after_terms.trans hc)
      (fun _ _ => trivial) rfl
  refine ⟨hend h, fun c hc => ?_⟩
  obtain ⟨earlier, hpath, -⟩ := h.exists_of_mem hc
  exact hend hpath

/-- A reading that rises with the peaks never falls while the phase lasts. -/
theorem Run.neverFalls {f : Account → Money} (h : Run a calls b) (hphase : ∀ c ∈ calls, c.KeepsPhase)
    (hmono : ∀ x y : Account, x.terms = a.terms → y.terms = x.terms → x.peaks ≤ y.peaks → f x ≤ f y) :
    NeverFalls f a calls b := by
  have hcalls : ∀ c ∈ calls, c.KeepsPhase ∧ c.before.terms = a.terms :=
    fun c hc => ⟨hphase c hc, (Run.terms h).2 c hc⟩
  have hseen (c : Processed) (hc : c.KeepsPhase ∧ c.before.terms = a.terms) : f c.before ≤ f c.seen :=
    hmono _ _ hc.2 c.seen_terms c.peaks_le_seen
  have hafter (c : Processed) (hc : c.KeepsPhase ∧ c.before.terms = a.terms) : f c.seen ≤ f c.after :=
    hmono _ _ (c.seen_terms.trans hc.2) (c.after_terms.trans c.seen_terms.symm) (c.seen_peaks hc.1).le
  obtain ⟨hend, hpairs⟩ := h.pairwise_le hseen hafter hcalls
  refine ⟨fun c hc => ?_, hpairs, hend⟩
  obtain ⟨earlier, hpath, hmem⟩ := h.exists_of_mem hc
  exact (hpath.le f (fun c hc => (hseen c hc).trans (hafter c hc)) fun c hc => hcalls c (hmem c hc)).trans
    (hseen c (hcalls c hc))

theorem maxDrawdownFloor_static (h : b.terms = a.terms) :
    b.maxDrawdownFloor .static = a.maxDrawdownFloor .static :=
  congrArg (fun x : Money × ChallengePlan => x.1 - x.2.maxTotalDrawdownPct * x.1) h

/-- While a phase lasts, no floor falls from one evaluation to the next; the static floor stays through
promotions too. -/
theorem loss_floors_never_fall (h : Run a calls b)
    (hmax : a.plan.maxTotalDrawdownPct ∈ Set.Icc 0 1)
    (htrailing : a.plan.trailingDrawdownPct ∈ Set.Icc 0 1) :
    ((∀ c ∈ calls, c.KeepsPhase) →
        (∀ basis ≠ .eodTrailing, NeverFalls (Account.maxDrawdownFloor basis) a calls b) ∧
          NeverFalls Account.trailingFloor a calls b) ∧
      (∀ c ∈ calls, c.seen.maxDrawdownFloor .static = a.maxDrawdownFloor .static) ∧
      b.maxDrawdownFloor .static = a.maxDrawdownFloor .static := by
  obtain ⟨hend, hcalls⟩ := Run.terms h
  refine ⟨fun hphase => ⟨fun basis hbasis => ?_, ?_⟩, fun c hc => ?_, maxDrawdownFloor_static hend⟩
  · refine Run.neverFalls h hphase fun x y hx hy hpeaks => maxDrawdownFloor_mono hbasis hy ?_ hpeaks
    have hrate : x.plan.maxTotalDrawdownPct = a.plan.maxTotalDrawdownPct :=
      congrArg (fun x : Money × ChallengePlan => x.2.maxTotalDrawdownPct) hx
    exact hrate.trans_le hmax.2
  · refine Run.neverFalls h hphase fun x y hx hy hpeaks => trailingFloor_mono hy ?_ hpeaks
    have hrate : x.plan.trailingDrawdownPct = a.plan.trailingDrawdownPct :=
      congrArg (fun x : Money × ChallengePlan => x.2.trailingDrawdownPct) hx
    exact hrate.trans_le htrailing.2
  · exact maxDrawdownFloor_static (c.seen_terms.trans (hcalls c hc))

theorem loss_floors_never_fall_ticks :
    ∃ (a b : Account) (calls : List Processed),
      Run a calls b ∧
        calls.map Processed.ev = [.tick (tickAt 2) 10000 10000, .tick (tickAt 1) 10100 10100] ∧
        NeverFalls (Account.maxDrawdownFloor .intradayTrail) a calls b ∧
        a.maxDrawdownFloor .intradayTrail = 9000 ∧ b.maxDrawdownFloor .intradayTrail = 9090 := by
  have hrun :
      (do
        let a ← (Account.new ⟨1⟩ ⟨1⟩ promptPlan).start 0
        let r ← (Pipeline.ofPlan promptPlan).process (.at (Duration.seconds 1)) a
          (.tick (tickAt 1) 10100 10100)
        let r' ← (Pipeline.ofPlan promptPlan).process (.at (Duration.seconds 2)) r.account
          (.tick (tickAt 2) 10000 10000)
        pure ((a.plan.maxTotalDrawdownPct, a.plan.trailingDrawdownPct), a.plan.phase,
          r.account.plan.phase, r'.account.plan.phase, a.maxDrawdownFloor .intradayTrail,
          r'.account.maxDrawdownFloor .intradayTrail)) =
        .ok ((1 / 10, 0), .phase1, .phase1, .phase1, 9000, 9090) := by
    decide +kernel
  obtain ⟨a, -, hrun⟩ := bind_eq_ok.mp hrun
  obtain ⟨r, h, hrun⟩ := bind_eq_ok.mp hrun
  obtain ⟨r', h', hrun⟩ := bind_eq_ok.mp hrun
  have hfacts := pure_eq_ok.mp hrun
  simp only [Prod.mk.injEq] at hfacts
  obtain ⟨⟨hmax, htrailing⟩, hphase, hphase', hphase'', hfloor, hfloor'⟩ := hfacts
  have hcalls : Run a [.of h', .of h] r'.account := .cons (Processed.of h') (.cons (Processed.of h) .nil)
  have hfalls := (loss_floors_never_fall hcalls (by rw [hmax]; norm_num) (by rw [htrailing]; simp)).1
  refine ⟨a, r'.account, _, hcalls, rfl, (hfalls ?_).1 .intradayTrail nofun, hfloor, hfloor'⟩
  simp only [List.forall_mem_cons, List.not_mem_nil, false_imp_iff, implies_true, and_true]
  exact ⟨hphase''.trans hphase'.symm, hphase'.trans hphase.symm⟩

end Propfirm
