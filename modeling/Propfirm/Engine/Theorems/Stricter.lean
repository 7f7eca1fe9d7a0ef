import Propfirm.Engine.Lemmas.Runs
import Propfirm.Engine.Theorems.Arbitration
import Propfirm.Engine.Theorems.Promotion

/-!
# More rules

Two pipelines process the same events, and the rules of the one are among those of the other.
-/

namespace Propfirm

open Fallible

variable {p q : Pipeline} {env : Env} {a b b' : Account} {ev : PipelineEvent} {r : PipelineResult}
  {xs ys : List RuleReport} {calls calls' : List Processed}

/-! ## Decisions -/

theorem Decision.severity_mono (h : xs ⊆ ys) :
    (fromReports xs).kind.severity ≤ (fromReports ys).kind.severity := by
  rcases kind_mem_classes xs with hpass | ⟨report, hreport, hkind⟩
  · rw [hpass]
    exact Nat.zero_le _
  · rw [← hkind]
    exact severity_le_kind (h hreport)

theorem Decision.isTerminating_iff_severity (d : Decision) :
    d.isTerminating = true ↔ 6 ≤ d.kind.severity := by
  unfold isTerminating
  cases d.kind <;> decide

theorem RuleRegistry.evaluate_subset {registry registry' : RuleRegistry} (h : registry.rules ⊆ registry'.rules)
    (ctx : RuleContext) (now : Timestamp) : registry.evaluate ctx now ⊆ registry'.evaluate ctx now := by
  intro report hreport
  obtain ⟨rule, hrule, hruns⟩ := RuleRegistry.mem_evaluate.mp hreport
  exact RuleRegistry.mem_evaluate.mpr ⟨rule, h hrule, hruns⟩

/-! ## Calls -/

/-- A decision that neither terminates nor marks a target leaves the account to the promotion. -/
theorem Passage.account_of_mild (s : Passage p env a ev r) (htarget : (s.decision p).kind ≠ .targetHit)
    (hmild : (s.decision p).isTerminating = false) :
    ∃ promoted evs, applyPromotion s.filled env.contextNow = .ok (promoted, evs) ∧
      r.account = stampTick promoted ev := by
  have hmarked : s.marked p = s.filled := by rw [Evaluated.marked, applyTargetHit_fst, if_neg htarget]
  have hstatus : (s.decision p).accountStatusTarget = none := by
    unfold Decision.isTerminating at hmild
    unfold Decision.accountStatusTarget
    cases hkind : (s.decision p).kind <;> simp_all
  refine ⟨s.promoted, s.promotionEvents, hmarked ▸ s.promotion_eq, ?_⟩
  rw [s.account_eq, Evaluated.terminated, applyTermination, hstatus]

namespace Processed

def decision (c : Processed) : Decision := c.result.result.decision

/-- The second call processes the same event with all rules of the first, and maybe more. -/
structure Stricter (c c' : Processed) : Prop where
  env_eq : c'.env = c.env
  ev_eq : c'.ev = c.ev
  rules_subset : c.pipeline.registry.rules ⊆ c'.pipeline.registry.rules

theorem decision_eq (c : Processed) (s : Evaluated c.env c.before c.ev) :
    c.decision = s.decision c.pipeline := by
  obtain ⟨s'⟩ := c.passage
  rw [decision, s'.result_eq, s.subsingleton s'.toEvaluated]

theorem Stricter.severity_le {c c' : Processed} (h : c.Stricter c') (hbefore : c'.before = c.before) :
    c.decision.kind.severity ≤ c'.decision.kind.severity := by
  obtain ⟨p', env', a', ev', r', hprocess'⟩ := c'
  obtain ⟨rfl, rfl, hrules⟩ := h
  obtain rfl : a' = c.before := hbefore
  obtain ⟨s⟩ := c.passage
  rw [c.decision_eq s.toEvaluated, decision_eq ⟨p', _, _, _, r', hprocess'⟩ s.toEvaluated]
  exact Decision.severity_mono (RuleRegistry.evaluate_subset hrules _ _)

theorem Stricter.after_eq {c c' : Processed} (h : c.Stricter c') (hbefore : c'.before = c.before)
    (htarget : c.decision.kind ≠ .targetHit) (htarget' : c'.decision.kind ≠ .targetHit)
    (hmild' : c'.decision.isTerminating = false) :
    c.decision.isTerminating = false ∧ c'.after = c.after := by
  have hmild : c.decision.isTerminating = false := by
    rw [Bool.eq_false_iff, ne_eq, Decision.isTerminating_iff_severity] at hmild' ⊢
    exact fun hle => hmild' (hle.trans (h.severity_le hbefore))
  refine ⟨hmild, ?_⟩
  obtain ⟨p', env', a', ev', r', hprocess'⟩ := c'
  obtain ⟨rfl, rfl, hrules⟩ := h
  obtain rfl : a' = c.before := hbefore
  obtain ⟨s⟩ := c.passage
  obtain ⟨s'⟩ := Pipeline.process_passage hprocess'
  rw [c.decision_eq s.toEvaluated] at htarget hmild
  rw [decision_eq ⟨p', _, _, _, r', hprocess'⟩ s'.toEvaluated] at htarget' hmild'
  obtain ⟨promoted, evs, hpromoted, hafter⟩ := s.account_of_mild htarget hmild
  obtain ⟨promoted', evs', hpromoted', hafter'⟩ := s'.account_of_mild htarget' hmild'
  rw [s'.toEvaluated.subsingleton s.toEvaluated, hpromoted] at hpromoted'
  obtain ⟨rfl, -⟩ := Prod.mk.inj (Except.ok.inj hpromoted')
  exact hafter'.trans hafter.symm

end Processed

/-! ## Runs -/

/-- More rules terminate no later. As long as the stricter of two pipelines does not terminate the account, and
none of them sees a target hit, the laxer one does not terminate it either, and both have the same account. -/
theorem stricter_rules_terminate_no_later (h : Run a calls b) (h' : Run a calls' b')
    (hpairs : List.Forall₂ Processed.Stricter calls calls')
    (htarget : ∀ c ∈ calls, c.decision.kind ≠ .targetHit)
    (htarget' : ∀ c ∈ calls', c.decision.kind ≠ .targetHit)
    (hmild' : ∀ c ∈ calls', c.decision.isTerminating = false) :
    (∀ c ∈ calls, c.decision.isTerminating = false) ∧ b' = b := by
  induction hpairs generalizing b b' with
  | nil =>
      cases h
      cases h'
      exact ⟨fun c hc => (by cases hc), rfl⟩
  | cons hpair _ ih =>
      rw [List.forall_mem_cons] at htarget htarget' hmild'
      cases h with
      | cons c h =>
          cases h' with
          | cons c' h' =>
              obtain ⟨hearlier, hbefore⟩ := ih h h' htarget.2 htarget'.2 hmild'.2
              obtain ⟨hmild, hafter⟩ := hpair.after_eq hbefore htarget.1 htarget'.1 hmild'.1
              exact ⟨List.forall_mem_cons.mpr ⟨hmild, hearlier⟩, hafter⟩

def Pipeline.lenient : Pipeline := ⟨.registerAll .empty [(dailyDrawdownRule none).toRule], fun _ => .ok ()⟩

/-- A pipeline with the daily limit only and the one of the plan, on a tick that loses 100. -/
theorem stricter_rules_terminate_no_later_tick :
    ∃ c c' : Processed, Run c.before [c] c.after ∧ Run c.before [c'] c'.after ∧ c.Stricter c' ∧
      c.pipeline.registry.rules = [(dailyDrawdownRule none).toRule] ∧
      (maxDrawdownRule none).toRule ∈ c'.pipeline.registry.rules ∧ c'.after.balance = 9900 ∧
      c'.after = c.after := by
  have hrun :
      (do
        let a ← (Account.new ⟨1⟩ ⟨1⟩ (.default ⟨1⟩ 0)).start 0
        let r ← Pipeline.lenient.process (.at 1) a (.tick (tickAt 0) 9900 9900)
        let r' ← (Pipeline.ofPlan (.default ⟨1⟩ 0)).process (.at 1) a (.tick (tickAt 0) 9900 9900)
        pure (r.result.decision.kind, r'.result.decision.kind, r'.account.balance)) =
        .ok (.pass, .pass, 9900) := by
    decide +kernel
  obtain ⟨a, -, hrun⟩ := bind_eq_ok.mp hrun
  obtain ⟨r, h, hrun⟩ := bind_eq_ok.mp hrun
  obtain ⟨r', h', hrun⟩ := bind_eq_ok.mp hrun
  obtain ⟨hkind, hfacts⟩ := Prod.mk.inj (pure_eq_ok.mp hrun)
  obtain ⟨hkind', hbalance⟩ := Prod.mk.inj hfacts
  have hdaily : (dailyDrawdownRule none).toRule ∈ (Pipeline.ofPlan (.default ⟨1⟩ 0)).registry.rules :=
    mem_withDefaultRulesForPlan (by simp [defaultRules]) rfl
  have hmax : (maxDrawdownRule none).toRule ∈ (Pipeline.ofPlan (.default ⟨1⟩ 0)).registry.rules :=
    mem_withDefaultRulesForPlan (by simp [defaultRules]) rfl
  have hstricter : (Processed.of h).Stricter (Processed.of h') :=
    ⟨rfl, rfl, List.cons_subset.mpr ⟨hdaily, List.nil_subset _⟩⟩
  have hmild' : (Processed.of h').decision.isTerminating = false := by
    rw [Decision.isTerminating, show (Processed.of h').decision.kind = .pass from hkind']
  have hrun : Run a [Processed.of h] r.account := .cons (Processed.of h) .nil
  have hrun' : Run a [Processed.of h'] r'.account := .cons (Processed.of h') .nil
  refine ⟨Processed.of h, Processed.of h', hrun, hrun', hstricter, rfl, hmax, hbalance, ?_⟩
  refine (stricter_rules_terminate_no_later hrun hrun' (.cons hstricter .nil) ?_ ?_ ?_).2
  · rw [List.forall_mem_singleton, show (Processed.of h).decision.kind = .pass from hkind]
    exact fun hne => by cases hne
  · rw [List.forall_mem_singleton, show (Processed.of h').decision.kind = .pass from hkind']
    exact fun hne => by cases hne
  · rw [List.forall_mem_singleton]
    exact hmild'

end Propfirm
