import Propfirm.Engine.Lemmas.Status
import Propfirm.Engine.Lemmas.Targets
import Propfirm.Rules.Lemmas.Registry

/-!
# Promotions
-/

namespace Propfirm

open Fallible

variable {p : Pipeline} {env : Env} {a : Account} {ev : PipelineEvent} {r : PipelineResult}

/-! ## Repeated promotions -/

/-- The balance at the last promotion, and whether the balance has been above it since. -/
structure PromotionMark where
  balance : Money
  risen : Bool

/-- The account was promoted, and its balance has not been above the one at promotion. -/
def Unrisen (mark : Option PromotionMark) : Prop := ∃ balance, mark = some ⟨balance, false⟩

def Evaluated.track (s : Evaluated env a ev) (mark : Option PromotionMark) : Option PromotionMark :=
  mark.map fun m => { m with risen := m.risen || decide (m.balance < s.applied.account.balance) }

def Passage.log (s : Passage p env a ev r) (mark : Option PromotionMark) : Option PromotionMark :=
  if (s.marked p).promotable then some ⟨s.applied.account.balance, false⟩ else s.track mark

/-- The profit that earned a promotion is not there to earn another: an account that has not risen
since its promotion is below the target, and so is one in the funded phase. -/
def Evaluated.BelowTarget (s : Evaluated env a ev) (mark : Option PromotionMark) : Prop :=
  Unrisen (s.track mark) ∨ a.plan.phase = .funded → s.applied.account.reachedProfitTarget = false

/-- One call of a run that stays below the target after its promotions, over the rules of a plan. -/
inductive PromotionStep : Account × Option PromotionMark → Account × Option PromotionMark → Prop
  | step {p env a ev r mark plan} (h : p.process env a ev = .ok r) (s : Passage p env a ev r) :
      p.registry = .withDefaultRulesForPlan plan → s.BelowTarget mark →
        PromotionStep (a, mark) (r.account, s.log mark)

/-- No target is marked where the next promotion would be a repeated one. -/
def TargetOpen : Account × Option PromotionMark → Prop
  | (a, mark) => Unrisen mark ∨ a.plan.phase = .funded → a.targetReachedAt = none

theorem Evaluated.unrisen_of_track {mark} (s : Evaluated env a ev) (h : Unrisen (s.track mark)) :
    Unrisen mark := by
  obtain ⟨balance, h⟩ := h
  obtain ⟨m, rfl, hm⟩ := Option.map_eq_some_iff.mp h
  injection hm with hb hrisen
  simp only [Bool.or_eq_false_iff] at hrisen
  exact ⟨m.balance, by rw [← hrisen.1]⟩

/-- Below the target, a promotion that would be a repeated one does not happen. -/
theorem Evaluated.not_promotable {mark plan} (s : Evaluated env a ev)
    (hreg : p.registry = .withDefaultRulesForPlan plan) (hbelow : s.BelowTarget mark)
    (hinv : TargetOpen (a, mark)) (h : Unrisen (s.track mark) ∨ a.plan.phase = .funded) :
    (s.marked p).targetReachedAt = none ∧ (s.marked p).promotable = false := by
  have hkind : (s.decision p).kind ≠ .targetHit := by
    intro hk
    have hreported := Decision.reported_of_kind (by decide) hk
    rw [reports, hreg] at hreported
    have hreached := reachedProfitTarget_of_reported hreported
    rw [ctx, buildContext_account, hbelow h] at hreached
    cases hreached
  have hnone : (s.marked p).targetReachedAt = none := by
    rw [s.marked_targetReachedAt hkind]
    exact hinv (h.imp_left s.unrisen_of_track)
  exact ⟨hnone, by simp [Account.promotable, hnone]⟩

theorem PromotionStep.targetOpen {x y} (h : TargetOpen x) (hstep : PromotionStep x y) :
    TargetOpen y := by
  cases hstep with
  | step hp s hreg hbelow =>
      intro hy
      rcases s.account_phase with ⟨hnot, hplan⟩ | ⟨-, -, heq, -⟩
      · simp only [Passage.log, hnot, hplan, Bool.false_eq_true, if_false] at hy
        have hmarked := (s.not_promotable hreg hbelow h hy).1
        rw [s.account_targetReachedAt, s.promoted_eq_marked hnot, hmarked]
      · rw [s.account_targetReachedAt, heq]; rfl

def Fault.upgradeFailed : Fault → Bool
  | .error (.invalidState (.lit text :: _)) => text == "phase upgrade failed: "
  | _ => false

/-- In a run that stays below the target after its promotions, a promoted account whose balance has
not risen is not promoted again, and no applied event ends in a refused upgrade. -/
theorem promotions_do_not_cascade {plan : ChallengePlan} {id : AccountId} {tenantId : TenantId}
    {mark : Option PromotionMark}
    (hrun : Relation.ReflTransGen PromotionStep (Account.new id tenantId plan, none) (a, mark))
    {p : Pipeline} {env : Env} {ev : PipelineEvent} {rules : ChallengePlan} (s : Evaluated env a ev)
    (hreg : p.registry = .withDefaultRulesForPlan rules) (hbelow : s.BelowTarget mark) :
    (Unrisen (s.track mark) → ∀ r, p.process env a ev = .ok r → r.account.plan.phase = a.plan.phase) ∧
      ((∀ v f, p.notifyViolation v = .error f → f.upgradeFailed = false) →
        ∀ f, p.process env a ev = .error f → f.upgradeFailed = false) := by
  have hinit : TargetOpen (Account.new id tenantId plan, none) := fun _ => rfl
  have hinv := invariant_of_run TargetOpen (fun _ _ h hs => hs.targetOpen h) hrun hinit
  refine ⟨fun hunrisen r hr => ?_, fun hnotify f hf => ?_⟩
  · obtain ⟨pass⟩ := Pipeline.process_passage hr
    obtain rfl := s.subsingleton pass.toEvaluated
    have hnot := (pass.not_promotable hreg hbelow hinv (.inl hunrisen)).2
    rw [pass.account_plan_of_not_promotable hnot]
  · rcases s.process_error hf with h | ⟨v, hv⟩
    · obtain ⟨htrue, hphase⟩ := applyPromotion_error h
      rw [s.marked_plan] at hphase
      rw [(s.not_promotable hreg hbelow hinv (.inr hphase)).2] at htrue
      cases htrue
    · exact hnotify v f hv

def promptPlan : ChallengePlan := { ChallengePlan.default ⟨1⟩ 0 with minTradingDays := 0 }

def tickAt (second : ℤ) : Tick := ⟨⟨"EURUSD"⟩, ⟨1, 1, Duration.seconds second⟩⟩

def brokerTick (second : ℤ) (balance : Money) : Env × PipelineEvent :=
  (.at (Duration.seconds second), .tick (tickAt second) balance balance)

theorem Evaluated.tick_balance {tick equity balance} (s : Evaluated env a (.tick tick equity balance)) :
    s.applied.account.balance = balance := by
  obtain ⟨trades, htr⟩ := applyEvent_transition s.apply_eq
  generalize s.applied.account = b at htr
  cases htr
  rfl

theorem promotions_do_not_cascade_prompt :
    ∃ (a : Account) (mark : Option PromotionMark)
      (s : Evaluated (.at (Duration.seconds 2)) a (.tick (tickAt 2) 10000 10000)) (r : PipelineResult),
      Relation.ReflTransGen PromotionStep (Account.new ⟨1⟩ ⟨1⟩ promptPlan, none) (a, mark) ∧
        Unrisen (s.track mark) ∧
        (Pipeline.ofPlan promptPlan).process (.at (Duration.seconds 2)) a
          (.tick (tickAt 2) 10000 10000) = .ok r ∧
        a.plan.phase = .phase2 ∧ r.account.plan.phase = a.plan.phase := by
  have hrun :
      (do
        let r₁ ← (Pipeline.ofPlan promptPlan).process (.at 0) (Account.new ⟨1⟩ ⟨1⟩ promptPlan)
          (.accountStarted 0)
        let r₂ ← (Pipeline.ofPlan promptPlan).process (.at (Duration.seconds 1)) r₁.account
          (.tick (tickAt 1) 20000 20000)
        let r₃ ← (Pipeline.ofPlan promptPlan).process (.at (Duration.seconds 2)) r₂.account
          (.tick (tickAt 2) 10000 10000)
        let x ← route (.at (Duration.seconds 2)) r₂.account (.tick (tickAt 2) 10000 10000)
        let applied ← applyEvent (.at (Duration.seconds 2)) x.1 (.tick (tickAt 2) 10000 10000)
        pure (r₁.account.plan.phase, r₂.account.plan.phase, applied.account.reachedProfitTarget,
          r₃.account.version)) =
        .ok (.phase1, .phase2, false, 0) := by
    decide +kernel
  obtain ⟨r₁, h₁, hrun⟩ := bind_eq_ok.mp hrun
  obtain ⟨r₂, h₂, hrun⟩ := bind_eq_ok.mp hrun
  obtain ⟨r₃, h₃, hrun⟩ := bind_eq_ok.mp hrun
  obtain ⟨⟨routed, evs⟩, hroute, hrun⟩ := bind_eq_ok.mp hrun
  obtain ⟨applied, happly, hrun⟩ := bind_eq_ok.mp hrun
  have hfacts := pure_eq_ok.mp hrun
  simp only [Prod.mk.injEq] at hfacts
  obtain ⟨hphase₁, hphase₂, hbelow, -⟩ := hfacts
  obtain ⟨pass₁⟩ := Pipeline.process_passage h₁
  obtain ⟨pass₂⟩ := Pipeline.process_passage h₂
  have hnone : pass₁.log none = none := by
    rcases pass₁.account_phase with ⟨hnot, -⟩ | ⟨-, -, -, hplan⟩
    · simp [Passage.log, hnot, Evaluated.track]
    · rw [hplan] at hphase₁; cases hphase₁
  have hmark : pass₂.log none = some ⟨20000, false⟩ := by
    rcases pass₂.account_phase with ⟨-, hplan⟩ | ⟨hp, -⟩
    · rw [hplan, hphase₁] at hphase₂; cases hphase₂
    · simp [Passage.log, hp, pass₂.tick_balance]
  have hunmarked {a' : Account} {ev' : PipelineEvent} {env' : Env} (s : Evaluated env' a' ev')
      (hphase : a'.plan.phase = .phase1) : s.BelowTarget none := by
    rintro (⟨_, h⟩ | h)
    · cases h
    · rw [hphase] at h; cases h
  have hsteps : Relation.ReflTransGen PromotionStep (Account.new ⟨1⟩ ⟨1⟩ promptPlan, none)
      (r₂.account, some ⟨20000, false⟩) := by
    have step₁ := PromotionStep.step h₁ pass₁ rfl (hunmarked pass₁.toEvaluated rfl)
    have step₂ := PromotionStep.step h₂ pass₂ rfl (hunmarked pass₂.toEvaluated hphase₁)
    rw [hnone] at step₁
    rw [hmark] at step₂
    exact .tail (.single step₁) step₂
  let s : Evaluated (.at (Duration.seconds 2)) r₂.account (.tick (tickAt 2) 10000 10000) :=
    ⟨routed, evs, applied, hroute, happly⟩
  have hunrisen : Unrisen (s.track (some ⟨20000, false⟩)) := by
    have hlow : ¬(20000 : Money) < 10000 := by decide +kernel
    exact ⟨20000, by simp [Evaluated.track, s.tick_balance, hlow]⟩
  exact ⟨r₂.account, _, s, r₃, hsteps, hunrisen, h₃, hphase₂,
    (promotions_do_not_cascade hsteps s rfl (fun _ => hbelow)).1 hunrisen r₃ h₃⟩

/-- One profit earns two promotions, and a tick that changes nothing then fails. -/
theorem promotions_cascade :
    promptPlan.validate = .ok () ∧ 0 < promptPlan.profitTargetPct ∧
    (do
      let started ← (Account.new ⟨1⟩ ⟨1⟩ promptPlan).start 0
      let first ← (Pipeline.ofPlan promptPlan).run started [brokerTick 1 20000]
      let second ← (Pipeline.ofPlan promptPlan).run first [brokerTick 2 20000]
      pure (first.plan.phase, first.balance, second.plan.phase, second.balance)) =
      .ok (.phase2, 20000, .funded, 20000) ∧
    ((do
      let started ← (Account.new ⟨1⟩ ⟨1⟩ promptPlan).start 0
      (Pipeline.ofPlan promptPlan).run started
        [brokerTick 1 20000, brokerTick 2 20000, brokerTick 3 20000]).map fun _ => ()) =
      raise (.invalidState
        [.lit "phase upgrade failed: ", .lit "invalid state: ", .lit "invalid phase transition: ",
          .lit "Funded", .lit " -> ", .lit "Phase1"]) := by
  decide +kernel

/-! ## Minimum days -/

theorem judgeMinDays_pass_iff {required : Option ℕ} {actual : ℕ} {deadlineText warnText : String}
    {ctx : RuleContext} :
    judgeMinDays (.ok required) actual deadlineText warnText ctx = .ok .pass ↔
      ∀ n, required = some n → n ≤ actual := by
  cases required with
  | none => simp [judgeMinDays, bind, Except.bind, pure, Except.pure]
  | some n =>
      simp only [judgeMinDays, bind, Except.bind, Option.some.injEq, forall_eq']
      split
      · rename_i h; simp [h, pure, Except.pure]
      · split
        · rename_i h; simp [h, pure, Except.pure]
        · rename_i h
          refine iff_of_false (fun he => ?_) h
          split at he <;> split at he <;> cases he

theorem StdRule.evaluate_pass_iff {rule : StdRule} {ctx : RuleContext} :
    rule.evaluate ctx = .ok .pass ↔ rule.judge ctx = .ok .pass := by
  rw [StdRule.evaluate, map_eq_ok]
  constructor
  · rintro ⟨v, hv, h⟩
    cases v <;> cases h
    exact hv
  · exact fun h => ⟨.pass, h, rfl⟩

theorem minTradingDays_le_of_promoted {d t actorId b evs} (h : applyDecision a d t actorId = .ok (b, evs))
    (hpromoted : b.plan.phase ≠ a.plan.phase) : a.plan.minTradingDays ≤ a.activeTradingDays := by
  have hdays : (applyTargetHit a d t).1.activeTradingDays = a.activeTradingDays :=
    applyTargetHit_reading Account.activeTradingDays fun _ _ _ _ => rfl
  have hp := (applyDecision_promoted h hpromoted).1
  simp only [Account.promotable, applyTargetHit_plan, hdays, Bool.and_eq_true, decide_eq_true_eq] at hp
  exact hp.2

/-- Promotion counts active days only. Of an account it promotes, both minimum-day rules pass exactly
when the qualifying days, where the plan sets a threshold for them, and the profitable days are
enough as well. -/
theorem promotion_meets_minDays_iff {d : Decision} {t : Timestamp} {actorId : String} {b : Account}
    {evs : List DomainEvent} (h : applyDecision a d t actorId = .ok (b, evs))
    (hpromoted : b.plan.phase ≠ a.plan.phase) {ctx : RuleContext} (hctx : ctx.account = a) :
    ((minTradingDaysRule none).evaluate ctx = .ok .pass ∧
        (minProfitableDaysRule none).evaluate ctx = .ok .pass) ↔
      ((a.plan.qualifyingDayThresholdPct.isSome || a.plan.qualifyingDayPnlBandPct.isSome) = true →
          a.plan.minTradingDays ≤ a.qualifyingTradingDaysCount) ∧
        ∀ n, a.plan.minProfitableDays = some n → n ≤ a.profitableDaysCount := by
  have hactive := minTradingDays_le_of_promoted h hpromoted
  subst hctx
  rw [StdRule.evaluate_pass_iff, StdRule.evaluate_pass_iff]
  refine and_congr ?_ judgeMinDays_pass_iff
  refine judgeMinDays_pass_iff.trans ?_
  simp only [Option.some.injEq, forall_eq', MinTradingDaysRule.actual]
  split
  · rename_i hthreshold; simp [hthreshold]
  · rename_i hthreshold; simp [hthreshold, hactive]

def waitingAccount (plan : ChallengePlan) : Account :=
  { Account.new ⟨1⟩ ⟨1⟩ plan with
    status := .targetHitPending
    targetReachedAt := some 0
    activeTradingDays := 3 }

def qualifyingPlan : ChallengePlan :=
  { ChallengePlan.default ⟨1⟩ 0 with qualifyingDayThresholdPct := some (1 / 100) }

/-- The plan asks for qualifying and for profitable days, and the account has just enough of both. -/
def qualifiedAccount : Account :=
  { waitingAccount { qualifyingPlan with minProfitableDays := some 2 } with
    qualifyingTradingDaysCount := 3
    profitableDaysCount := 2 }

theorem promotion_meets_minDays_qualified :
    ∃ b evs, applyDecision qualifiedAccount (.fromReports []) 0 "" = .ok (b, evs) ∧
      b.plan.phase = .phase2 ∧
      (minTradingDaysRule none).evaluate (.new qualifiedAccount 0 (fun _ => ⟨0⟩) 0) = .ok .pass ∧
      (minProfitableDaysRule none).evaluate (.new qualifiedAccount 0 (fun _ => ⟨0⟩) 0) = .ok .pass := by
  have hrun : (applyDecision qualifiedAccount (.fromReports []) 0 "").map (fun x => x.1.plan.phase) =
      .ok .phase2 := by decide +kernel
  obtain ⟨⟨b, evs⟩, h, hphase⟩ := map_eq_ok.mp hrun
  have hpromoted : b.plan.phase ≠ qualifiedAccount.plan.phase := by
    rw [show b.plan.phase = .phase2 from hphase]; decide
  have hqualified : qualifiedAccount.plan.minTradingDays ≤ qualifiedAccount.qualifyingTradingDaysCount := by
    decide
  have hprofitable : ∀ n, qualifiedAccount.plan.minProfitableDays = some n →
      n ≤ qualifiedAccount.profitableDaysCount := by decide
  exact ⟨b, evs, h, hphase,
    (promotion_meets_minDays_iff h hpromoted rfl).mpr ⟨fun _ => hqualified, hprofitable⟩⟩

/-- With a threshold that no day has met, three active days still earn the promotion. -/
theorem promotion_without_qualifying_days :
    (applyDecision (waitingAccount qualifyingPlan) (.fromReports []) 0 "").map
        (fun x => x.1.plan.phase) = .ok .phase2 ∧
      ((minTradingDaysRule none).evaluate
        (.new (waitingAccount qualifyingPlan) 0 (fun _ => ⟨0⟩) 0)).map Verdict.decisionKind =
        .ok .warn := by
  decide +kernel

/-! ## The funded phase -/

theorem payoutRequest_status (s : Evaluated env a .payoutRequest) :
    a.status = .funded ∨ a.status = .payoutPending := by
  obtain ⟨trades, htr⟩ := applyEvent_transition s.apply_eq
  generalize s.applied.account = b at htr
  cases htr with
  | payoutRequest h => simpa [s.routed_status] using (Account.markPayoutPending_ok h).1

theorem Passage.status_of_promoted (s : Passage p env a ev r)
    (h : r.account.plan.phase ≠ a.plan.phase) :
    r.account.status = .active ∨ r.account.status = .failed ∨ r.account.status = .emergencyStopped := by
  have hactive : s.promoted.status = .active := by
    rcases s.account_phase with ⟨-, hplan⟩ | ⟨-, -, heq, -⟩
    · exact absurd (congrArg ChallengePlan.phase hplan) h
    · rw [heq]; rfl
  rw [s.account_status, hactive]
  unfold Decision.accountStatusTarget
  split <;> simp

/-- The promotion into the funded phase leaves the account without the funded status, and every
payout requested of it next is refused. -/
theorem funded_phase_refuses_payout (h : p.process env a ev = .ok r) (hbefore : a.plan.phase ≠ .funded)
    (hafter : r.account.plan.phase = .funded) :
    r.account.status ≠ .funded ∧
      ∀ p' env' r', Pipeline.process p' env' r.account .payoutRequest ≠ .ok r' := by
  obtain ⟨pass⟩ := Pipeline.process_passage h
  have hstatus := pass.status_of_promoted (by rw [hafter]; exact hbefore.symm)
  refine ⟨fun hf => by simp [hf] at hstatus, fun p' env' r' h' => ?_⟩
  obtain ⟨pass'⟩ := Pipeline.process_passage h'
  rcases payoutRequest_status pass'.toEvaluated with hf | hf <;> simp [hf] at hstatus

theorem funded_phase_refuses_payout_prompt :
    ∃ a r, a.plan.phase = .phase2 ∧ r.account.plan.phase = .funded ∧
      (Pipeline.ofPlan promptPlan).process (.at (Duration.seconds 2)) a
        (.tick (tickAt 2) 20000 20000) = .ok r ∧
      ∀ p' env' r', Pipeline.process p' env' r.account .payoutRequest ≠ .ok r' := by
  have hrun :
      (do
        let started ← (Account.new ⟨1⟩ ⟨1⟩ promptPlan).start 0
        let a ← (Pipeline.ofPlan promptPlan).run started [brokerTick 1 20000]
        let r ← (Pipeline.ofPlan promptPlan).process (.at (Duration.seconds 2)) a
          (.tick (tickAt 2) 20000 20000)
        pure (a.plan.phase, r.account.plan.phase)) = .ok (.phase2, .funded) := by
    decide +kernel
  obtain ⟨_, -, hrun⟩ := bind_eq_ok.mp hrun
  obtain ⟨a, -, hrun⟩ := bind_eq_ok.mp hrun
  obtain ⟨r, hr, hrun⟩ := bind_eq_ok.mp hrun
  obtain ⟨hphase, hphase'⟩ := Prod.mk.inj (pure_eq_ok.mp hrun)
  exact ⟨a, r, hphase, hphase', hr, (funded_phase_refuses_payout hr (by rw [hphase]; decide) hphase').2⟩

/-- The promoted account is active, not funded, and its payout request is refused although its quote
is not. -/
theorem funded_account_not_paid :
    (do
      let started ← (Account.new ⟨1⟩ ⟨1⟩ promptPlan).start 0
      let a ← (Pipeline.ofPlan promptPlan).run started [brokerTick 1 20000, brokerTick 2 20000]
      let quote ← acceptedQuote a (Duration.seconds 3) ""
      pure (a.plan.phase, a.status, quote.amount)) = .ok (.funded, .active, 8000) ∧
    ((do
      let started ← (Account.new ⟨1⟩ ⟨1⟩ promptPlan).start 0
      (Pipeline.ofPlan promptPlan).run started
        [brokerTick 1 20000, brokerTick 2 20000, (.at (Duration.seconds 3), .payoutRequest)]).map
        fun _ => ()) =
      raise (.invalidState
        [.lit "cannot request a payout from status ", .lit "Active",
          .lit " — only funded accounts can be paid"]) := by
  decide +kernel

end Propfirm
