import Propfirm.Engine.Lemmas.Liquidations
import Propfirm.Engine.Lemmas.Runs
import Propfirm.Engine.Lemmas.Targets
import Propfirm.Rules.Lemmas.Pack

/-!
# What no call changes

The identity of an account and its configuration stay, its phase apart, and what is emitted for an account
is of that account.
-/

namespace Propfirm

open Fallible

variable {p : Pipeline} {env : Env} {a a' : Account} {ev : PipelineEvent} {r : PipelineResult}
  {rule : Rule} {ctx : RuleContext} {v : Violation}

/-! ## The account -/

/-- The fields that stay, with the plan as it would be in its first phase. -/
structure Identity where
  id : AccountId
  tenantId : TenantId
  version : ℕ
  initialBalance : Money
  plan : ChallengePlan

def Account.identity (a : Account) : Identity :=
  ⟨a.id, a.tenantId, a.version, a.initialBalance, a.plan.withPhase .phase1⟩

theorem Evaluated.applied_identity (s : Evaluated env a ev) : s.applied.account.identity = a.identity :=
  s.event_reading Account.identity (fun _ => rfl) fun _ => rfl

theorem Passage.account_identity (s : Passage p env a ev r) : r.account.identity = a.identity := by
  rw [s.applied_reading Account.identity (fun _ _ _ _ _ _ => rfl) (fun _ _ => rfl) fun _ _ _ _ => rfl,
    s.applied_identity]

theorem Passage.promoted_identity (s : Passage p env a ev r) : s.promoted.identity = a.identity := by
  rw [← s.account_reading Account.identity fun _ _ _ _ => rfl, s.account_identity]

/-- The phase of an account and the type that goes with it. -/
def Account.rank (a : Account) : ChallengePhase × AccountType := (a.plan.phase, a.accountType)

/-- A call leaves the phase, or moves it up by one together with the type. -/
theorem Passage.account_rank (s : Passage p env a ev r) :
    r.account.rank = a.rank ∨
      a.plan.phase ≠ .funded ∧
        r.account.rank = (nextPhaseFor a.plan.phase, .ofPhase (nextPhaseFor a.plan.phase)) := by
  have hmarked : (s.marked p).rank = a.rank :=
    (s.marked_reading p Account.rank fun _ _ _ _ _ _ => rfl).trans
      (s.event_reading Account.rank (fun _ => rfl) fun _ => rfl)
  have hphase : (s.marked p).plan.phase = a.plan.phase := congrArg Prod.fst hmarked
  rw [s.account_reading Account.rank fun _ _ _ _ => rfl]
  rcases applyPromotion_ok s.promotion_eq with ⟨-, heq, -⟩ | ⟨-, hnot, heq, -⟩
  · rw [heq]
    exact .inl hmarked
  · rw [heq, ← hphase]
    exact .inr ⟨hnot, rfl⟩

/-! ## What is emitted -/

def Violation.IsOf (v : Violation) (a : Account) : Prop := v.accountId = a.id ∧ v.tenantId = a.tenantId

theorem buildViolation_isOf (id : RuleId) (name : String) (kind : ViolationKind) (ctx : RuleContext)
    (f : Finding) : (buildViolation id name kind ctx f).IsOf ctx.account := by
  unfold buildViolation
  split <;> exact ⟨rfl, rfl⟩

theorem Rule.failureVerdict_violation (base : Violation) :
    (rule.failureVerdict base).violation = some base := by
  unfold failureVerdict
  split <;> rfl

/-- A rule of the library writes its findings under the account it judges, and so does the registry when
the rule fails. -/
theorem Rule.InLibrary.violation_isOf (h : rule.InLibrary) (hv : (rule.verdict ctx).violation = some v) :
    v.IsOf ctx.account := by
  obtain ⟨params, r, -, rfl⟩ := h
  unfold Rule.verdict at hv
  split at hv
  · rename_i verdict heval
    obtain ⟨found, -, rfl⟩ := map_eq_ok.mp heval
    rw [Verdict.violation_map, Option.map_eq_some_iff] at hv
    obtain ⟨f, -, rfl⟩ := hv
    exact buildViolation_isOf ..
  all_goals
    rw [Rule.failureVerdict_violation, Option.some.injEq] at hv
    exact hv ▸ buildViolation_isOf ..

theorem RuleRegistry.IsBuilt.violation_isOf {registry : RuleRegistry} {now : Timestamp} {report : RuleReport}
    (h : registry.IsBuilt) (hreport : report ∈ registry.evaluate ctx now)
    (hv : report.verdict.violation = some v) : v.IsOf ctx.account := by
  obtain ⟨rule, hrule, -, rfl⟩ := RuleRegistry.mem_evaluate.mp hreport
  exact (h.inLibrary hrule).violation_isOf hv

theorem Passage.violations_isOf (s : Passage p env a ev r) (h : p.registry.IsBuilt)
    (hv : v ∈ r.result.violations) : v.IsOf a := by
  rw [s.result_eq] at hv
  obtain ⟨report, hreport, hv⟩ := List.mem_filterMap.mp hv
  have hof := h.violation_isOf hreport hv
  rw [Evaluated.ctx, buildContext_account] at hof
  exact ⟨hof.1.trans (congrArg Identity.id s.applied_identity),
    hof.2.trans (congrArg Identity.tenantId s.applied_identity)⟩

theorem Passage.liquidations_isOf (s : Passage p env a ev r) {i : LiquidationInstruction}
    (hi : i ∈ liquidations r.events) : i.accountId = a.id ∧ i.tenantId = a.tenantId := by
  rw [s.liquidations_eq] at hi
  split at hi
  · rw [List.mem_singleton.mp hi]
    exact ⟨congrArg Identity.id s.promoted_identity, congrArg Identity.tenantId s.promoted_identity⟩
  · cases hi

/-! ## Runs -/

/-- The calls of the run emitted nothing but records of the account. -/
def Processed.EmitsFor (c : Processed) (id : AccountId) (tenantId : TenantId) : Prop :=
  (∀ v ∈ c.result.result.violations ++ recordedViolations c.result.events,
      v.accountId = id ∧ v.tenantId = tenantId) ∧
    ∀ i ∈ liquidations c.result.events, i.accountId = id ∧ i.tenantId = tenantId

/-- A step up the ladder of phases. -/
inductive ChallengePhase.Next : ChallengePhase → ChallengePhase → Prop
  | phase2 : Next .phase1 .phase2
  | funded : Next .phase2 .funded

theorem next_nextPhaseFor {phase : ChallengePhase} (h : phase ≠ .funded) :
    phase.Next (nextPhaseFor phase) := by
  cases phase with
  | phase1 => exact .phase2
  | phase2 => exact .funded
  | funded => exact absurd rfl h

/-- The type of the account goes with its phase. -/
def Account.Ranked (a : Account) : Prop := a.accountType = .ofPhase a.plan.phase

theorem Processed.ranked (c : Processed) (h : c.before.Ranked) : c.after.Ranked := by
  obtain ⟨s⟩ := c.passage
  rcases s.account_rank with heq | ⟨-, heq⟩
  · obtain ⟨hphase, htype⟩ := Prod.mk.inj heq
    exact htype.trans (h.trans (congrArg _ hphase.symm))
  · obtain ⟨hphase, htype⟩ := Prod.mk.inj heq
    exact htype.trans (congrArg _ hphase.symm)

theorem Processed.phase_next (c : Processed) :
    c.after.plan.phase = c.before.plan.phase ∨ c.before.plan.phase.Next c.after.plan.phase := by
  obtain ⟨s⟩ := c.passage
  rcases s.account_rank with heq | ⟨hnot, heq⟩
  · exact .inl (Prod.mk.inj heq).1
  · rw [show c.after.plan.phase = _ from (Prod.mk.inj heq).1]
    exact .inr (next_nextPhaseFor hnot)

theorem Processed.emitsFor (c : Processed) (h : c.pipeline.registry.IsBuilt) :
    c.EmitsFor c.before.id c.before.tenantId := by
  obtain ⟨s⟩ := c.passage
  refine ⟨fun v hv => ?_, fun i hi => s.liquidations_isOf hi⟩
  rw [s.recordedViolations_eq, List.mem_append, or_self] at hv
  exact s.violations_isOf h hv

theorem Processed.identity_eq (c : Processed) : c.after.identity = c.before.identity := by
  obtain ⟨s⟩ := c.passage
  exact s.account_identity

theorem Run.identity_eq {calls : List Processed} {b : Account} (h : Run a calls b) :
    b.identity = a.identity :=
  h.invariant (P := fun _ => True) (fun x => x.identity = a.identity)
    (fun c _ hc => c.identity_eq.trans hc) (fun _ _ => trivial) rfl

theorem ChallengePlan.eq_withPhase {plan plan' : ChallengePlan} {phase : ChallengePhase}
    (h : plan.withPhase phase = plan'.withPhase phase) : plan = plan'.withPhase plan.phase := by
  have heq := congrArg (fun x : ChallengePlan => x.withPhase plan.phase) h
  exact heq

/-- Along every run of an account the identity and the configuration stay, the type goes with the phase,
the phase moves up the ladder, and what is emitted is of the account. -/
theorem identity_framed {id : AccountId} {tenantId : TenantId} {plan : ChallengePlan} {calls : List Processed}
    {b : Account} (h : Run (.new id tenantId plan) calls b)
    (hbuilt : ∀ c ∈ calls, c.pipeline.registry.IsBuilt) :
    (b.id = id ∧ b.tenantId = tenantId ∧ b.version = (Account.new id tenantId plan).version ∧
        b.initialBalance = (Account.new id tenantId plan).initialBalance ∧
        b.plan = plan.withPhase b.plan.phase) ∧
      b.accountType = .ofPhase b.plan.phase ∧
      (∀ c ∈ calls, c.after.plan.phase = c.before.plan.phase ∨
        c.before.plan.phase.Next c.after.plan.phase) ∧
      ∀ c ∈ calls, c.EmitsFor id tenantId := by
  have hidentity := h.identity_eq
  refine ⟨⟨congrArg Identity.id hidentity, congrArg Identity.tenantId hidentity,
    congrArg Identity.version hidentity, congrArg Identity.initialBalance hidentity,
    ChallengePlan.eq_withPhase (congrArg Identity.plan hidentity)⟩, ?_, fun c _ => c.phase_next, ?_⟩
  · exact h.invariant (P := fun _ => True) Account.Ranked (fun c _ => c.ranked) (fun _ _ => trivial) rfl
  · intro c hc
    obtain ⟨earlier, hrun, -⟩ := h.exists_of_mem hc
    have hemits := c.emitsFor (hbuilt c hc)
    rwa [show c.before.id = id from congrArg Identity.id (Run.identity_eq hrun),
      show c.before.tenantId = tenantId from congrArg Identity.tenantId (Run.identity_eq hrun)] at hemits

theorem identity_framed_breach :
    ∃ r r', (Pipeline.ofPlan (.default ⟨1⟩ 0)).process (.at 0) (.new ⟨1⟩ ⟨2⟩ (.default ⟨1⟩ 0))
        (.accountStarted 0) = .ok r ∧
      (Pipeline.ofPlan (.default ⟨1⟩ 0)).process (.at 1) r.account
        (.tick ⟨⟨"EURUSD"⟩, ⟨1, 1, 1⟩⟩ 8500 10000) = .ok r' ∧
      (r'.account.status, (liquidations r'.events).length) = (.failed, 1) ∧
      (r'.account.id = ⟨1⟩ ∧ r'.account.tenantId = ⟨2⟩) ∧
      ∀ i ∈ liquidations r'.events, i.accountId = ⟨1⟩ ∧ i.tenantId = ⟨2⟩ := by
  have hrun :
      (do
        let r ← (Pipeline.ofPlan (.default ⟨1⟩ 0)).process (.at 0) (.new ⟨1⟩ ⟨2⟩ (.default ⟨1⟩ 0))
          (.accountStarted 0)
        let r' ← (Pipeline.ofPlan (.default ⟨1⟩ 0)).process (.at 1) r.account
          (.tick ⟨⟨"EURUSD"⟩, ⟨1, 1, 1⟩⟩ 8500 10000)
        pure (r'.account.status, (liquidations r'.events).length)) = .ok (.failed, 1) := by
    decide +kernel
  obtain ⟨r, h, hrun⟩ := bind_eq_ok.mp hrun
  obtain ⟨r', h', hrun⟩ := bind_eq_ok.mp hrun
  have hbuilt : (Pipeline.ofPlan (.default ⟨1⟩ 0)).registry.IsBuilt := .inl (.inr ⟨_, rfl⟩)
  obtain ⟨⟨hid, htenant, -⟩, -, -, hemits⟩ :=
    identity_framed (.cons (Processed.of h') (.cons (Processed.of h) .nil)) (by simp [hbuilt])
  exact ⟨r, r', h, h', pure_eq_ok.mp hrun, ⟨hid, htenant⟩, (hemits (.of h') (by simp)).2⟩

end Propfirm
