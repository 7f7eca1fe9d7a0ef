import Propfirm.Engine.Lemmas.Runs
import Propfirm.Engine.Theorems.Breaches
import Propfirm.Engine.Theorems.Promotion

/-!
# How an account comes to be paid

Only a payout and the clearing of a breach make an account funded. A payout needs an account that is, and a
breach that is cleared gives back the status it took, unless none is remembered.
-/

namespace Propfirm

open Fallible

variable {p : Pipeline} {env : Env} {a b : Account} {ev : PipelineEvent} {r : PipelineResult}
  {calls : List Processed} {n : ℕ}

def PipelineEvent.isPayout : PipelineEvent → Bool
  | .payoutRequest | .payoutApprove => true
  | _ => false

/-- The statuses of a challenge: not those that are paid, and not those that nothing sets. -/
def AccountStatus.inChallenge : AccountStatus → Bool
  | .pending | .active | .targetHitPending | .failed | .emergencyStopped => true
  | .passed | .funded | .payoutPending | .closed => false

/-- After `n` overrides: the status is one of a challenge, so is the one that is remembered, and before
the first override a breach remembers one. -/
structure Account.InChallenge (n : ℕ) (a : Account) : Prop where
  status : a.status.inChallenge = true
  memory : ∀ st ∈ a.statusBeforeBreach, st.inChallenge = true
  breached : n = 0 → a.status.isBreachTerminal = true → a.statusBeforeBreach.isSome = true

theorem Account.InChallenge.of_eq (h : a.InChallenge n) (hstatus : b.status = a.status)
    (hmemory : b.statusBeforeBreach = a.statusBeforeBreach) : b.InChallenge n where
  status := by rw [hstatus]; exact h.status
  memory := by rw [hmemory]; exact h.memory
  breached := by rw [hstatus, hmemory]; exact h.breached

theorem Account.Fresh.inChallenge (h : a.Fresh) : a.InChallenge 0 := by
  rcases h with ⟨id, tenantId, plan, rfl⟩ | ⟨id, tenantId, plan, at_, h⟩
  · exact ⟨rfl, fun st h => (by cases h), fun _ h => (by cases h)⟩
  · obtain ⟨-, hstatus, hmemory⟩ := Account.start_ok h
    refine ⟨by rw [hstatus]; rfl, fun st hst => ?_, fun _ hbreached => ?_⟩
    · rw [hmemory] at hst
      cases hst
    · rw [hstatus] at hbreached
      cases hbreached

/-! ## One call -/

theorem Account.InChallenge.not_payable (h : a.InChallenge n) :
    ¬(a.status = .funded ∨ a.status = .payoutPending) := by
  have hstatus := h.status
  rintro (hpaid | hpaid)
  · rw [hpaid] at hstatus; cases hstatus
  · rw [hpaid] at hstatus; cases hstatus

def PipelineEvent.overrides (ev : PipelineEvent) : ℕ := if ev.isOverrideBreach then 1 else 0

theorem Transition.inChallenge (h : Transition env a ev b) (ha : a.InChallenge n)
    (hn : n + ev.overrides < 2) : b.InChallenge (n + ev.overrides) ∧ ev.isPayout = false := by
  cases h with
  | accountStarted h =>
      obtain ⟨-, hstatus, hmemory⟩ := Account.start_ok h
      refine ⟨⟨by rw [hstatus]; rfl, by rw [hmemory]; exact ha.memory, fun _ hbreached => ?_⟩, rfl⟩
      rw [hstatus] at hbreached
      cases hbreached
  | orderSubmitted | endOfDay | onDemand => exact ⟨ha, rfl⟩
  | tradeFilled => exact ⟨ha.of_eq markActiveTradingDay_status markActiveTradingDay_statusBeforeBreach, rfl⟩
  | tick | tickEstimated => exact ⟨ha.of_eq rfl rfl, rfl⟩
  | dayRollover h =>
      have hframe := rolloverDay_outsideDays h
      exact ⟨ha.of_eq (eq_of_outsideDays hframe Account.status fun _ => rfl)
        (eq_of_outsideDays hframe Account.statusBeforeBreach fun _ => rfl), rfl⟩
  | emergencyStop =>
      refine ⟨⟨rfl, fun st hst => ?_, fun _ _ => ?_⟩, rfl⟩
      · unfold Account.emergencyStop at hst
        split at hst
        · obtain rfl := Option.some.inj hst
          exact ha.status
        · exact ha.memory st hst
      · unfold Account.emergencyStop
        cases a.statusBeforeBreach <;> rfl
  | overrideBreach h =>
      -- this is the first override, so the status that comes back was remembered
      have hfirst : n = 0 := by
        change n + 1 < 2 at hn
        omega
      obtain ⟨hbreached, hstatus, hmemory⟩ := Account.clearBreach_ok h
      obtain ⟨st, hst⟩ := Option.isSome_iff_exists.mp (ha.breached hfirst hbreached)
      rw [hst] at hstatus
      refine ⟨⟨by rw [hstatus]; exact ha.memory st hst, fun st' hst' => ?_, fun hzero => ?_⟩, rfl⟩
      · rw [hmemory] at hst'
        cases hst'
      · cases hzero
  | payoutRequest h => exact absurd (Account.markPayoutPending_ok h).1 ha.not_payable
  | payoutApprove h => exact absurd (recordPayout_ok h).1 ha.not_payable

theorem Passage.inChallenge (s : Passage p env a ev r) (h : s.applied.account.InChallenge n) :
    r.account.InChallenge n := by
  have hmarked : (s.marked p).status.inChallenge = true := by
    rcases s.marked_status p with hstatus | ⟨-, hstatus⟩
    · rw [hstatus]; exact h.status
    · rw [hstatus]; rfl
  have hpromoted : s.promoted.status.inChallenge = true := by
    rcases s.promoted_status with hstatus | ⟨-, hstatus⟩
    · rw [hstatus]; exact hmarked
    · rw [hstatus]; rfl
  have hmemory : s.promoted.statusBeforeBreach = s.applied.account.statusBeforeBreach :=
    s.promoted_statusBeforeBreach.trans (s.marked_statusBeforeBreach p)
  have hstatus := s.account_status
  have hremembered := s.account_statusBeforeBreach
  cases htarget : (s.decision p).accountStatusTarget with
  | none =>
      rw [htarget] at hstatus hremembered
      have hsame : r.account.statusBeforeBreach = s.applied.account.statusBeforeBreach :=
        hremembered.trans hmemory
      refine ⟨by rw [hstatus]; exact hpromoted, by rw [hsame]; exact h.memory, fun hn hbreached => ?_⟩
      rw [hstatus] at hbreached
      rw [hsame]
      exact h.breached hn (s.promoted_isBreachTerminal ▸ hbreached)
  | some target =>
      rw [htarget] at hstatus hremembered
      refine ⟨?_, fun st hst => ?_, fun _ _ => by rw [hremembered]; rfl⟩
      · rw [hstatus]
        have hbreach := accountStatusTarget_isBreachTerminal htarget
        cases target <;> first | rfl | cases hbreach
      · rw [hremembered] at hst
        obtain rfl := Option.some.inj hst
        exact hpromoted

theorem Processed.inChallenge (c : Processed) (h : c.before.InChallenge n) (hn : n + c.ev.overrides < 2) :
    c.after.InChallenge (n + c.ev.overrides) ∧ c.ev.isPayout = false := by
  obtain ⟨s⟩ := c.passage
  obtain ⟨trades, htr⟩ := applyEvent_transition s.apply_eq
  have hrouted : s.routed.InChallenge n := h.of_eq s.routed_status s.routed_statusBeforeBreach
  obtain ⟨happlied, hpayout⟩ := htr.inChallenge (hrouted.of_eq rfl rfl) hn
  exact ⟨s.inChallenge happlied, hpayout⟩

/-! ## Runs -/

theorem Run.inChallenge (h : Run a calls b) (ha : a.InChallenge 0)
    (hn : calls.countP (fun c => c.ev.isOverrideBreach) < 2) :
    b.InChallenge (calls.countP fun c => c.ev.isOverrideBreach) ∧ ∀ c ∈ calls, c.ev.isPayout = false := by
  induction h with
  | nil => exact ⟨ha, fun c hc => by cases hc⟩
  | cons c hrun ih =>
      rw [List.countP_cons] at hn ⊢
      obtain ⟨hbefore, hnone⟩ := ih (by omega)
      obtain ⟨hafter, hpayout⟩ := c.inChallenge hbefore hn
      exact ⟨hafter, List.forall_mem_cons.mpr ⟨hpayout, hnone⟩⟩

/-- A new account is not paid, whatever its plan, its rules and its run, before two overrides: the first one
gives back a status of the challenge, and only one that finds none remembered makes an account funded. -/
theorem payout_needs_two_overrides (h : Run a calls b) (ha : a.Fresh)
    (hpaid : (∃ c ∈ calls, c.ev.isPayout = true) ∨ b.status = .funded ∨ b.status = .payoutPending) :
    2 ≤ calls.countP fun c => c.ev.isOverrideBreach := by
  by_contra hfew
  obtain ⟨hb, hnone⟩ := h.inChallenge ha.inChallenge (by omega)
  rcases hpaid with ⟨c, hc, hpayout⟩ | hpayable
  · rw [hnone c hc] at hpayout
    cases hpayout
  · exact hb.not_payable hpayable

def fundedPlan : ChallengePlan := { ChallengePlan.default ⟨1⟩ 0 with phase := .funded }

def clearingAt (second : ℤ) : Env × PipelineEvent :=
  (.at (Duration.seconds second),
    .overrideBreach ⟨⟨1⟩, ⟨1⟩, "feed error", "operations", Duration.seconds second⟩)

/-- A second loss is remembered over the first, so the first override gives back a failure, and the second
one finds nothing remembered. The account is funded then, and paid. -/
theorem payout_after_two_overrides :
    ∃ a calls b, a.FreshlyStarted ∧ Run a calls b ∧
      calls.map Processed.ev =
        [.payoutApprove, .payoutRequest, .tick (tickAt 5) 12000 12000, (clearingAt 4).2, (clearingAt 3).2,
          .tick (tickAt 2) 1000 1000, .tick (tickAt 1) 1000 1000] ∧
      2 ≤ calls.countP fun c => c.ev.isOverrideBreach := by
  have hrun :
      (do
        let a ← (Account.new ⟨1⟩ ⟨1⟩ fundedPlan).start 0
        let _ ← (Pipeline.ofPlan fundedPlan).run a
          [brokerTick 1 1000, brokerTick 2 1000, clearingAt 3, clearingAt 4, brokerTick 5 12000,
            (.at (Duration.seconds 6), .payoutRequest), (.at (Duration.seconds 7), .payoutApprove)]
        pure ()) = .ok () := by
    decide +kernel
  obtain ⟨a, hstart, hrun⟩ := bind_eq_ok.mp hrun
  obtain ⟨b, hrun, -⟩ := bind_eq_ok.mp hrun
  obtain ⟨calls, hcalls, hevs⟩ := Pipeline.run_ok hrun
  have hfresh : a.FreshlyStarted := ⟨_, _, _, _, hstart⟩
  refine ⟨a, calls, b, hfresh, hcalls, hevs, payout_needs_two_overrides hcalls (.inr hfresh) (.inl ?_)⟩
  have happrove : PipelineEvent.payoutApprove ∈ calls.map Processed.ev := by
    rw [hevs]
    exact List.mem_cons_self
  obtain ⟨c, hc, hev⟩ := List.mem_map.mp happrove
  exact ⟨c, hc, by rw [hev]; rfl⟩

end Propfirm
