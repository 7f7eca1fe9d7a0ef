import Propfirm.Api.Lemmas.Evaluate
import Propfirm.Api.Service
import Propfirm.Engine.Lemmas.Runs
import Propfirm.Engine.Lemmas.Status

/-!
# What an endpoint answers
-/

namespace Propfirm

open Fallible

variable {wire : WireFormat} {digest : List FieldValue → String} {hash : List FieldValue → UInt64}
  {cache : RegistryCache} {draws : ServiceDraws} {apiDraws : ApiDraws} {tenantId : TenantId}
  {accountId : AccountId} {a b acc : Account} {d : Decision} {t : Timestamp} {actorId : String}
  {evs : List DomainEvent} {env : Env} {ev : PipelineEvent}

/-! ## Whose account it is -/

/-- The account is the one that the identifier names, of the tenant. -/
structure Account.BelongsTo (wire : WireFormat) (a : Account) (accountId : String) (tenantId : TenantId) :
    Prop where
  id_eq : wire.parseUuid accountId = .ok a.id.raw
  tenantId_eq : a.tenantId = tenantId

theorem requestedAccount_ok {missing accountId : String} {accountState : Option Account}
    (h : requestedAccount wire missing tenantId accountId accountState = .ok acc) :
    accountState = some acc ∧ acc.BelongsTo wire accountId tenantId := by
  obtain ⟨raw, hraw, h⟩ := bind_eq_ok.mp h
  split at h
  · cases h
  · obtain ⟨⟨⟩, hvalid, h⟩ := bind_eq_ok.mp h
    obtain rfl := pure_eq_ok.mp h
    obtain ⟨hid, htenant⟩ := validateAccountState_ok.mp hvalid
    exact ⟨rfl, by rw [hid]; exact ofText_eq_ok.mp hraw, htenant⟩

theorem checkOverride_ok {req : OverrideRequest} (h : checkOverride wire tenantId req = .ok acc) :
    req.accountState = some acc ∧ acc.BelongsTo wire req.accountId tenantId := by
  obtain ⟨raw, hraw, h⟩ := bind_eq_ok.mp h
  obtain ⟨clears, -, h⟩ := bind_eq_ok.mp h
  split at h
  · cases h
  · rename_i state hstate
    obtain ⟨⟨⟩, hvalid, h⟩ := bind_eq_ok.mp h
    split at h
    · cases h
    · obtain ⟨⟨⟩, -, h⟩ := bind_eq_ok.mp h
      obtain rfl := pure_eq_ok.mp h
      obtain ⟨hid, htenant⟩ := validateAccountState_ok.mp hvalid
      exact ⟨hstate, by rw [hid]; exact ofText_eq_ok.mp hraw, htenant⟩

theorem evaluateInternal_belongs {req : InternalEvaluateRequest} {r : InternalEvaluateResponse}
    (h : evaluateInternal wire digest hash cache apiDraws tenantId req = .ok r)
    (hacc : req.accountState = some acc) : acc.BelongsTo wire req.accountId tenantId := by
  obtain ⟨raw, hraw, h⟩ := bind_eq_ok.mp h
  obtain ⟨source, -, h⟩ := bind_eq_ok.mp h
  simp only [hacc] at h
  obtain ⟨⟨⟩, hvalid, -⟩ := bind_eq_ok.mp h
  obtain ⟨hid, htenant⟩ := validateAccountState_ok.mp hvalid
  exact ⟨by rw [hid]; exact ofText_eq_ok.mp hraw, htenant⟩

/-! ## What becomes of the account -/

/-- The account that an endpoint answers with: the one it got, if its status is not evaluated, or the one
that the pipeline leaves. -/
inductive Handled (hash : List FieldValue → UInt64) (cache : RegistryCache) (draws : ServiceDraws)
    (acc : Account) (ev : PipelineEvent) : Account → Prop
  | skipped : acc.status.evaluationMode = .skip → Handled hash cache draws acc ev acc
  | processed {r : PipelineResult} :
      acc.status.evaluationMode = .evaluate ∨ ev.isOverrideBreach = true →
        (servicePipeline hash cache acc.plan).process draws.env acc ev = .ok r →
          Handled hash cache draws acc ev r.account

theorem AccountStatus.evaluate_of_not_skip {status : AccountStatus} (h : ¬status.evaluationMode = .skip) :
    status.evaluationMode = .evaluate := by
  cases hmode : status.evaluationMode with
  | evaluate => rfl
  | skip => exact absurd hmode h

theorem manualRun_handled {req : ManualRunRequest} {r : ManualRunResponse}
    (h : manualRun wire hash cache draws tenantId req = .ok r) :
    ∃ acc, req.accountState = some acc ∧ acc.BelongsTo wire req.accountId tenantId ∧
      Handled hash cache draws acc .onDemand r.accountState := by
  obtain ⟨acc, hacc, h⟩ := bind_eq_ok.mp h
  obtain ⟨hstate, hbelongs⟩ := requestedAccount_ok hacc
  refine ⟨acc, hstate, hbelongs, ?_⟩
  split at h
  · rename_i hskip
    obtain rfl := pure_eq_ok.mp h
    exact .skipped hskip
  · rename_i hmode
    obtain ⟨res, hres, h⟩ := bind_eq_ok.mp h
    obtain rfl := pure_eq_ok.mp h
    exact .processed (.inl (AccountStatus.evaluate_of_not_skip hmode)) (ofOutcome_eq_ok.mp hres)

theorem emergencyStop_handled {req : EmergencyStopRequest} {r : EmergencyStopResponse}
    (h : emergencyStop wire hash cache draws tenantId req = .ok r) :
    ∃ acc, req.accountState = some acc ∧ acc.BelongsTo wire req.accountId tenantId ∧
      Handled hash cache draws acc (.emergencyStop req.reason req.actorId draws.now) r.accountState := by
  obtain ⟨acc, hacc, h⟩ := bind_eq_ok.mp h
  obtain ⟨hstate, hbelongs⟩ := requestedAccount_ok hacc
  refine ⟨acc, hstate, hbelongs, ?_⟩
  split at h
  · rename_i hstopped
    obtain rfl := pure_eq_ok.mp h
    exact .skipped (by rw [hstopped]; rfl)
  · split at h
    · rename_i hskip
      obtain rfl := pure_eq_ok.mp h
      exact .skipped hskip
    · rename_i hmode
      obtain ⟨res, hres, h⟩ := bind_eq_ok.mp h
      obtain rfl := pure_eq_ok.mp h
      exact .processed (.inl (AccountStatus.evaluate_of_not_skip hmode)) (ofOutcome_eq_ok.mp hres)

theorem evaluateOrder_handled {req : EvaluateOrderRequest} {r : EvaluateOrderResponse}
    (h : evaluateOrder wire hash cache draws tenantId req = .ok r) :
    ∃ acc side, req.accountState = some acc ∧ acc.BelongsTo wire req.accountId tenantId ∧
      Handled hash cache draws acc (.orderSubmitted (req.order wire draws acc.id side)) r.accountState := by
  obtain ⟨acc, hacc, h⟩ := bind_eq_ok.mp h
  obtain ⟨hstate, hbelongs⟩ := requestedAccount_ok hacc
  split at h
  · rename_i hskip
    obtain rfl := pure_eq_ok.mp h
    exact ⟨acc, .buy, hstate, hbelongs, .skipped hskip⟩
  · rename_i hmode
    obtain ⟨side, -, h⟩ := bind_eq_ok.mp h
    obtain ⟨res, hres, h⟩ := bind_eq_ok.mp h
    obtain rfl := pure_eq_ok.mp h
    exact ⟨acc, side, hstate, hbelongs,
      .processed (.inl (AccountStatus.evaluate_of_not_skip hmode)) (ofOutcome_eq_ok.mp hres)⟩

theorem overrideBreach_handled {req : OverrideBody} {r : OverrideResponse}
    (h : overrideBreach wire hash cache draws tenantId req = .ok r) :
    ∃ acc, req.accountState = some acc ∧ acc.BelongsTo wire req.accountId tenantId ∧
      Handled hash cache draws acc (.overrideBreach (req.record draws acc.id)) r.accountState := by
  obtain ⟨acc, hacc, h⟩ := bind_eq_ok.mp h
  obtain ⟨hstate, hbelongs⟩ := checkOverride_ok hacc
  obtain ⟨res, hres, h⟩ := bind_eq_ok.mp h
  obtain rfl := pure_eq_ok.mp h
  exact ⟨acc, hstate, hbelongs, .processed (.inr rfl) (ofOutcome_eq_ok.mp hres)⟩

theorem breachReport_belongs {req : BreachReportRequest} {r : BreachReportResponse}
    (h : breachReport wire hash cache draws tenantId req = .ok r) :
    ∃ acc, req.accountState = some acc ∧ acc.BelongsTo wire req.accountId tenantId := by
  obtain ⟨acc, hacc, -⟩ := bind_eq_ok.mp h
  exact ⟨acc, requestedAccount_ok hacc⟩

/-- An account that is not evaluated comes back as it is. -/
theorem evaluateInternal_skip {req : InternalEvaluateRequest} {r : InternalEvaluateResponse}
    (h : evaluateInternal wire digest hash cache apiDraws tenantId req = .ok r)
    (hacc : req.accountState = some acc) (hskip : acc.status.evaluationMode = .skip) :
    r.accountState = acc := by
  obtain ⟨raw, -, h⟩ := bind_eq_ok.mp h
  obtain ⟨source, -, h⟩ := bind_eq_ok.mp h
  simp only [hacc] at h
  obtain ⟨⟨⟩, -, h⟩ := bind_eq_ok.mp h
  rw [evaluateState, if_pos hskip] at h
  rw [← Except.ok.inj h]
  rfl

/-! ## What a decision leaves -/

theorem applyTermination_reading {β : Type} (f : Account → β)
    (hf : ∀ (x : Account) (status : AccountStatus) (statusBeforeBreach : Option AccountStatus),
      f { x with status, statusBeforeBreach } = f x) : f (applyTermination a d t actorId).1 = f a := by
  unfold applyTermination
  cases d.accountStatusTarget with
  | none => rfl
  | some target => exact hf _ _ _

/-- A reading that neither a target, nor a promotion, nor a breach enters. -/
theorem applyDecision_reading {β : Type} (h : applyDecision a d t actorId = .ok (b, evs)) (f : Account → β)
    (hmark : ∀ (x : Account) (status : AccountStatus) (targetReachedAt : Option Timestamp)
      (targetReachedOnDay : Option ℕ), f { x with status, targetReachedAt, targetReachedOnDay } = f x)
    (hpromote : ∀ (x : Account) (next : ChallengePhase), f (x.promoted next) = f x)
    (hbreach : ∀ (x : Account) (status : AccountStatus) (statusBeforeBreach : Option AccountStatus),
      f { x with status, statusBeforeBreach } = f x) : f b = f a := by
  obtain ⟨promoted, promotionEvents, hpromotion, rfl, -⟩ := applyDecision_ok.mp h
  have hmarked : f (applyTargetHit a d t).1 = f a := applyTargetHit_reading f hmark
  have hpromoted : f promoted = f (applyTargetHit a d t).1 := by
    rcases applyPromotion_ok hpromotion with ⟨-, rfl, -⟩ | ⟨-, -, rfl, -⟩
    · rfl
    · exact hpromote _ _
  rw [applyTermination_reading f hbreach, hpromoted, hmarked]

/-- A decision that leaves the phase promotes nobody. -/
theorem applyDecision_unpromoted {β : Type} (h : applyDecision a d t actorId = .ok (b, evs))
    (hphase : b.plan.phase = a.plan.phase) (f : Account → β)
    (hmark : ∀ (x : Account) (status : AccountStatus) (targetReachedAt : Option Timestamp)
      (targetReachedOnDay : Option ℕ), f { x with status, targetReachedAt, targetReachedOnDay } = f x)
    (hbreach : ∀ (x : Account) (status : AccountStatus) (statusBeforeBreach : Option AccountStatus),
      f { x with status, statusBeforeBreach } = f x) : f b = f a := by
  obtain ⟨promoted, promotionEvents, hpromotion, rfl, -⟩ := applyDecision_ok.mp h
  have hmarked : f (applyTargetHit a d t).1 = f a := applyTargetHit_reading f hmark
  rcases applyPromotion_ok hpromotion with ⟨-, rfl, -⟩ | ⟨-, hfunded, rfl, -⟩
  · rw [applyTermination_reading f hbreach, hmarked]
  · rw [applyTermination_plan] at hphase
    rw [applyTargetHit_plan] at hphase hfunded
    cases hcase : a.plan.phase <;>
      simp [hcase, Account.promoted, Account.beginPhase, ChallengePlan.withPhase, nextPhaseFor]
        at hphase hfunded

/-! ## Events that the service submits -/

def PipelineEvent.isServed : PipelineEvent → Bool
  | .onDemand | .emergencyStop _ _ _ | .orderSubmitted _ | .overrideBreach _ => true
  | _ => false

theorem PipelineEvent.isDayRollover_of_isServed (h : ev.isServed = true) : ev.isDayRollover = false := by
  cases ev <;> first | rfl | cases h

/-- Such an event writes the status alone, and the status that is remembered. -/
theorem Transition.served (h : Transition env a ev b) (hev : ev.isServed = true) :
    ∃ status statusBeforeBreach, b = { a with status, statusBeforeBreach } := by
  cases h with
  | orderSubmitted | onDemand => exact ⟨a.status, a.statusBeforeBreach, rfl⟩
  | emergencyStop => exact ⟨_, _, rfl⟩
  | overrideBreach h =>
      obtain ⟨-, rfl⟩ := Account.clearBreach_eq h
      exact ⟨_, _, rfl⟩
  | accountStarted | tradeFilled | tick | tickEstimated | dayRollover | endOfDay | payoutRequest
  | payoutApprove => cases hev

theorem Transition.emergencyStop_status (h : Transition env a ev b) (hev : ev.isEmergencyStop = true) :
    b.status = .emergencyStopped := by
  cases h with
  | emergencyStop => rfl
  | _ => cases hev

def Account.rewritten (a : Account) (status : AccountStatus) (statusBeforeBreach : Option AccountStatus)
    (todayTrades : List Trade) : Account :=
  { a with status, statusBeforeBreach, todayTrades }

/-- Such a call catches up with the calendar, rewrites the status and applies a decision. -/
theorem Processed.served_decision (c : Processed) (hev : c.ev.isServed = true) :
    ∃ starts status memory trades d t actorId evs,
      applyDecision ((c.before.caughtUp starts).rewritten status memory trades) d t actorId =
        .ok (c.after, evs) := by
  obtain ⟨p, env, a, ev, r, hprocess⟩ := c
  obtain ⟨s⟩ := Pipeline.process_passage hprocess
  obtain ⟨trades, htr⟩ := applyEvent_transition s.apply_eq
  obtain ⟨status, memory, happlied⟩ := htr.served hev
  obtain ⟨evs, hdecision⟩ := s.applyDecision_eq
  have hroute := s.route_eq
  rw [route_eq_map, PipelineEvent.isDayRollover_of_isServed hev, if_neg Bool.false_ne_true] at hroute
  obtain ⟨starts, -, hstarts⟩ := map_eq_ok.mp hroute
  have hafter : r.account = s.terminated p s.promoted := by
    rw [s.account_eq]
    cases ev <;> first | rfl | cases hev
  have hfill : ∀ trade, ev ≠ .tradeFilled trade := by
    rintro trade rfl
    cases hev
  rw [← hafter, s.filled_eq hfill, happlied, ← (Prod.mk.inj hstarts).1] at hdecision
  exact ⟨starts, status, memory, trades, _, _, _, evs, hdecision⟩

/-- A reading that neither the catch-up, nor such an event, nor a decision enters. -/
theorem Processed.served_reading {β : Type} (c : Processed) (hev : c.ev.isServed = true) (f : Account → β)
    (hdays : ∀ x : Account, f x.outsideDays = f x)
    (hmark : ∀ (x : Account) (status : AccountStatus) (targetReachedAt : Option Timestamp)
      (targetReachedOnDay : Option ℕ), f { x with status, targetReachedAt, targetReachedOnDay } = f x)
    (hpromote : ∀ (x : Account) (next : ChallengePhase), f (x.promoted next) = f x)
    (hbreach : ∀ (x : Account) (status : AccountStatus) (statusBeforeBreach : Option AccountStatus),
      f { x with status, statusBeforeBreach } = f x) : f c.after = f c.before := by
  obtain ⟨starts, status, memory, trades, d, t, actorId, evs, hdecision⟩ := c.served_decision hev
  have hdaysOf : ∀ x y : Account, x.outsideDays = y.outsideDays → f x = f y :=
    fun x y h => eq_of_outsideDays h f hdays
  generalize hx : c.before.caughtUp starts = x at hdecision
  calc
    f c.after = f (x.rewritten status memory trades) :=
      applyDecision_reading hdecision f hmark hpromote hbreach
    _ = f (x.rewritten status memory x.todayTrades) := hdaysOf _ _ rfl
    _ = f x := hbreach x status memory
    _ = f c.before := by rw [← hx]; exact hdaysOf _ _ rolled_outsideDays

/-! ## What an evaluation leaves -/

/-- The equity and the balance that a broker attests with the request. -/
def InternalEvaluateRequest.attested (req : InternalEvaluateRequest) : Option (Money × Money) :=
  req.bridgeTick.map fun payload => (payload.equityCents / 100, payload.balanceCents / 100)

theorem ingest_account {req : InternalEvaluateRequest} {i : InternalEvaluateRequest.Ingested}
    (h : req.ingest wire apiDraws accountId acc = .ok i) :
    i.account =
      { acc with
        equity := (req.attested.getD (acc.equity, acc.balance)).1
        balance := (req.attested.getD (acc.equity, acc.balance)).2 } := by
  unfold InternalEvaluateRequest.ingest at h
  cases hbridge : req.bridgeTick with
  | some payload =>
      simp only [hbridge, InternalEvaluateRequest.ingestBridge] at h
      obtain ⟨_, -, h⟩ := bind_eq_ok.mp h
      obtain ⟨_, -, h⟩ := bind_eq_ok.mp h
      split at h
      · cases h
      · obtain rfl := pure_eq_ok.mp h
        simp [InternalEvaluateRequest.attested, hbridge]
  | none =>
      simp only [hbridge, InternalEvaluateRequest.ingestTick] at h
      split at h
      · cases h
      · obtain ⟨_, -, h⟩ := bind_eq_ok.mp h
        obtain ⟨_, -, h⟩ := bind_eq_ok.mp h
        obtain rfl := pure_eq_ok.mp h
        simp [InternalEvaluateRequest.attested, hbridge]

/-- What is judged is the account with the attested figures, and with peaks that are no lower. -/
theorem Answered.account_eq {req : InternalEvaluateRequest} {r : InternalEvaluateResponse}
    (e : Answered wire digest hash cache apiDraws tenantId req r) :
    ∃ peakEquity peakBalance, e.acc.peakEquity ≤ peakEquity ∧ e.acc.peakBalance ≤ peakBalance ∧
      e.account =
        { e.acc with
          equity := (req.attested.getD (e.acc.equity, e.acc.balance)).1
          balance := (req.attested.getD (e.acc.equity, e.acc.balance)).2
          peakEquity, peakBalance } := by
  rw [Answered.account, ingest_account e.ingest_eq]
  cases e.source with
  | estimated => exact ⟨_, _, le_rfl, le_rfl, rfl⟩
  | brokerReported =>
      refine ⟨_, _, ?_, ?_, rfl⟩
      · split
        · rename_i hlt; exact hlt.le
        · exact le_rfl
      · split
        · rename_i hlt; exact hlt.le
        · exact le_rfl

end Propfirm
