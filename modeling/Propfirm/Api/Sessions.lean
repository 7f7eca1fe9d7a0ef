import Propfirm.Api.Exchanges
import Propfirm.Api.Theorems
import Propfirm.Engine.Theorems.Identity
import Propfirm.Engine.Theorems.Promotion

/-!
# Sessions with the service

What holds over every row of exchanges, whatever is requested in it.
-/

namespace Propfirm

open Fallible

variable {wire : WireFormat} {digest : List FieldValue → String} {hash : List FieldValue → UInt64}

section Sessions

variable {a b : Account} {xs : List (Exchange wire digest hash)}

/-! ## Sessions as runs of the pipeline -/

/-- The cache holds what earlier requests built. -/
def Exchange.Cached (x : Exchange wire digest hash) : Prop := ∃ plans, x.cache = .after hash plans

theorem getOrBuild_isDefault (plans : List ChallengePlan) (plan : ChallengePlan) :
    ((RegistryCache.after hash plans).getOrBuild hash plan).1.IsDefault := by
  obtain ⟨q, -, hq⟩ := Memo.get_eq (Memo.after_holds (ChallengePlan.planCacheKey hash)
    RuleRegistry.withDefaultRulesForPlan plans) plan
  exact .inr ⟨q, hq⟩

/-- The call of the pipeline that an exchange comes down to. -/
structure Exchange.ComesTo (x : Exchange wire digest hash) (c : Processed) : Prop where
  before_eq : c.before = x.held
  after_eq : c.after = x.kept
  submits : x.request.Submits wire x.draws x.held c.ev
  registry : c.pipeline.registry.IsDefault

theorem Exchange.comesTo_or_unchanged (x : Exchange wire digest hash) (h : x.request.isEvaluate = false)
    (hcache : x.Cached) : x.kept = x.held ∨ ∃ c, x.ComesTo c := by
  cases x.step with
  | unchanged hkept => exact .inl hkept
  | processed c hbefore hafter hpipeline hev hmode =>
      obtain ⟨plans, hplans⟩ := hcache
      refine .inr ⟨c, hbefore, hafter, hev, ?_⟩
      rw [hpipeline, servicePipeline, hplans]
      exact getOrBuild_isDefault plans x.held.plan
  | evaluated e hrequest =>
      rw [hrequest] at h
      cases h

/-- A request about an account of the tenant in the first hour, with nothing cached. -/
def hourlyExchange (held : Account) (request : ServiceRequest) (h : request.accountState = some held) :
    Exchange plainWire (fun _ => "") fun _ => 0 where
  held
  headers := ⟨some "1", none⟩
  request
  cache := .empty
  draws := ⟨Duration.hours 1, .at (Duration.hours 1), ⟨1⟩, ⟨1⟩, fun _ => ⟨1⟩⟩
  carries := h

def firstManualRun : Exchange plainWire (fun _ => "") fun _ => 0 :=
  hourlyExchange (firstDayAccount none) (.manualRun ⟨"1", some (firstDayAccount none)⟩) rfl

def firstStop : Exchange plainWire (fun _ => "") fun _ => 0 :=
  hourlyExchange firstManualRun.kept (.emergencyStop ⟨"1", some firstManualRun.kept, "margin", "desk"⟩) rfl

def secondManualRun : Exchange plainWire (fun _ => "") fun _ => 0 :=
  hourlyExchange firstStop.kept (.manualRun ⟨"1", some firstStop.kept⟩) rfl

/-- The account with a tick of the first hour, to be evaluated. -/
def hourlyEvaluation (held : Account) : Exchange plainWire (fun _ => "") fun _ => 0 :=
  hourlyExchange held
    (.evaluate { legacyRequest (firstDayAccount none) firstHourTick 0 0 with accountState := some held }
      (.at (Duration.hours 1))) rfl

def firstEvaluation : Exchange plainWire (fun _ => "") fun _ => 0 := hourlyEvaluation firstManualRun.kept

def secondEvaluation : Exchange plainWire (fun _ => "") fun _ => 0 := hourlyEvaluation firstEvaluation.kept

/-- Without evaluations a session is a run of the pipeline over default registries: some of its exchanges
come down to one call each, in their order, and the others change nothing. -/
theorem session_refines_run (h : Session wire digest hash a xs b)
    (hxs : ∀ x ∈ xs, x.request.isEvaluate = false) (hcached : ∀ x ∈ xs, x.Cached) :
    ∃ calls ys, Run a calls b ∧ ys.Sublist xs ∧ List.Forall₂ Exchange.ComesTo ys calls ∧
      ∀ x ∈ xs, x ∈ ys ∨ x.kept = x.held := by
  induction h with
  | nil => exact ⟨[], [], .nil, .slnil, .nil, List.forall_mem_nil _⟩
  | cons x hpath ih =>
      rw [List.forall_mem_cons] at hxs hcached
      obtain ⟨calls, ys, hrun, hsub, hcomes, hothers⟩ := ih hxs.2 hcached.2
      rcases x.comesTo_or_unchanged hxs.1 hcached.1 with hkept | ⟨c, hc⟩
      · exact ⟨calls, ys, hkept ▸ hrun, hsub.cons x, hcomes, List.forall_mem_cons.mpr ⟨.inr hkept, hothers⟩⟩
      · rw [← hc.before_eq] at hrun
        refine ⟨c :: calls, x :: ys, hc.after_eq ▸ .cons c hrun, hsub.cons_cons x, .cons hc hcomes, ?_⟩
        exact List.forall_mem_cons.mpr ⟨.inl List.mem_cons_self,
          fun y hy => (hothers y hy).imp_left (List.mem_cons_of_mem x)⟩

theorem session_refines_run_stopped :
    ∃ calls ys, Run (firstDayAccount none) calls firstStop.kept ∧ ys.Sublist [firstStop, firstManualRun] ∧
      List.Forall₂ Exchange.ComesTo ys calls ∧
      ∀ x ∈ [firstStop, firstManualRun], x ∈ ys ∨ x.kept = x.held :=
  session_refines_run (.cons firstStop (.cons firstManualRun .nil)) (by simp; exact ⟨rfl, rfl⟩)
    (by simp; exact ⟨⟨[], rfl⟩, ⟨[], rfl⟩⟩)

/-! ## Isolation -/

theorem Exchange.identity_eq (x : Exchange wire digest hash) : x.kept.identity = x.held.identity := by
  cases x.step with
  | unchanged hkept => rw [hkept]
  | processed c hbefore hafter => rw [← hafter, ← hbefore, c.identity_eq]
  | evaluated e hrequest hacc hkept =>
      obtain ⟨-, evs, hdecision⟩ := e.decided
      obtain ⟨peakEquity, peakBalance, -, -, haccount⟩ := e.account_eq
      rw [← hkept, applyDecision_reading hdecision Account.identity (fun _ _ _ _ => rfl) (fun _ _ => rfl)
        fun _ _ _ => rfl, haccount, ← hacc]
      rfl

theorem Session.identity_eq (h : Session wire digest hash a xs b) : b.identity = a.identity :=
  h.invariant (P := fun _ => True) (fun y => y.identity = a.identity)
    (fun x _ hx => x.identity_eq.trans hx) (fun _ _ => trivial) rfl

/-- No session crosses to another tenant or another account: identity and configuration stay, and every
request that is answered is the tenant's own and names the account. -/
theorem session_isolated (h : Session wire digest hash a xs b) :
    b.identity = a.identity ∧
      ∀ x ∈ xs, (∃ r, x.answer = .ok r) →
        extractTenantId wire x.headers = .ok a.tenantId ∧
          wire.parseUuid x.request.accountId = .ok a.id.raw := by
  refine ⟨Session.identity_eq h, fun x hx hr => ?_⟩
  obtain ⟨earlier, hearlier, -⟩ := h.exists_of_mem hx
  have hidentity := Session.identity_eq hearlier
  obtain ⟨tenantId, htenant, hbelongs, -⟩ := x.answered hr
  rw [htenant, ← hbelongs.tenantId_eq, hbelongs.id_eq]
  exact ⟨congrArg (fun i => Except.ok i.tenantId) hidentity, congrArg (fun i => Except.ok i.id.raw) hidentity⟩

theorem session_isolated_stopped :
    firstStop.kept.identity = (firstDayAccount none).identity ∧
      ∀ x ∈ [firstStop, firstManualRun], (∃ r, x.answer = .ok r) →
        extractTenantId plainWire x.headers = .ok ⟨1⟩ ∧ plainWire.parseUuid x.request.accountId = .ok 1 :=
  session_isolated (.cons firstStop (.cons firstManualRun .nil))

/-! ## After an emergency stop -/

def ServiceRequest.isEmergencyStop : ServiceRequest → Bool
  | .emergencyStop _ => true
  | _ => false

/-- The rules still judge a stopped account, and may fail it. -/
theorem Processed.emergencyStop_status (c : Processed) (hev : c.ev.isEmergencyStop = true) :
    c.after.status = .emergencyStopped ∨ c.after.status = .failed := by
  obtain ⟨p, env, a, ev, r, hprocess⟩ := c
  obtain ⟨s⟩ := Pipeline.process_passage hprocess
  obtain ⟨trades, htr⟩ := applyEvent_transition s.apply_eq
  have happlied : s.applied.account.status = .emergencyStopped := htr.emergencyStop_status hev
  have hmarked : (s.marked p).status = .emergencyStopped := by
    rcases s.marked_status p with h | ⟨h, -⟩
    · rw [h, happlied]
    · rw [happlied] at h
      cases h
  have hpromoted : s.promoted.status = .emergencyStopped := by
    rcases s.promoted_status with h | ⟨h, -⟩
    · rw [h, hmarked]
    · rw [hmarked] at h
      cases h
  rw [after, s.account_status, hpromoted]
  unfold Decision.accountStatusTarget
  cases (s.decision p).kind <;> simp

/-- Only an override moves an account that is not evaluated. -/
theorem Exchange.kept_of_skip (x : Exchange wire digest hash) (h : x.request.isOverrideBreach = false)
    (hskip : x.held.status.evaluationMode = .skip) : x.kept = x.held := by
  cases x.step with
  | unchanged hkept => exact hkept
  | processed c hbefore hafter hpipeline hev hmode =>
      rcases hmode with hmode | hmode
      · rw [hskip] at hmode
        cases hmode
      · rw [h] at hmode
        cases hmode
  | evaluated e hrequest hacc hkept hanswer hmode =>
      rw [hskip] at hmode
      cases hmode

theorem Exchange.stopped (x : Exchange wire digest hash) (h : x.request.isEmergencyStop = true)
    (hr : ∃ r, x.answer = .ok r) :
    x.kept.status.evaluationMode = .skip ∧
      (x.held.status.evaluationMode = .evaluate →
        x.kept.status = .emergencyStopped ∨ x.kept.status = .failed) := by
  obtain ⟨r, hr⟩ := hr
  obtain ⟨tenantId, -, hanswer⟩ := bind_eq_ok.mp hr
  have hkept := kept_of_ok hr
  have hcarries := x.carries
  cases hrequest : x.request with
  | emergencyStop req =>
      rw [hrequest] at hanswer hcarries
      obtain ⟨res, hres, rfl⟩ := map_eq_ok.mp hanswer
      obtain ⟨acc, hacc, -, hhandled⟩ := emergencyStop_handled hres
      obtain rfl := Option.some.inj (hcarries.symm.trans hacc)
      have hstate : x.kept = res.accountState := hkept
      rw [hstate]
      generalize res.accountState = b at hhandled
      cases hhandled with
      | skipped hskip => exact ⟨hskip, fun hmode => by rw [hskip] at hmode; cases hmode⟩
      | processed hmode hprocess =>
          have hstatus := (Processed.of hprocess).emergencyStop_status rfl
          refine ⟨?_, fun _ => hstatus⟩
          rcases hstatus with hstatus | hstatus
          · exact congrArg AccountStatus.evaluationMode hstatus
          · exact congrArg AccountStatus.evaluationMode hstatus
  | _ => rw [hrequest] at h; cases h

/-- An answered emergency stop holds until an override: whatever else is requested, the account stays as it
was answered, and it is stopped or failed if it was evaluated before. -/
theorem emergency_stop_holds {x : Exchange wire digest hash} (hx : x.request.isEmergencyStop = true)
    (hr : ∃ r, x.answer = .ok r) (h : Session wire digest hash x.kept xs b)
    (hxs : ∀ y ∈ xs, y.request.isOverrideBreach = false) :
    b = x.kept ∧ b.status.evaluationMode = .skip ∧
      (x.held.status.evaluationMode = .evaluate → b.status = .emergencyStopped ∨ b.status = .failed) := by
  obtain ⟨hskip, hstatus⟩ := x.stopped hx hr
  have hb : b = x.kept :=
    h.invariant (P := fun y => y.request.isOverrideBreach = false) (fun y => y = x.kept)
      (fun y hy hheld => (y.kept_of_skip hy (by rw [hheld]; exact hskip)).trans hheld) hxs rfl
  rw [hb]
  exact ⟨rfl, hskip, hstatus⟩

theorem emergency_stop_holds_first :
    secondManualRun.kept = firstStop.kept ∧ secondManualRun.kept.status.evaluationMode = .skip ∧
      (secondManualRun.kept.status = .emergencyStopped ∨ secondManualRun.kept.status = .failed) := by
  have hanswer : firstStop.answer.map (fun _ => ()) = .ok () := by decide +kernel
  have hmode : firstStop.held.status.evaluationMode = .evaluate := by decide +kernel
  obtain ⟨r, hr, -⟩ := map_eq_ok.mp hanswer
  obtain ⟨hkept, hskip, hstatus⟩ := emergency_stop_holds (x := firstStop) rfl ⟨r, hr⟩
    (.cons secondManualRun .nil) (by simp; rfl)
  exact ⟨hkept, hskip, hstatus hmode⟩

/-! ## What the service books -/

/-- What only fills, estimates, ticks of the pipeline, payouts and the start of an account write. -/
structure Standing where
  challengeId : Option ChallengeId
  estimatedEquity : Money
  estimatedBalance : Money
  startedAt : Option Timestamp
  deadline : Option Timestamp
  totalRealizedPnl : Money
  totalCommissions : Money
  totalSwaps : Money
  lastTickTs : Option Timestamp
  lastTradeAt : Option Timestamp
  payoutCount : ℕ
  balanceAtLastPayout : Money
  lastPayoutAt : Option Timestamp
  refundUsed : Bool
  openPositions : List Position

def Account.standing (a : Account) : Standing where
  challengeId := a.challengeId
  estimatedEquity := a.estimatedEquity
  estimatedBalance := a.estimatedBalance
  startedAt := a.startedAt
  deadline := a.deadline
  totalRealizedPnl := a.totalRealizedPnl
  totalCommissions := a.totalCommissions
  totalSwaps := a.totalSwaps
  lastTickTs := a.lastTickTs
  lastTradeAt := a.lastTradeAt
  payoutCount := a.payoutCount
  balanceAtLastPayout := a.balanceAtLastPayout
  lastPayoutAt := a.lastPayoutAt
  refundUsed := a.refundUsed
  openPositions := a.openPositions

theorem Exchange.standing_eq (x : Exchange wire digest hash) : x.kept.standing = x.held.standing := by
  cases x.step with
  | unchanged hkept => rw [hkept]
  | processed c hbefore hafter hpipeline hev =>
      rw [← hbefore, ← hafter]
      exact c.served_reading hev.isServed Account.standing (fun _ => rfl) (fun _ _ _ _ => rfl)
        (fun _ _ => rfl) fun _ _ _ => rfl
  | evaluated e hrequest hacc hkept =>
      obtain ⟨-, evs, hdecision⟩ := e.decided
      obtain ⟨peakEquity, peakBalance, -, -, haccount⟩ := e.account_eq
      rw [← hkept, applyDecision_reading hdecision Account.standing (fun _ _ _ _ => rfl) (fun _ _ => rfl)
        fun _ _ _ => rfl, haccount, ← hacc]
      rfl

def Account.funds (a : Account) : Money × Money := (a.equity, a.balance)

/-- The equity and the balance that an exchange brings in, if it evaluates the account. -/
def Exchange.attested (x : Exchange wire digest hash) : Option (Money × Money) :=
  match x.request, x.answer with
  | .evaluate req _, .ok _ => if x.held.status.evaluationMode = .evaluate then req.attested else none
  | _, _ => none

theorem Exchange.attested_of_evaluate {x : Exchange wire digest hash} {req : InternalEvaluateRequest}
    {draws : ApiDraws} (hrequest : x.request = .evaluate req draws) (hanswer : ∃ r, x.answer = .ok r)
    (hmode : x.held.status.evaluationMode = .evaluate) : x.attested = req.attested := by
  obtain ⟨r, hanswer⟩ := hanswer
  unfold attested
  rw [hrequest, hanswer]
  exact if_pos hmode

theorem Exchange.attested_cases (x : Exchange wire digest hash) :
    x.attested = none ∨
      ∃ req draws r, x.request = .evaluate req draws ∧ x.answer = .ok r ∧
        x.held.status.evaluationMode = .evaluate ∧ x.attested = req.attested := by
  unfold attested
  split
  · rename_i req draws r hrequest hanswer
    split
    · rename_i hmode
      exact .inr ⟨req, draws, r, hrequest, hanswer, hmode, rfl⟩
    · exact .inl rfl
  · exact .inl rfl

theorem Answered.funds_eq {cache : RegistryCache} {apiDraws : ApiDraws} {tenantId : TenantId}
    {req : InternalEvaluateRequest} {r : InternalEvaluateResponse}
    (e : Answered wire digest hash cache apiDraws tenantId req r) :
    r.accountState.funds = req.attested.getD e.acc.funds := by
  obtain ⟨-, evs, hdecision⟩ := e.decided
  obtain ⟨peakEquity, peakBalance, -, -, haccount⟩ := e.account_eq
  rw [applyDecision_reading hdecision Account.funds (fun _ _ _ _ => rfl) (fun _ _ => rfl) fun _ _ _ => rfl,
    haccount]
  rfl

theorem Exchange.funds_eq (x : Exchange wire digest hash) : x.kept.funds = x.attested.getD x.held.funds := by
  rcases x.attested_cases with hnone | ⟨req, draws, r, hrequest, hanswer, hmode, hattested⟩
  · rw [hnone]
    cases x.step with
    | unchanged hkept => rw [hkept]; rfl
    | processed c hbefore hafter hpipeline hev =>
        rw [← hbefore, ← hafter]
        exact c.served_reading hev.isServed Account.funds (fun _ => rfl) (fun _ _ _ _ => rfl)
          (fun _ _ => rfl) fun _ _ _ => rfl
    | evaluated e hrequest hacc hkept hanswer hmode =>
        rw [← hkept, e.funds_eq, hacc, ← attested_of_evaluate hrequest hanswer hmode, hnone]
  · obtain ⟨_, _, e, hacc, hkept, -⟩ := evaluation hrequest hanswer hmode
    rw [hattested, ← hkept, e.funds_eq, hacc]

/-- No session books a trade, a tick, an estimate or a payout, and money only comes from a broker: what
stands is as at its start, and the equity and the balance are those of the last answered evaluation that
brought any. -/
theorem session_books_nothing (h : Session wire digest hash a xs b) :
    b.standing = a.standing ∧ b.funds = (xs.findSome? Exchange.attested).getD a.funds := by
  induction h with
  | nil => exact ⟨rfl, rfl⟩
  | cons x hpath ih =>
      refine ⟨x.standing_eq.trans ih.1, ?_⟩
      rw [x.funds_eq, ih.2, List.findSome?_cons]
      cases x.attested <;> rfl

theorem session_books_nothing_first :
    firstEvaluation.kept.standing = (firstDayAccount none).standing ∧
      firstEvaluation.kept.funds =
        ([firstEvaluation, firstManualRun].findSome? Exchange.attested).getD (firstDayAccount none).funds :=
  session_books_nothing (.cons firstEvaluation (.cons firstManualRun .nil))

/-! ## Days -/

/-- The days that count, with the current one if it has a result and was not counted. -/
def Account.daysInHand (a : Account) : ℕ :=
  a.activeTradingDays + if a.todayRealizedPnl ≠ 0 ∧ a.dayCountedToday = false then 1 else 0

theorem rollover_daysInHand {t : Timestamp} :
    (a.rollover (decide (a.todayRealizedPnl ≠ 0)) t).daysInHand = a.daysInHand := by
  by_cases hpnl : a.todayRealizedPnl = 0
  · simp [Account.daysInHand, Account.rollover, Account.openNextDay, hpnl]
  · cases hcounted : a.dayCountedToday <;>
      simp [Account.daysInHand, Account.rollover, Account.openNextDay, Account.closeTradedDay, hpnl, hcounted]

theorem rolled_daysInHand (starts : List Timestamp) (h : a.todayRealizedPnl = 0) :
    (a.rolled (starts.map fun d => (false, d))).daysInHand = a.daysInHand := by
  induction starts generalizing a with
  | nil => rfl
  | cons d ds ih =>
      have hone := rollover_daysInHand (a := a) (t := d)
      rw [decide_eq_false (not_not_intro h)] at hone
      exact (ih rfl).trans hone

theorem caughtUp_daysInHand (starts : List Timestamp) : (a.caughtUp starts).daysInHand = a.daysInHand := by
  cases starts with
  | nil => rfl
  | cons d ds => exact (rolled_daysInHand ds rfl).trans rollover_daysInHand

/-- Who lacks days is not promoted. -/
theorem applyDecision_short {d : Decision} {t : Timestamp} {actorId : String} {evs : List DomainEvent}
    (h : applyDecision a d t actorId = .ok (b, evs)) (hshort : a.daysInHand < a.plan.minTradingDays) :
    b.plan = a.plan ∧ b.daysInHand = a.daysInHand := by
  have hphase : b.plan.phase = a.plan.phase := by
    by_contra hpromoted
    have hdays := minTradingDays_le_of_promoted h hpromoted
    unfold Account.daysInHand at hshort
    omega
  exact ⟨applyDecision_unpromoted h hphase Account.plan (fun _ _ _ _ => rfl) fun _ _ _ => rfl,
    applyDecision_unpromoted h hphase Account.daysInHand (fun _ _ _ _ => rfl) fun _ _ _ => rfl⟩

theorem Exchange.short (x : Exchange wire digest hash)
    (hshort : x.held.daysInHand < x.held.plan.minTradingDays) :
    x.kept.plan = x.held.plan ∧ x.kept.daysInHand = x.held.daysInHand := by
  cases x.step with
  | unchanged hkept => rw [hkept]; exact ⟨rfl, rfl⟩
  | processed c hbefore hafter hpipeline hev =>
      obtain ⟨starts, status, memory, trades, d, t, actorId, evs, hdecision⟩ := c.served_decision hev.isServed
      rw [hbefore, hafter] at hdecision
      have hdays : ((x.held.caughtUp starts).rewritten status memory trades).daysInHand = x.held.daysInHand :=
        caughtUp_daysInHand starts
      have hplan : ((x.held.caughtUp starts).rewritten status memory trades).plan = x.held.plan :=
        eq_of_outsideDays rolled_outsideDays Account.plan fun _ => rfl
      have h := applyDecision_short hdecision (by rwa [hdays, hplan])
      rwa [hdays, hplan] at h
  | evaluated e hrequest hacc hkept =>
      obtain ⟨-, evs, hdecision⟩ := e.decided
      obtain ⟨peakEquity, peakBalance, -, -, haccount⟩ := e.account_eq
      rw [hkept] at hdecision
      have hdays : e.account.daysInHand = x.held.daysInHand := by rw [haccount, ← hacc]; rfl
      have hplan : e.account.plan = x.held.plan := by rw [haccount, ← hacc]
      have h := applyDecision_short hdecision (by rwa [hdays, hplan])
      rwa [hdays, hplan] at h

/-- The service earns no day, in any session, so an account that lacks days for a promotion is never
promoted. -/
theorem session_earns_no_day (h : Session wire digest hash a xs b)
    (hshort : a.daysInHand < a.plan.minTradingDays) : b.plan = a.plan ∧ b.daysInHand = a.daysInHand :=
  h.invariant (P := fun _ => True) (fun y => y.plan = a.plan ∧ y.daysInHand = a.daysInHand)
    (fun x _ hx => by
      obtain ⟨hplan, hdays⟩ := x.short (by rwa [hx.1, hx.2])
      exact ⟨hplan.trans hx.1, hdays.trans hx.2⟩) (fun _ _ => trivial) ⟨rfl, rfl⟩

theorem session_earns_no_day_first :
    firstEvaluation.answer.map (fun _ => ()) = .ok () ∧ firstEvaluation.kept.plan = .default ⟨1⟩ 0 ∧
      firstEvaluation.kept.daysInHand = 0 :=
  ⟨by decide +kernel,
    session_earns_no_day (.cons firstEvaluation (.cons firstManualRun .nil)) (by decide +kernel)⟩

/-- The account without what an evaluation writes. -/
def Account.outsideEvaluation (a : Account) : Account :=
  { a with
    equity := 0, balance := 0, peakEquity := 0, peakBalance := 0, status := .pending
    statusBeforeBreach := none, targetReachedAt := none, targetReachedOnDay := none }

theorem eq_of_outsideEvaluation (h : b.outsideEvaluation = a.outsideEvaluation) :
    b =
      { a with
        equity := b.equity, balance := b.balance, peakEquity := b.peakEquity, peakBalance := b.peakBalance
        status := b.status, statusBeforeBreach := b.statusBeforeBreach
        targetReachedAt := b.targetReachedAt, targetReachedOnDay := b.targetReachedOnDay } := by
  obtain ⟨⟩ := a
  obtain ⟨⟩ := b
  simp_all [Account.outsideEvaluation]

theorem Exchange.evaluate_frame (x : Exchange wire digest hash) (hrequest : x.request.isEvaluate = true)
    (hphase : x.kept.plan.phase = x.held.plan.phase) :
    x.kept.outsideEvaluation = x.held.outsideEvaluation ∧ x.held.peakEquity ≤ x.kept.peakEquity ∧
      x.held.peakBalance ≤ x.kept.peakBalance := by
  cases x.step with
  | unchanged hkept => rw [hkept]; exact ⟨rfl, le_rfl, le_rfl⟩
  | processed c hbefore hafter hpipeline hev =>
      rw [hev.isEvaluate_eq] at hrequest
      cases hrequest
  | evaluated e _ hacc hkept =>
      obtain ⟨-, evs, hdecision⟩ := e.decided
      obtain ⟨peakEquity, peakBalance, hequity, hbalance, haccount⟩ := e.account_eq
      rw [hkept, haccount, hacc] at hdecision
      rw [hacc] at hequity hbalance
      refine ⟨applyDecision_unpromoted hdecision hphase Account.outsideEvaluation (fun _ _ _ _ => rfl)
        fun _ _ _ => rfl, ?_, ?_⟩
      · rwa [applyDecision_unpromoted hdecision hphase Account.peakEquity (fun _ _ _ _ => rfl)
          fun _ _ _ => rfl]
      · rwa [applyDecision_unpromoted hdecision hphase Account.peakBalance (fun _ _ _ _ => rfl)
          fun _ _ _ => rfl]

/-- Evaluations alone never roll a day over: between two promotions they rewrite the money, the peaks, which
only rise, the status and the target, and leave every count, every reference of the day and the trades. -/
theorem evaluations_keep_day (h : Session wire digest hash a xs b)
    (hxs : ∀ x ∈ xs, x.request.isEvaluate = true ∧ x.kept.plan.phase = x.held.plan.phase) :
    b =
        { a with
          equity := b.equity, balance := b.balance, peakEquity := b.peakEquity, peakBalance := b.peakBalance
          status := b.status, statusBeforeBreach := b.statusBeforeBreach
          targetReachedAt := b.targetReachedAt, targetReachedOnDay := b.targetReachedOnDay } ∧
      a.peakEquity ≤ b.peakEquity ∧ a.peakBalance ≤ b.peakBalance := by
  have hframe : b.outsideEvaluation = a.outsideEvaluation ∧ a.peakEquity ≤ b.peakEquity ∧
      a.peakBalance ≤ b.peakBalance :=
    h.invariant (fun y => y.outsideEvaluation = a.outsideEvaluation ∧ a.peakEquity ≤ y.peakEquity ∧
        a.peakBalance ≤ y.peakBalance)
      (fun x hx hy => by
        obtain ⟨heq, hequity, hbalance⟩ := x.evaluate_frame hx.1 hx.2
        exact ⟨heq.trans hy.1, hy.2.1.trans hequity, hy.2.2.trans hbalance⟩) hxs ⟨rfl, le_rfl, le_rfl⟩
  exact ⟨eq_of_outsideEvaluation hframe.1, hframe.2⟩

theorem evaluations_keep_day_twice :
    firstEvaluation.answer.map (fun _ => ()) = .ok () ∧ secondEvaluation.answer.map (fun _ => ()) = .ok () ∧
      secondEvaluation.kept.dayStartBalance = firstManualRun.kept.dayStartBalance ∧
      firstManualRun.kept.peakEquity ≤ secondEvaluation.kept.peakEquity := by
  obtain ⟨hframe, hequity, -⟩ := evaluations_keep_day (.cons secondEvaluation (.cons firstEvaluation .nil))
    (by simp only [List.forall_mem_cons, List.not_mem_nil, false_imp_iff, implies_true, and_true]
        decide +kernel)
  have hday := congrArg Account.dayStartBalance hframe
  exact ⟨by decide +kernel, by decide +kernel, hday, hequity⟩

end Sessions

end Propfirm
