import Propfirm.Api.Lemmas.Parity

/-!
# The evaluate endpoint against the pipeline
-/

namespace Propfirm

open Fallible

variable {wire : WireFormat} {digest : List FieldValue → String} {hash : List FieldValue → UInt64}
  {cache : RegistryCache} {draws : ApiDraws} {tenantId : TenantId} {accountId : AccountId}
  {req : InternalEvaluateRequest} {r : InternalEvaluateResponse} {a acc : Account} {tick : Tick}
  {equity balance : Money} {p : Pipeline} {env : Env} {s : PipelineResult}

/-- A request that attests the broker's equity and balance at the time of a tick, in either shape. -/
inductive BrokerTick (wire : WireFormat) (a : Account) (tick : Tick) (equity balance : Money)
    (req : InternalEvaluateRequest) : Prop
  | legacy (state : req.accountState = some { a with equity, balance })
      (bridge : req.bridgeTick = none) (source : req.equitySource = some "broker_reported")
      (quote : req.tick = some tick)
  | bridge (payload : BridgeTickPayload) (state : req.accountState = some a)
      (bridge : req.bridgeTick = some payload) (equityCents : equity = payload.equityCents / 100)
      (balanceCents : balance = payload.balanceCents / 100)
      (time : wire.fromTimestampMillis payload.brokerTime = some tick.quote.ts)

/-- The decision and the fields of the account on which the two paths should agree. -/
structure SameOutcome (r : InternalEvaluateResponse) (s : PipelineResult) : Prop where
  decisionKind : r.decisionKind = s.result.decision.kind.debug
  balance : r.accountState.balance = s.account.balance
  equity : r.accountState.equity = s.account.equity
  peakEquity : r.accountState.peakEquity = s.account.peakEquity
  peakBalance : r.accountState.peakBalance = s.account.peakBalance
  intradayPeakEquity : r.accountState.intradayPeakEquity = s.account.intradayPeakEquity
  status : r.accountState.status = s.account.status
  phase : r.accountState.plan.phase = s.account.plan.phase
  targetReachedAt : r.accountState.targetReachedAt = s.account.targetReachedAt
  targetReachedOnDay : r.accountState.targetReachedOnDay = s.account.targetReachedOnDay
  tradingDayIndex : r.accountState.tradingDayIndex = s.account.tradingDayIndex
  activeTradingDays : r.accountState.activeTradingDays = s.account.activeTradingDays
  dayCountedToday : r.accountState.dayCountedToday = s.account.dayCountedToday
  profitableDaysCount : r.accountState.profitableDaysCount = s.account.profitableDaysCount
  qualifyingTradingDaysCount :
    r.accountState.qualifyingTradingDaysCount = s.account.qualifyingTradingDaysCount
  lastTickTs : r.accountState.lastTickTs = s.account.lastTickTs

def EndpointAccepts (x : ApiOutcome InternalEvaluateResponse) : Prop :=
  ∀ msg, x ≠ .error (.status .unprocessableEntity msg)

def PipelineAccepts (y : Outcome PipelineResult) : Prop := ∀ msg, y ≠ .error (.error (.tickRejected msg))

/-- The two paths refuse the same ticks, and give the same result on the others. -/
def RefinesTick (x : ApiOutcome InternalEvaluateResponse) (y : Outcome PipelineResult) : Prop :=
  (EndpointAccepts x ↔ PipelineAccepts y) ∧
    (EndpointAccepts x → ∃ r s, x = .ok r ∧ y = .ok s ∧ SameOutcome r s)

/-! ## What the endpoint keeps -/

theorem parse_broker_reported : EquitySource.parse "broker_reported" = .ok .brokerReported := by
  decide +kernel

theorem BrokerTick.source_eq (h : BrokerTick wire a tick equity balance req) :
    req.source = .ok .brokerReported := by
  cases h with
  | legacy state bridge source =>
      have hnot : "broker_reported" ≠ "estimated" := by decide
      simp only [InternalEvaluateRequest.source, bridge, source, if_neg hnot, parse_broker_reported,
        ApiOutcome.ofOutcome]
  | bridge payload state bridge => simp only [InternalEvaluateRequest.source, bridge]

theorem BrokerTick.state (h : BrokerTick wire a tick equity balance req)
    (hacc : req.accountState = some acc) :
    acc.lastTickTs = a.lastTickTs ∧ acc.status = a.status ∧ acc.plan = a.plan := by
  cases h with
  | legacy state => rw [← Option.some.inj (state.symm.trans hacc)]; exact ⟨rfl, rfl, rfl⟩
  | bridge payload state => rw [← Option.some.inj (state.symm.trans hacc)]; exact ⟨rfl, rfl, rfl⟩

theorem BrokerTick.ingest (h : BrokerTick wire a tick equity balance req)
    (hacc : req.accountState = some acc) {i : InternalEvaluateRequest.Ingested}
    (hi : req.ingest wire draws accountId acc = .ok i) :
    i.account = { a with equity, balance } ∧ i.serverTime = tick.quote.ts := by
  unfold InternalEvaluateRequest.ingest at hi
  cases h with
  | legacy state bridge source quote =>
      obtain rfl := Option.some.inj (state.symm.trans hacc)
      simp only [bridge, InternalEvaluateRequest.ingestTick, quote] at hi
      obtain ⟨_, -, hi⟩ := bind_eq_ok.mp hi
      obtain ⟨_, -, hi⟩ := bind_eq_ok.mp hi
      obtain rfl := pure_eq_ok.mp hi
      exact ⟨rfl, rfl⟩
  | bridge payload state bridge equityCents balanceCents time =>
      obtain rfl := Option.some.inj (state.symm.trans hacc)
      simp only [bridge, InternalEvaluateRequest.ingestBridge, time] at hi
      obtain ⟨_, -, hi⟩ := bind_eq_ok.mp hi
      obtain ⟨_, -, hi⟩ := bind_eq_ok.mp hi
      obtain rfl := pure_eq_ok.mp hi
      exact ⟨by rw [equityCents, balanceCents], rfl⟩

/-- No response moves the time of the last tick. -/
theorem evaluateInternal_lastTickTs (h : BrokerTick wire a tick equity balance req)
    (hr : evaluateInternal wire digest hash cache draws tenantId req = .ok r) :
    r.accountState.lastTickTs = a.lastTickTs := by
  rcases evaluateInternal_ok hr with ⟨acc, hacc, -, rfl⟩ | ⟨⟨e⟩⟩
  · exact (h.state hacc).1
  · obtain ⟨-, evs, hdecided⟩ := e.decided
    have hraise : e.account.lastTickTs = e.ingested.account.lastTickTs := by
      unfold Answered.account
      cases e.source <;> rfl
    rw [(applyDecision_tape hdecided).2, hraise, (h.ingest e.state_eq e.ingest_eq).1]

/-- A tick at the wall clock is never refused by the endpoint. -/
theorem evaluateInternal_accepts (h : BrokerTick wire a tick equity balance req)
    (hnow : draws.now = tick.quote.ts) :
    EndpointAccepts (evaluateInternal wire digest hash cache draws tenantId req) := by
  have hfails : FailsOnly ApiFault.NotRejection
      (evaluateInternal wire digest hash cache draws tenantId req) := by
    refine evaluateInternal_failsOnly fun accountId acc i hacc hi => ?_
    rw [(h.ingest hacc hi).2, hnow, rejectStale, sub_self]
    rfl
  exact fun msg he => hfails _ he msg rfl

/-! ## What the pipeline does -/

/-- The pipeline takes a tick only if it is newer than the last one, and then records it. -/
theorem process_tick_lastTickTs (h : p.process env a (.tick tick equity balance) = .ok s) :
    a.lastTickTs ≠ some tick.quote.ts ∧ s.account.lastTickTs = some tick.quote.ts := by
  obtain ⟨passage⟩ := Pipeline.process_passage h
  constructor
  · intro hlast
    obtain ⟨trades, htransition⟩ := applyEvent_transition passage.apply_eq
    have hrouted : passage.routed.lastTickTs = a.lastTickTs :=
      passage.routed_reading Account.lastTickTs fun _ => rfl
    generalize passage.applied.account = b at htransition
    cases htransition with
    | tick hadmit =>
        simp only [hrouted, hlast, admitTick, le_refl, if_true] at hadmit
        split at hadmit <;> cases hadmit
  · rw [passage.account_eq]
    rfl

/-! ## Agreement -/

def prunedTrades (a : Account) (dayStart : Timestamp) : List Trade :=
  a.todayTrades.filter fun t => decide (dayStart ≤ t.executedAt)

/-- One tick on both paths: the account is evaluated, on the day of the tick, with both clocks at the
tick, both under the rules of one plan, and the request lists what the account holds. -/
structure SameTick (wire : WireFormat) (hash : List FieldValue → UInt64) (cache : RegistryCache)
    (draws : ApiDraws) (p : Pipeline) (env : Env) (a : Account) (tick : Tick)
    (equity balance : Money) (req : InternalEvaluateRequest) (dayStart : Timestamp) : Prop where
  request : BrokerTick wire a tick equity balance req
  evaluable : a.status.evaluationMode ≠ .skip
  day : a.plan.tradingDayStart tick.quote.ts = .ok dayStart
  day_stored : a.currentTradingDayStart = some dayStart
  contextNow : env.contextNow = tick.quote.ts
  rules : ∃ plan, p.registry = .withDefaultRulesForPlan plan ∧
    (cache.getOrBuild hash a.plan).1 = .withDefaultRulesForPlan plan
  references : req.crossReferenceTrades = none
  openPositions : ∀ accountId acc i, req.ingest wire draws accountId acc = .ok i →
    i.openPositions.map Position.erase = a.openPositions.map Position.erase
  todayTrades : ∀ accountId acc i, req.ingest wire draws accountId acc = .ok i →
    i.todayTrades.map Trade.eraseToday = (prunedTrades a dayStart).map Trade.eraseToday

/-- The account as both paths have it before the rules are asked, but for the pruned trades and the
intraday peak. -/
def ticked (a : Account) (equity balance : Money) : Account :=
  raisePeaks .brokerReported { a with equity, balance }

def tickedPeak (a : Account) (equity : Money) : Money :=
  if a.intradayPeakEquity < equity then equity else a.intradayPeakEquity

section Agreement

variable {dayStart : Timestamp}

theorem SameTick.applied_eq
    (h : SameTick wire hash cache draws p env a tick equity balance req dayStart)
    (e : Evaluated env a (.tick tick equity balance)) :
    e.applied =
      { account :=
          (ticked a equity balance).withTape (tickedPeak a equity) (prunedTrades a dayStart)
            a.lastTickTs
        ctxKind := .onTick
        openPositions := a.openPositions
        todayTrades := prunedTrades a dayStart
        tradeFill := none
        events := [⟨a.id, .tickEvaluated equity, tick.quote.ts⟩] } := by
  have hroute := e.route_eq
  have happly := e.apply_eq
  simp only [route, PipelineEvent.isDayRollover, autoRollover, PipelineEvent.eventTimestamp, h.day,
    Account.dayStartOr, h.day_stored, bind, Except.bind, pure, Except.pure, lt_irrefl,
    Bool.false_eq_true, if_false] at hroute
  obtain ⟨hrouted, -⟩ := Prod.mk.inj (Except.ok.inj hroute)
  rw [← hrouted] at happly
  simp only [applyEvent, PipelineEvent.eventTimestamp, h.day, bind, Except.bind, applyBranch] at happly
  split at happly
  · cases happly
  · exact (pure_eq_ok.mp happly).symm

theorem SameTick.answered
    (h : SameTick wire hash cache draws p env a tick equity balance req dayStart)
    (hr : evaluateInternal wire digest hash cache draws tenantId req = .ok r) :
    ∃ e : Answered wire digest hash cache draws tenantId req r,
      e.account = ticked a equity balance ∧ e.acc.plan = a.plan ∧ e.source = .brokerReported ∧
        e.references = [] ∧ e.ingested.serverTime = tick.quote.ts := by
  rcases evaluateInternal_ok hr with ⟨acc, hacc, hskip, -⟩ | ⟨⟨e⟩⟩
  · rw [(h.request.state hacc).2.1] at hskip
    exact absurd hskip h.evaluable
  · have hsource : e.source = .brokerReported :=
      Except.ok.inj (e.source_eq.symm.trans h.request.source_eq)
    have hreferences : e.references = [] := by
      have hrefs := e.references_eq
      simp only [InternalEvaluateRequest.references, h.references] at hrefs
      exact (Except.ok.inj hrefs).symm
    obtain ⟨haccount, htime⟩ := h.request.ingest e.state_eq e.ingest_eq
    refine ⟨e, ?_, (h.request.state e.state_eq).2.2, hsource, hreferences, htime⟩
    rw [Answered.account, hsource, haccount, ticked]

/-- Up to what no rule reads, the two paths put the same context before the rules, unless the equity
raises the intraday peak. -/
theorem SameTick.erase_context
    (h : SameTick wire hash cache draws p env a tick equity balance req dayStart)
    (hpeak : equity ≤ a.intradayPeakEquity) (e : Evaluated env a (.tick tick equity balance))
    {f : Answered wire digest hash cache draws tenantId req r}
    (haccount : f.account = ticked a equity balance) (hsource : f.source = .brokerReported)
    (hreferences : f.references = []) (htime : f.ingested.serverTime = tick.quote.ts) :
    (Pure.context draws.evaluation f.account .onTick f.ingested.serverTime f.inputs).erase =
      e.ctx.erase := by
  have hkept : tickedPeak a equity = a.intradayPeakEquity := if_neg (not_lt.mpr hpeak)
  have herase : ((ticked a equity balance).withTape a.intradayPeakEquity (prunedTrades a dayStart)
      a.lastTickTs).erase = (ticked a equity balance).erase := rfl
  simp only [Evaluated.ctx, h.applied_eq e, hkept, buildContext, RuleContext.erase, Pure.context,
    Answered.inputs, ingested_inputs, haccount, hsource, hreferences, htime, herase, RuleContext.new,
    h.contextNow, h.openPositions _ _ _ f.ingest_eq, h.todayTrades _ _ _ f.ingest_eq]
  rfl

/-- The pipeline applies its decision to the account the endpoint evaluates, and keeps its own
intraday peak, trades and last tick. -/
theorem SameTick.account_eq
    (h : SameTick wire hash cache draws p env a tick equity balance req dayStart)
    (passage : Passage p env a (.tick tick equity balance) s) :
    ∃ b evs,
      applyDecision (ticked a equity balance) (passage.decision p) tick.quote.ts "rule_engine" =
          .ok (b, evs) ∧
        s.account = b.withTape (tickedPeak a equity) (prunedTrades a dayStart) (some tick.quote.ts) := by
  have hfilled : passage.filled = (ticked a equity balance).withTape (tickedPeak a equity)
      (prunedTrades a dayStart) a.lastTickTs := by
    rw [Evaluated.filled, h.applied_eq passage.toEvaluated]
    rfl
  obtain ⟨evs, hdecision⟩ := passage.applyDecision_eq
  rw [hfilled, h.contextNow, applyDecision_withTape] at hdecision
  obtain ⟨⟨b, evs⟩, hb, hdecided⟩ := map_eq_ok.mp hdecision
  obtain ⟨hterminated, -⟩ := Prod.mk.inj hdecided
  refine ⟨b, evs, hb, ?_⟩
  rw [passage.account_eq, ← hterminated]
  rfl

/-- Where both paths return, they take the same decision and leave the same account, but for the
pruned trades and the last tick, exactly when the equity does not raise the intraday peak. -/
theorem endpoint_agrees_iff
    (h : SameTick wire hash cache draws p env a tick equity balance req dayStart)
    (hr : evaluateInternal wire digest hash cache draws tenantId req = .ok r)
    (hs : p.process env a (.tick tick equity balance) = .ok s) :
    (r.decisionKind = s.result.decision.kind.debug ∧
        s.account = r.accountState.withTape r.accountState.intradayPeakEquity s.account.todayTrades
          s.account.lastTickTs) ↔
      equity ≤ a.intradayPeakEquity := by
  obtain ⟨passage⟩ := Pipeline.process_passage hs
  obtain ⟨f, haccount, hplan, hsource, hreferences, htime⟩ := h.answered hr
  obtain ⟨hkind, evs, hdecided⟩ := f.decided
  obtain ⟨b, evs', hb, hsb⟩ := h.account_eq passage
  rw [haccount, htime] at hdecided
  have hpeak : r.accountState.intradayPeakEquity = a.intradayPeakEquity := (applyDecision_tape hdecided).1
  constructor
  · rintro ⟨-, hsame⟩
    by_contra hlt
    have hraised : s.account.intradayPeakEquity = equity := by
      rw [hsb]; exact if_pos (not_le.mp hlt)
    rw [hsame] at hraised
    exact hlt (hraised.symm.trans hpeak).le
  · intro hle
    obtain ⟨plan, hpipeline, hcached⟩ := h.rules
    have hshape := Pure.shape_of_erase_eq
      (h.erase_context hle passage.toEvaluated haccount hsource hreferences htime) plan
      draws.evaluation.reportNow env.reportNow
    have hdecision : f.decision.kind = (passage.decision p).kind := by
      rw [Answered.decision, hplan, hcached, Evaluated.decision, Evaluated.reports, hpipeline]
      exact congrArg Prod.fst (Decision.shape_congr hshape)
    have hresult : r.accountState = b := by
      have hcongr := @applyDecision_congr (ticked a equity balance) _ _ tick.quote.ts
        "evaluate_internal" "rule_engine" hdecision
      rw [hdecided, hb] at hcongr
      exact Except.ok.inj hcongr
    refine ⟨by rw [hkind, hdecision, passage.result_eq], ?_⟩
    rw [hpeak, hresult, hsb, tickedPeak, if_neg (not_lt.mpr hle)]
    rfl

end Agreement

/-! ## Refinement -/

/-- On no tick at the wall clock does the endpoint refine the pipeline: the pipeline refuses a tick
that is not newer than the last one and records every other, the endpoint does neither. -/
theorem endpoint_never_refines_pipeline (wire : WireFormat) (digest : List FieldValue → String)
    (hash : List FieldValue → UInt64) (cache : RegistryCache) (draws : ApiDraws)
    (tenantId : TenantId) (p : Pipeline) (env : Env) (a : Account) (tick : Tick)
    (equity balance : Money) (req : InternalEvaluateRequest)
    (hreq : BrokerTick wire a tick equity balance req) (hnow : draws.now = tick.quote.ts) :
    ¬RefinesTick (evaluateInternal wire digest hash cache draws tenantId req)
      (p.process env a (.tick tick equity balance)) := by
  rintro ⟨-, hsame⟩
  obtain ⟨r, s, hr, hs, hsame⟩ := hsame (evaluateInternal_accepts hreq hnow)
  obtain ⟨hnewer, hrecorded⟩ := process_tick_lastTickTs hs
  have hkept := evaluateInternal_lastTickTs hreq hr
  exact hnewer (hkept.symm.trans (hsame.lastTickTs.trans hrecorded))

/-! ## A tick on both paths -/

def plainWire : WireFormat where
  parseUuid := fun _ => .ok 1
  showUuid := fun _ => ""
  fromTimestampMillis := fun ms => some (ms * 1000000)
  toUppercase := String.toUpper

def ApiDraws.at (t : Timestamp) : ApiDraws where
  now := t
  crossReferenceAccountId := ⟨2⟩
  crossReferenceIds := fun _ => ⟨⟨0⟩, ⟨0⟩, ⟨0⟩⟩
  todayIds := fun _ => ⟨⟨0⟩, ⟨0⟩, ⟨0⟩⟩
  evaluation := ⟨fun _ => ⟨0⟩, t, t⟩

def firstDayAccount (lastTickTs : Option Timestamp) : Account :=
  { Account.new ⟨1⟩ ⟨1⟩ (.default ⟨1⟩ 0) with
    status := .active, startedAt := some 0, currentTradingDayStart := some 0, lastTickTs }

def firstHourTick : Tick := ⟨⟨"EURUSD"⟩, ⟨1, 1, Duration.hours 1⟩⟩

def legacyRequest (a : Account) (tick : Tick) (equity balance : Money) : InternalEvaluateRequest where
  accountId := "1"
  accountState := some { a with equity, balance }
  rulePack := none
  bridgeTick := none
  tick := some tick
  equitySource := some "broker_reported"
  openPositions := none
  todayTrades := none
  crossReferenceTrades := none

theorem sameTick_first : SameTick plainWire (fun _ => 0) .empty (.at (Duration.hours 1))
    (.ofPlan (.default ⟨1⟩ 0)) (.at (Duration.hours 1)) (firstDayAccount none) firstHourTick 10000 10000
    (legacyRequest (firstDayAccount none) firstHourTick 10000 10000) 0 where
  request := .legacy rfl rfl rfl rfl
  evaluable := by decide
  day := by decide +kernel
  day_stored := rfl
  contextNow := rfl
  rules := ⟨_, rfl, rfl⟩
  references := rfl
  openPositions := fun _ _ _ hi => by cases hi; rfl
  todayTrades := fun _ _ _ hi => by cases hi; rfl

theorem endpoint_agrees_first :
    ∃ r s,
      evaluateInternal plainWire (fun _ => "") (fun _ => 0) .empty (.at (Duration.hours 1)) ⟨1⟩
          (legacyRequest (firstDayAccount none) firstHourTick 10000 10000) = .ok r ∧
        (Pipeline.ofPlan (.default ⟨1⟩ 0)).process (.at (Duration.hours 1)) (firstDayAccount none)
          (.tick firstHourTick 10000 10000) = .ok s ∧
        r.decisionKind = s.result.decision.kind.debug ∧
        s.account = r.accountState.withTape r.accountState.intradayPeakEquity s.account.todayTrades
          s.account.lastTickTs := by
  have hanswer : (evaluateInternal plainWire (fun _ => "") (fun _ => 0) .empty (.at (Duration.hours 1)) ⟨1⟩
      (legacyRequest (firstDayAccount none) firstHourTick 10000 10000)).map (fun r => r.evaluated) =
        .ok true := by
    decide +kernel
  have hprocess : ((Pipeline.ofPlan (.default ⟨1⟩ 0)).process (.at (Duration.hours 1)) (firstDayAccount none)
      (.tick firstHourTick 10000 10000)).map (fun s => s.account.intradayPeakEquity) = .ok 10000 := by
    decide +kernel
  obtain ⟨r, hr, -⟩ := map_eq_ok.mp hanswer
  obtain ⟨s, hs, -⟩ := map_eq_ok.mp hprocess
  obtain ⟨hkind, haccount⟩ := (endpoint_agrees_iff sameTick_first hr hs).mpr le_rfl
  exact ⟨r, s, hr, hs, hkind, haccount⟩

theorem endpoint_never_refines_pipeline_first :
    ¬RefinesTick
      (evaluateInternal plainWire (fun _ => "") (fun _ => 0) .empty (.at (Duration.hours 1)) ⟨1⟩
        (legacyRequest (firstDayAccount none) firstHourTick 10100 10000))
      ((Pipeline.ofPlan (.default ⟨1⟩ 0)).process (.at (Duration.hours 1)) (firstDayAccount none)
        (.tick firstHourTick 10100 10000)) :=
  endpoint_never_refines_pipeline plainWire (fun _ => "") (fun _ => 0) .empty (.at (Duration.hours 1))
    ⟨1⟩ (.ofPlan (.default ⟨1⟩ 0)) (.at (Duration.hours 1)) (firstDayAccount none) firstHourTick 10100
    10000 (legacyRequest (firstDayAccount none) firstHourTick 10100 10000) (.legacy rfl rfl rfl rfl) rfl

/-- The endpoint neither records the tick nor raises the intraday peak, and it accepts the tick again
where the pipeline refuses it. -/
theorem endpoint_diverges_from_pipeline :
    (evaluateInternal plainWire (fun _ => "") (fun _ => 0) .empty (.at (Duration.hours 1)) ⟨1⟩
        (legacyRequest (firstDayAccount none) firstHourTick 10100 10000)).map
      (fun r => (r.accountState.lastTickTs, r.accountState.intradayPeakEquity)) = .ok (none, 10000) ∧
    ((Pipeline.ofPlan (.default ⟨1⟩ 0)).process (.at (Duration.hours 1)) (firstDayAccount none)
        (.tick firstHourTick 10100 10000)).map
      (fun s => (s.account.lastTickTs, s.account.intradayPeakEquity)) =
        .ok (some (Duration.hours 1), 10100) ∧
    (evaluateInternal plainWire (fun _ => "") (fun _ => 0) .empty (.at (Duration.hours 1)) ⟨1⟩
        (legacyRequest (firstDayAccount (some (Duration.hours 1))) firstHourTick 10100 10000)).map
      (fun r => r.evaluated) = .ok true ∧
    ((Pipeline.ofPlan (.default ⟨1⟩ 0)).process (.at (Duration.hours 1))
        (firstDayAccount (some (Duration.hours 1))) (.tick firstHourTick 10100 10000)).map
      (fun s => s.account.lastTickTs) =
        .error (.error (.tickRejected
          [.lit "tick ts ", .time (Duration.hours 1), .lit " is not newer than last-evaluated ts ",
            .time (Duration.hours 1), .lit " — refusing to evaluate out-of-order tick"])) := by
  decide +kernel

end Propfirm
