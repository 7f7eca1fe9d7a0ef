import Propfirm.Api.Theorems

/-!
# The command line

The command line evaluates one request a line, in the form of the evaluate endpoint, without a server. It has
its own path to the rules: it does not check who asks, and knows neither the bridge's figures, nor the trades of
other accounts, nor the cache of registries.
-/

namespace Propfirm

open Fallible

/-! ## A line -/

/-- How a line can end without an answer. -/
inductive ReplFault where
  | error (msg : Text)
  | panic (msg : String)
deriving DecidableEq

abbrev ReplOutcome (α : Type) := Except ReplFault α

namespace ReplOutcome

variable {α : Type}

def ofText (label : String) : Except String α → ReplOutcome α
  | .ok a => .ok a
  | .error e => .error (.error [.lit label, .lit e])

def ofOutcome (label : String) : Outcome α → ReplOutcome α
  | .ok a => .ok a
  | .error (.error e) => .error (.error (.lit label :: e.display))
  | .error (.panic msg) | .error (.overflow msg) => .error (.panic msg)

end ReplOutcome

structure ReplReport where
  ruleName : String
  verdict : RuleVerdict
  priority : ℕ
deriving DecidableEq

/-- The part of the account that is printed. -/
structure ReplState where
  status : AccountStatus
  balance : Money
  equity : Money
  peakBalance : Money
  dailyDrawdown : Money
deriving DecidableEq

def ReplState.ofAccount (a : Account) : ReplState where
  status := a.status
  balance := a.balance
  equity := a.equity
  peakBalance := a.peakBalance
  dailyDrawdown := a.dailyDrawdown

structure ReplOutput where
  decisionKind : String
  winningPriority : ℕ
  inputHash : String
  packId : String
  packVersion : ℕ
  reports : List ReplReport
  accountState : ReplState
deriving DecidableEq

namespace InternalEvaluateRequest

/-- The tenant is that of the account, printed and read again. -/
def replTenant (wire : WireFormat) (req : InternalEvaluateRequest) : ReplOutcome ℕ :=
  .ofText "invalid tenant_id: " (wire.parseUuid
    ((req.accountState.map fun a => wire.showUuid a.tenantId.raw).getD
      "00000000-0000-0000-0000-000000000000"))

def replSource (req : InternalEvaluateRequest) : ReplOutcome EquitySource :=
  match req.bridgeTick, req.equitySource with
  | some _, _ => .ok .brokerReported
  | none, none => .ok .estimated
  | none, some s =>
      if s = "estimated" then .ok .estimated
      else .ofOutcome "invalid equity_source: " (EquitySource.parse s)

/-- The time of the bridge, or else of the tick, or else of the wall clock. -/
def replServerTime (wire : WireFormat) (draws : ApiDraws) (req : InternalEvaluateRequest) :
    ReplOutcome Timestamp :=
  match req.bridgeTick with
  | some payload =>
      match wire.fromTimestampMillis payload.brokerTime with
      | none => .error (.error [.lit "invalid broker_time"])
      | some serverTime => .ok serverTime
  | none => .ok (req.tick.elim draws.now fun tick => tick.quote.ts)

def replInputs (req : InternalEvaluateRequest) (openPositions : List Position) (todayTrades : List Trade)
    (source : EquitySource) : EvaluateInputs :=
  match req.tick with
  | some tick => (EvaluateInputs.forTick openPositions todayTrades tick).withEquitySource source
  | none => { EvaluateInputs.default with openPositions, todayTrades, equitySource := source }

end InternalEvaluateRequest

section Line

variable (wire : WireFormat) (digest : List FieldValue → String) (draws : ApiDraws)

def evaluateReplLine (accountId : AccountId) (tenantId : TenantId) (acc : Account) (serverTime : Timestamp)
    (inputs : EvaluateInputs) : ReplOutcome ReplOutput := do
  let verdict := Pure.evaluate digest draws.evaluation acc
    (.syntheticFromPlan wire digest accountId tenantId acc.plan) (.withDefaultRulesForPlan acc.plan) .onTick
    serverTime inputs
  let (final, _) ← .ofOutcome "" (applyDecision acc verdict.decision serverTime "repl")
  pure
    { decisionKind := verdict.decision.kind.debug
      winningPriority := verdict.decision.winningPriority
      inputHash := verdict.inputHash
      packId := verdict.packId
      packVersion := verdict.packVersion
      reports := verdict.reports.map fun r => ⟨r.ruleName, r.verdict, r.priority⟩
      accountState := .ofAccount final }

def processOneReplLine (req : InternalEvaluateRequest) : ReplOutcome ReplOutput := do
  let raw ← .ofText "invalid account_id: " (wire.parseUuid req.accountId)
  let tenant ← req.replTenant wire
  match req.accountState with
  | none => .error (.error [.lit "account_state is required"])
  | some acc => do
      let source ← req.replSource
      let openPositions ← .ofText "" (convertFrom
        (fun _ p => PositionDto.intoDomain wire ⟨raw⟩ p) 0 (req.openPositions.getD []))
      let todayTrades ← .ofText "" (convertFrom (fun i t => t.intoDomain wire ⟨raw⟩ (draws.todayIds i)) 0
        (req.todayTrades.getD []))
      let serverTime ← req.replServerTime wire draws
      evaluateReplLine wire digest draws ⟨raw⟩ ⟨tenant⟩ acc serverTime
        (req.replInputs openPositions todayTrades source)

end Line

/-! ## Agreement with the endpoint -/

variable {wire : WireFormat} {digest : List FieldValue → String} {hash : List FieldValue → UInt64}
  {cache : RegistryCache} {draws : ApiDraws} {tenantId : TenantId} {accountId : AccountId}
  {req : InternalEvaluateRequest} {r : InternalEvaluateResponse} {acc : Account} {source : EquitySource}

/-- A tick request that the command line can evaluate as the endpoint does: what only the endpoint reads is
absent, the cached registry is that of the plan, and broker figures raise no peak. -/
structure Replayable (wire : WireFormat) (hash : List FieldValue → UInt64) (cache : RegistryCache)
    (req : InternalEvaluateRequest) (acc : Account) : Prop where
  state_eq : req.accountState = some acc
  evaluable : acc.status.evaluationMode = .evaluate
  tenant_reads : wire.parseUuid (wire.showUuid acc.tenantId.raw) = .ok acc.tenantId.raw
  bridgeTick_eq : req.bridgeTick = none
  references_eq : req.crossReferenceTrades.getD [] = []
  registry_eq : (cache.getOrBuild hash acc.plan).1 = .withDefaultRulesForPlan acc.plan
  peaks : req.source = .ok .brokerReported → acc.equity ≤ acc.peakEquity ∧ acc.balance ≤ acc.peakBalance

theorem evaluateInternal_inv (h : evaluateInternal wire digest hash cache draws tenantId req = .ok r)
    (hstate : req.accountState = some acc) (hmode : acc.status.evaluationMode = .evaluate) :
    ∃ raw source references ingested,
      wire.parseUuid req.accountId = .ok raw ∧ acc.tenantId = tenantId ∧ req.source = .ok source ∧
        req.references wire draws ⟨raw⟩ = .ok references ∧ req.ingest wire draws ⟨raw⟩ acc = .ok ingested ∧
        evaluateIngested wire digest hash cache draws ⟨raw⟩ tenantId acc.plan source references ingested =
          .ok r := by
  obtain ⟨raw, hraw, h⟩ := bind_eq_ok.mp h
  obtain ⟨source, hsource, h⟩ := bind_eq_ok.mp h
  rw [hstate] at h
  obtain ⟨⟨⟩, hvalid, h⟩ := bind_eq_ok.mp h
  obtain ⟨-, htenant⟩ := validateAccountState_ok.mp hvalid
  rw [evaluateState, hmode, if_neg (by decide)] at h
  split at h
  · cases h
  · obtain ⟨references, hreferences, h⟩ := bind_eq_ok.mp h
    obtain ⟨ingested, hingest, h⟩ := bind_eq_ok.mp h
    exact ⟨raw, source, references, ingested, ofText_eq_ok.mp hraw, htenant, hsource, hreferences, hingest, h⟩

theorem replSource_eq (h : req.source = .ok source) : req.replSource = .ok source := by
  unfold InternalEvaluateRequest.source at h
  unfold InternalEvaluateRequest.replSource
  cases hbridge : req.bridgeTick with
  | some payload =>
      rw [hbridge] at h
      exact congrArg Except.ok (Except.ok.inj h)
  | none =>
      rw [hbridge] at h
      cases htext : req.equitySource with
      | none =>
          rw [htext] at h
          exact congrArg Except.ok (Except.ok.inj h)
      | some text =>
          rw [htext] at h
          dsimp only at h ⊢
          split
          · rename_i hestimated
            rw [if_pos hestimated] at h
            exact congrArg Except.ok (Except.ok.inj h)
          · rename_i hestimated
            rw [if_neg hestimated] at h
            rw [ofOutcome_eq_ok.mp h]
            rfl

/-- Who is said to act does not show in the account. -/
theorem applyDecision_actor {a b : Account} {d : Decision} {t : Timestamp} {evs : List DomainEvent}
    {actorId : String} (actorId' : String) (h : applyDecision a d t actorId = .ok (b, evs)) :
    ∃ evs', applyDecision a d t actorId' = .ok (b, evs') := by
  have hcongr := @applyDecision_congr a d d t actorId' actorId rfl
  rw [h] at hcongr
  obtain ⟨⟨b', evs'⟩, h', rfl⟩ := map_eq_ok.mp hcongr
  exact ⟨evs', h'⟩

theorem raisePeaks_eq_self
    (h : source = .brokerReported → acc.equity ≤ acc.peakEquity ∧ acc.balance ≤ acc.peakBalance) :
    raisePeaks source acc = acc := by
  cases source with
  | estimated => rfl
  | brokerReported =>
      obtain ⟨hequity, hbalance⟩ := h rfl
      simp only [raisePeaks, if_neg (not_lt.mpr hequity), if_neg (not_lt.mpr hbalance)]

namespace Replayable

variable (h : Replayable wire hash cache req acc)
include h

theorem references_nil {references : List Trade} (hr : req.references wire draws accountId = .ok references) :
    references = [] := by
  obtain ⟨trades, htrades, hr⟩ := bind_eq_ok.mp hr
  rw [h.references_eq] at htrades
  obtain rfl := Except.ok.inj htrades
  exact (pure_eq_ok.mp hr).symm

theorem ingested {i : InternalEvaluateRequest.Ingested} (hi : req.ingest wire draws accountId acc = .ok i) :
    ∃ tick, req.tick = some tick ∧
      convertFrom (fun _ p => PositionDto.intoDomain wire accountId p) 0 (req.openPositions.getD []) =
        .ok i.openPositions ∧
      convertFrom (fun n t => t.intoDomain wire accountId (draws.todayIds n)) 0 (req.todayTrades.getD []) =
        .ok i.todayTrades ∧
      i.account = acc ∧ i.serverTime = tick.quote.ts ∧ i.latestTick = some tick := by
  unfold InternalEvaluateRequest.ingest at hi
  rw [h.bridgeTick_eq] at hi
  dsimp only at hi
  unfold InternalEvaluateRequest.ingestTick at hi
  split at hi
  · cases hi
  · rename_i tick htick
    obtain ⟨openPositions, hpositions, hi⟩ := bind_eq_ok.mp hi
    obtain ⟨todayTrades, htrades, hi⟩ := bind_eq_ok.mp hi
    obtain rfl := pure_eq_ok.mp hi
    exact ⟨tick, htick, ofText_eq_ok.mp hpositions, ofText_eq_ok.mp htrades, rfl, rfl, rfl⟩

theorem line_eq {raw : ℕ} {tick : Tick} {openPositions : List Position} {todayTrades : List Trade}
    (hraw : wire.parseUuid req.accountId = .ok raw) (hsource : req.source = .ok source)
    (htick : req.tick = some tick)
    (hpositions : convertFrom (fun _ p => PositionDto.intoDomain wire ⟨raw⟩ p) 0 (req.openPositions.getD []) =
      .ok openPositions)
    (htrades : convertFrom (fun n t => t.intoDomain wire ⟨raw⟩ (draws.todayIds n)) 0 (req.todayTrades.getD []) =
      .ok todayTrades) :
    processOneReplLine wire digest draws req =
      evaluateReplLine wire digest draws ⟨raw⟩ acc.tenantId acc tick.quote.ts
        (req.replInputs openPositions todayTrades source) := by
  have htime : req.replServerTime wire draws = .ok tick.quote.ts := by
    unfold InternalEvaluateRequest.replServerTime
    rw [h.bridgeTick_eq, htick]
    rfl
  have htenant : req.replTenant wire = .ok acc.tenantId.raw := by
    unfold InternalEvaluateRequest.replTenant
    rw [h.state_eq, Option.map_some, Option.getD_some, h.tenant_reads]
    rfl
  simp only [processOneReplLine, hraw, htenant, h.state_eq, replSource_eq hsource, hpositions, htrades, htime,
    ReplOutcome.ofText, bind, Except.bind]

end Replayable

/-- A request that the endpoint answers gets the same answer on the command line, with the same draws: the
decision, the hash of its inputs, the pack, and what is printed of the account. -/
theorem repl_agrees_with_endpoint (h : Replayable wire hash cache req acc)
    (hr : evaluateInternal wire digest hash cache draws tenantId req = .ok r) :
    ∃ out, processOneReplLine wire digest draws req = .ok out ∧ out.decisionKind = r.decisionKind ∧
      out.winningPriority = r.winningPriority ∧ out.inputHash = r.inputHash ∧ out.packId = r.packId ∧
      out.packVersion = r.packVersion ∧ out.accountState = .ofAccount r.accountState := by
  obtain ⟨raw, source, references, i, hraw, htenant, hsource, hreferences, hingest, hresponse⟩ :=
    evaluateInternal_inv hr h.state_eq h.evaluable
  obtain rfl := h.references_nil hreferences
  obtain ⟨tick, htick, hpositions, htrades, haccount, htime, hlatest⟩ := h.ingested hingest
  have hpeaks : raisePeaks source i.account = acc := by
    rw [haccount]
    exact raisePeaks_eq_self fun hbroker => h.peaks (hbroker ▸ hsource)
  have hinputs : i.inputs [] source = req.replInputs i.openPositions i.todayTrades source := by
    unfold InternalEvaluateRequest.Ingested.inputs InternalEvaluateRequest.replInputs
    rw [hlatest, htick]
    rfl
  obtain ⟨⟨⟩, -, hresponse⟩ := bind_eq_ok.mp hresponse
  rw [hpeaks, hinputs, h.registry_eq, htime, ← htenant] at hresponse
  obtain ⟨⟨final, evs⟩, hfinal, hresponse⟩ := bind_eq_ok.mp hresponse
  obtain ⟨evs', hfinal'⟩ := applyDecision_actor "repl" (ofOutcome_eq_ok.mp hfinal)
  obtain rfl := pure_eq_ok.mp hresponse
  rw [h.line_eq hraw hsource htick hpositions htrades, evaluateReplLine, hfinal']
  exact ⟨_, rfl, rfl, rfl, rfl, rfl, rfl, rfl⟩

theorem repl_agrees_with_endpoint_first :
    ∃ r out,
      evaluateInternal plainWire (fun _ => "") (fun _ => 0) .empty (.at (Duration.hours 1)) ⟨1⟩
          (legacyRequest (firstDayAccount none) firstHourTick 9900 9900) = .ok r ∧
        processOneReplLine plainWire (fun _ => "") (.at (Duration.hours 1))
          (legacyRequest (firstDayAccount none) firstHourTick 9900 9900) = .ok out ∧
        r.decisionKind = "Pass" ∧ out.decisionKind = r.decisionKind ∧
        out.accountState = .ofAccount r.accountState := by
  have hrun : (evaluateInternal plainWire (fun _ => "") (fun _ => 0) .empty (.at (Duration.hours 1)) ⟨1⟩
      (legacyRequest (firstDayAccount none) firstHourTick 9900 9900)).map (fun r => r.decisionKind) =
        .ok "Pass" := by
    decide +kernel
  obtain ⟨r, hr, hkind⟩ := map_eq_ok.mp hrun
  have hreplayable : Replayable plainWire (fun _ => 0) .empty
      (legacyRequest (firstDayAccount none) firstHourTick 9900 9900)
      { firstDayAccount none with equity := 9900, balance := 9900 } :=
    { state_eq := rfl
      evaluable := rfl
      tenant_reads := rfl
      bridgeTick_eq := rfl
      references_eq := rfl
      registry_eq := rfl
      peaks := fun _ => by decide +kernel }
  obtain ⟨out, hout, hdecision, -, -, -, -, hstate⟩ := repl_agrees_with_endpoint hreplayable hr
  exact ⟨r, out, hr, hout, hkind, hdecision, hstate⟩

/-- Of what the bridge reports, the command line reads the time alone: the equity that it judges is the stored
one. -/
theorem processOneReplLine_bridge {payload payload' : BridgeTickPayload}
    (h : payload.brokerTime = payload'.brokerTime) :
    processOneReplLine wire digest draws { req with bridgeTick := some payload } =
      processOneReplLine wire digest draws { req with bridgeTick := some payload' } := by
  simp only [processOneReplLine, InternalEvaluateRequest.replTenant, InternalEvaluateRequest.replSource,
    InternalEvaluateRequest.replServerTime, InternalEvaluateRequest.replInputs, h]

end Propfirm
