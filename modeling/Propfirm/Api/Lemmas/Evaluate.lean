import Propfirm.Api.Evaluate
import Propfirm.Engine.Lemmas.Passage

/-!
# The stages of an evaluate request
-/

namespace Propfirm

open Fallible

variable {wire : WireFormat} {digest : List FieldValue → String} {hash : List FieldValue → UInt64}
  {cache : RegistryCache} {draws : ApiDraws} {tenantId : TenantId} {accountId : AccountId}
  {req : InternalEvaluateRequest} {r : InternalEvaluateResponse} {acc : Account}

/-! ## Rejection -/

def ApiFault.NotRejection (f : ApiFault) : Prop := ∀ msg, f ≠ .status .unprocessableEntity msg

@[simp] theorem notRejection_status {code : StatusCode} {msg : Text} :
    (ApiFault.status code msg).NotRejection ↔ code ≠ .unprocessableEntity := by
  simp [ApiFault.NotRejection]

@[simp] theorem notRejection_panic {msg : String} : (ApiFault.panic msg).NotRejection := by
  simp [ApiFault.NotRejection]

section Rejection

variable {α : Type}

theorem badRequest_failsOnly {msg : Text} :
    FailsOnly ApiFault.NotRejection (ApiOutcome.badRequest msg : ApiOutcome α) := by
  simp [ApiOutcome.badRequest]

theorem ofText_failsOnly {x : Except String α} :
    FailsOnly ApiFault.NotRejection (ApiOutcome.ofText x) := by
  cases x with
  | ok a => exact failsOnly_ok
  | error e => exact badRequest_failsOnly

theorem ofOutcome_failsOnly {code : StatusCode} (hcode : code ≠ .unprocessableEntity)
    {x : Outcome α} : FailsOnly ApiFault.NotRejection (ApiOutcome.ofOutcome code x) := by
  rcases x with (e | msg) | a <;> simp [ApiOutcome.ofOutcome, hcode]

end Rejection

theorem ofOutcome_eq_ok {α : Type} {code : StatusCode} {x : Outcome α} {b : α} :
    ApiOutcome.ofOutcome code x = .ok b ↔ x = .ok b := by
  rcases x with (e | msg) | a <;> simp [ApiOutcome.ofOutcome]

theorem ofText_eq_ok {α : Type} {x : Except String α} {b : α} :
    ApiOutcome.ofText x = .ok b ↔ x = .ok b := by
  cases x <;> simp [ApiOutcome.ofText, ApiOutcome.badRequest]

theorem validateAccountState_ok :
    validateAccountState wire acc accountId tenantId = .ok () ↔
      acc.id = accountId ∧ acc.tenantId = tenantId := by
  unfold validateAccountState
  by_cases hid : acc.id = accountId
  · by_cases htenant : acc.tenantId = tenantId <;> simp [hid, htenant]
  · simp [hid, ApiOutcome.badRequest]

theorem source_failsOnly : FailsOnly ApiFault.NotRejection req.source := by
  unfold InternalEvaluateRequest.source
  split
  · simp
  · simp
  · split
    · simp
    · exact ofOutcome_failsOnly (by decide)

theorem validateAccountState_failsOnly :
    FailsOnly ApiFault.NotRejection (validateAccountState wire acc accountId tenantId) := by
  unfold validateAccountState
  split
  · exact badRequest_failsOnly
  · split <;> simp

theorem references_failsOnly : FailsOnly ApiFault.NotRejection (req.references wire draws accountId) :=
  failsOnly_bind ofText_failsOnly fun _ _ => failsOnly_pure

theorem ingest_failsOnly : FailsOnly ApiFault.NotRejection (req.ingest wire draws accountId acc) := by
  unfold InternalEvaluateRequest.ingest
  split
  · refine failsOnly_bind ofText_failsOnly fun _ _ => failsOnly_bind ofText_failsOnly fun _ _ => ?_
    split
    · exact badRequest_failsOnly
    · exact failsOnly_pure
  · unfold InternalEvaluateRequest.ingestTick
    split
    · exact badRequest_failsOnly
    · exact failsOnly_bind ofText_failsOnly fun _ _ =>
        failsOnly_bind ofText_failsOnly fun _ _ => failsOnly_pure

/-- A tick is refused only when it is stale. -/
theorem evaluateInternal_failsOnly
    (hfresh : ∀ accountId acc i, req.accountState = some acc →
      req.ingest wire draws accountId acc = .ok i → rejectStale draws.now i.serverTime = .ok ()) :
    FailsOnly ApiFault.NotRejection
      (evaluateInternal wire digest hash cache draws tenantId req) := by
  refine failsOnly_bind ofText_failsOnly fun raw _ => failsOnly_bind source_failsOnly fun source _ => ?_
  split
  · exact badRequest_failsOnly
  · rename_i acc hacc
    refine failsOnly_bind validateAccountState_failsOnly fun _ _ => ?_
    unfold evaluateState
    split
    · simp
    · split
      · exact badRequest_failsOnly
      · refine failsOnly_bind references_failsOnly fun _ _ => failsOnly_bind ingest_failsOnly fun i hi => ?_
        refine failsOnly_bind (by rw [hfresh _ _ i hacc hi]; exact failsOnly_ok) fun _ _ => ?_
        exact failsOnly_bind (ofOutcome_failsOnly (by decide)) fun _ _ => failsOnly_pure

/-! ## Success -/

/-- A request that was evaluated, with what it was evaluated on. -/
structure Answered (wire : WireFormat) (digest : List FieldValue → String)
    (hash : List FieldValue → UInt64) (cache : RegistryCache) (draws : ApiDraws)
    (tenantId : TenantId) (req : InternalEvaluateRequest) (r : InternalEvaluateResponse) where
  accountId : AccountId
  source : EquitySource
  acc : Account
  references : List Trade
  ingested : InternalEvaluateRequest.Ingested
  source_eq : req.source = .ok source
  state_eq : req.accountState = some acc
  references_eq : req.references wire draws accountId = .ok references
  ingest_eq : req.ingest wire draws accountId acc = .ok ingested
  response_eq :
    evaluateIngested wire digest hash cache draws accountId tenantId acc.plan source references
      ingested = .ok r

theorem evaluateInternal_ok
    (h : evaluateInternal wire digest hash cache draws tenantId req = .ok r) :
    (∃ acc, req.accountState = some acc ∧ acc.status.evaluationMode = .skip ∧ r = notEvaluated acc) ∨
      Nonempty (Answered wire digest hash cache draws tenantId req r) := by
  obtain ⟨raw, -, h⟩ := bind_eq_ok.mp h
  obtain ⟨source, hsource, h⟩ := bind_eq_ok.mp h
  split at h
  · cases h
  · rename_i acc hacc
    obtain ⟨⟨⟩, -, h⟩ := bind_eq_ok.mp h
    unfold evaluateState at h
    split at h
    · rename_i hskip
      exact .inl ⟨acc, hacc, hskip, (Except.ok.inj h).symm⟩
    · split at h
      · cases h
      · obtain ⟨references, hreferences, h⟩ := bind_eq_ok.mp h
        obtain ⟨ingested, hingest, h⟩ := bind_eq_ok.mp h
        exact .inr ⟨⟨raw⟩, source, acc, references, ingested, hsource, hacc, hreferences, hingest, h⟩

/-- The tick is the only part in which the two shapes differ. -/
theorem ingested_inputs (i : InternalEvaluateRequest.Ingested) (references : List Trade)
    (source : EquitySource) :
    i.inputs references source =
      { EvaluateInputs.default with
        openPositions := i.openPositions
        todayTrades := i.todayTrades
        crossReferenceTrades := references
        latestTick := i.latestTick
        equitySource := source } := by
  unfold InternalEvaluateRequest.Ingested.inputs
  split
  · rename_i tick htick; rw [htick]; rfl
  · rename_i hnone; rw [hnone]; rfl

namespace Answered

def inputs (e : Answered wire digest hash cache draws tenantId req r) : EvaluateInputs :=
  e.ingested.inputs e.references e.source

def account (e : Answered wire digest hash cache draws tenantId req r) : Account :=
  raisePeaks e.source e.ingested.account

def decision (e : Answered wire digest hash cache draws tenantId req r) : Decision :=
  .fromReports ((cache.getOrBuild hash e.acc.plan).1.evaluate
    (Pure.context draws.evaluation e.account .onTick e.ingested.serverTime e.inputs)
    draws.evaluation.reportNow)

theorem decided (e : Answered wire digest hash cache draws tenantId req r) :
    r.decisionKind = e.decision.kind.debug ∧
      ∃ evs, applyDecision e.account e.decision e.ingested.serverTime "evaluate_internal" =
        .ok (r.accountState, evs) := by
  obtain ⟨⟨⟩, -, h⟩ := bind_eq_ok.mp e.response_eq
  obtain ⟨⟨final, evs⟩, hfinal, h⟩ := bind_eq_ok.mp h
  have hr := pure_eq_ok.mp h
  have hstate : final = r.accountState := congrArg InternalEvaluateResponse.accountState hr
  refine ⟨(congrArg InternalEvaluateResponse.decisionKind hr).symm, evs, ?_⟩
  rw [← hstate]
  exact ofOutcome_eq_ok.mp hfinal

end Answered

end Propfirm
