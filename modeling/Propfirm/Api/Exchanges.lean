import Propfirm.Api.Lemmas.Service

/-!
# Exchanges with the service

The service keeps no account: the client sends the one it holds with every request, and holds the one that
comes back. A session is a row of such exchanges, with the requests that fail among them.
-/

namespace Propfirm

open Fallible

variable {wire : WireFormat} {digest : List FieldValue → String} {hash : List FieldValue → UInt64}

/-! ## Exchanges -/

/-- A request about the account that the client holds. -/
structure Exchange (wire : WireFormat) (digest : List FieldValue → String)
    (hash : List FieldValue → UInt64) where
  held : Account
  headers : EvaluateHeaders
  request : ServiceRequest
  cache : RegistryCache
  draws : ServiceDraws
  carries : request.accountState = some held

namespace Exchange

def answer (x : Exchange wire digest hash) : ApiOutcome ServiceResponse :=
  dispatch wire digest hash x.cache x.draws x.headers x.request

/-- What the client holds then: an answer without an account, or an error, changes nothing. -/
def kept (x : Exchange wire digest hash) : Account :=
  match x.answer with
  | .ok r => r.accountState.getD x.held
  | .error _ => x.held

end Exchange

/-- Exchanges in a row, latest first. -/
abbrev Session (wire : WireFormat) (digest : List FieldValue → String) (hash : List FieldValue → UInt64) :
    Account → List (Exchange wire digest hash) → Account → Prop :=
  Path Exchange.held Exchange.kept

def ServiceRequest.isEvaluate : ServiceRequest → Bool
  | .evaluate _ _ => true
  | _ => false

def ServiceRequest.isOverrideBreach : ServiceRequest → Bool
  | .overrideBreach _ => true
  | _ => false

/-- The event that a request has the pipeline process for an answer with an account. -/
inductive ServiceRequest.Submits (wire : WireFormat) (draws : ServiceDraws) (acc : Account) :
    ServiceRequest → PipelineEvent → Prop
  | manualRun {req} : Submits wire draws acc (.manualRun req) .onDemand
  | emergencyStop {req} :
      Submits wire draws acc (.emergencyStop req) (.emergencyStop req.reason req.actorId draws.now)
  | evaluateOrder {req} (side : OrderSide) :
      Submits wire draws acc (.evaluateOrder req) (.orderSubmitted (req.order wire draws acc.id side))
  | overrideBreach {req} :
      Submits wire draws acc (.overrideBreach req) (.overrideBreach (req.record draws acc.id))

theorem ServiceRequest.Submits.isServed {request : ServiceRequest} {draws : ServiceDraws} {acc : Account}
    {ev : PipelineEvent} (h : request.Submits wire draws acc ev) : ev.isServed = true := by
  cases h <;> rfl

theorem ServiceRequest.Submits.isEvaluate_eq {request : ServiceRequest} {draws : ServiceDraws} {acc : Account}
    {ev : PipelineEvent} (h : request.Submits wire draws acc ev) : request.isEvaluate = false := by
  cases h <;> rfl

theorem ServiceRequest.Submits.isOverrideBreach_eq {request : ServiceRequest} {draws : ServiceDraws}
    {acc : Account} {ev : PipelineEvent} (h : request.Submits wire draws acc ev) :
    ev.isOverrideBreach = request.isOverrideBreach := by
  cases h <;> rfl

/-- All that an exchange can do to the account: nothing, a call of the pipeline, or an evaluation. -/
inductive Exchange.Step (x : Exchange wire digest hash) : Prop
  | unchanged : x.kept = x.held → Step x
  | processed (c : Processed) :
      c.before = x.held → c.after = x.kept → c.pipeline = servicePipeline hash x.cache x.held.plan →
        x.request.Submits wire x.draws x.held c.ev →
          x.held.status.evaluationMode = .evaluate ∨ x.request.isOverrideBreach = true → Step x
  | evaluated {req : InternalEvaluateRequest} {apiDraws : ApiDraws} {tenantId : TenantId}
      {r : InternalEvaluateResponse} (e : Answered wire digest hash x.cache apiDraws tenantId req r) :
      x.request = .evaluate req apiDraws → e.acc = x.held → r.accountState = x.kept →
        (∃ r, x.answer = .ok r) → x.held.status.evaluationMode = .evaluate → Step x

namespace Exchange

variable {x : Exchange wire digest hash}

theorem kept_of_error {f : ApiFault} (h : x.answer = .error f) : x.kept = x.held := by
  rw [kept, h]

theorem kept_of_ok {r : ServiceResponse} (h : x.answer = .ok r) : x.kept = r.accountState.getD x.held := by
  rw [kept, h]

theorem step_of_handled {ev : PipelineEvent} {b : Account} (hkept : x.kept = b)
    (h : Handled hash x.cache x.draws x.held ev b) (hev : x.request.Submits wire x.draws x.held ev) : x.Step := by
  cases h with
  | skipped => exact .unchanged hkept
  | processed hmode hprocess =>
      exact .processed (.of hprocess) rfl hkept.symm rfl hev (by rwa [hev.isOverrideBreach_eq] at hmode)

/-- An answered evaluation of an account that is evaluated. -/
theorem evaluation {req : InternalEvaluateRequest} {apiDraws : ApiDraws} {r : ServiceResponse}
    (hrequest : x.request = .evaluate req apiDraws) (hanswer : x.answer = .ok r)
    (hmode : x.held.status.evaluationMode = .evaluate) :
    ∃ tenantId res, ∃ e : Answered wire digest hash x.cache apiDraws tenantId req res,
      e.acc = x.held ∧ res.accountState = x.kept ∧ r = .evaluate res := by
  obtain ⟨tenantId, -, h⟩ := bind_eq_ok.mp hanswer
  have hkept := kept_of_ok hanswer
  have hcarries := x.carries
  rw [hrequest] at h hcarries
  obtain ⟨res, hres, rfl⟩ := map_eq_ok.mp h
  rcases evaluateInternal_ok hres with ⟨acc, hacc, hskip, -⟩ | ⟨⟨e⟩⟩
  · rw [← Option.some.inj (hcarries.symm.trans hacc), hmode] at hskip
    cases hskip
  · exact ⟨tenantId, res, e, Option.some.inj (e.state_eq.symm.trans hcarries), hkept.symm, rfl⟩

/-- An answer is about the account of the header's tenant that the request names. -/
theorem answered (h : ∃ r, x.answer = .ok r) :
    ∃ tenantId, extractTenantId wire x.headers = .ok tenantId ∧
      x.held.BelongsTo wire x.request.accountId tenantId ∧ x.Step := by
  obtain ⟨r, hr⟩ := h
  obtain ⟨tenantId, htenant, h⟩ := bind_eq_ok.mp hr
  refine ⟨tenantId, htenant, ?_⟩
  have hkept := kept_of_ok hr
  have hcarries := x.carries
  cases hrequest : x.request with
  | evaluate req apiDraws =>
      rw [hrequest] at h hcarries
      obtain ⟨res, hres, rfl⟩ := map_eq_ok.mp h
      refine ⟨evaluateInternal_belongs hres hcarries, ?_⟩
      by_cases hskip : x.held.status.evaluationMode = .skip
      · exact .unchanged (hkept.trans (evaluateInternal_skip hres hcarries hskip))
      · have hmode := AccountStatus.evaluate_of_not_skip hskip
        obtain ⟨_, _, e, hacc, hstate, -⟩ := evaluation hrequest hr hmode
        exact .evaluated e hrequest hacc hstate ⟨_, hr⟩ hmode
  | manualRun req =>
      rw [hrequest] at h hcarries
      obtain ⟨res, hres, rfl⟩ := map_eq_ok.mp h
      obtain ⟨acc, hacc, hbelongs, hhandled⟩ := manualRun_handled hres
      obtain rfl := Option.some.inj (hcarries.symm.trans hacc)
      exact ⟨hbelongs, step_of_handled hkept hhandled (by rw [hrequest]; exact .manualRun)⟩
  | emergencyStop req =>
      rw [hrequest] at h hcarries
      obtain ⟨res, hres, rfl⟩ := map_eq_ok.mp h
      obtain ⟨acc, hacc, hbelongs, hhandled⟩ := emergencyStop_handled hres
      obtain rfl := Option.some.inj (hcarries.symm.trans hacc)
      exact ⟨hbelongs, step_of_handled hkept hhandled (by rw [hrequest]; exact .emergencyStop)⟩
  | evaluateOrder req =>
      rw [hrequest] at h hcarries
      obtain ⟨res, hres, rfl⟩ := map_eq_ok.mp h
      obtain ⟨acc, side, hacc, hbelongs, hhandled⟩ := evaluateOrder_handled hres
      obtain rfl := Option.some.inj (hcarries.symm.trans hacc)
      exact ⟨hbelongs, step_of_handled hkept hhandled (by rw [hrequest]; exact .evaluateOrder side)⟩
  | overrideBreach req =>
      rw [hrequest] at h hcarries
      obtain ⟨res, hres, rfl⟩ := map_eq_ok.mp h
      obtain ⟨acc, hacc, hbelongs, hhandled⟩ := overrideBreach_handled hres
      obtain rfl := Option.some.inj (hcarries.symm.trans hacc)
      exact ⟨hbelongs, step_of_handled hkept hhandled (by rw [hrequest]; exact .overrideBreach)⟩
  | breachReport req =>
      rw [hrequest] at h hcarries
      obtain ⟨res, hres, rfl⟩ := map_eq_ok.mp h
      obtain ⟨acc, hacc, hbelongs⟩ := breachReport_belongs hres
      obtain rfl := Option.some.inj (hcarries.symm.trans hacc)
      exact ⟨hbelongs, .unchanged hkept⟩

theorem step (x : Exchange wire digest hash) : x.Step := by
  cases h : x.answer with
  | error f => exact .unchanged (kept_of_error h)
  | ok r =>
      obtain ⟨tenantId, -, -, hstep⟩ := answered ⟨r, h⟩
      exact hstep

end Exchange

end Propfirm
