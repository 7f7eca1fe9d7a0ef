import Propfirm.Api.Evaluate
import Propfirm.Api.Idempotency

/-!
# The evaluate endpoint under an idempotency key
-/

namespace Propfirm

/-- The JSON texts of requests and responses. -/
structure JsonFormat where
  showRequest : InternalEvaluateRequest → Except String String
  showResponse : InternalEvaluateResponse → Except String String
  parseResponse : String → Except String InternalEvaluateResponse

/-- The headers that are read, where they are present and printable. -/
structure EvaluateHeaders where
  xTenantId : Option String
  idempotencyKey : Option String

/-- A key that was used for another body, with status 409, or a failure of the request itself. -/
inductive EvaluateFault where
  | conflict (msg : Text)
  | fault (f : ApiFault)

def EvaluateFault.keyReused : EvaluateFault :=
  .conflict [.lit "Idempotency-Key was already used with a different request body"]

def extractTenantId (wire : WireFormat) (headers : EvaluateHeaders) : ApiOutcome TenantId :=
  match headers.xTenantId with
  | none => .badRequest [.lit "missing X-Tenant-Id header"]
  | some text => do
      let raw ← .ofText (wire.parseUuid text)
      pure ⟨raw⟩

/-- A request with what it draws, the registries it finds and what the store reads off the clock. -/
structure EvaluateCall where
  headers : EvaluateHeaders
  req : InternalEvaluateRequest
  draws : ApiDraws
  cache : RegistryCache
  prunedAt : Instant
  insertedAt : Instant

section Handler

variable (wire : WireFormat) (json : JsonFormat) (digest : List FieldValue → String)
  (hash : List FieldValue → UInt64) (hashBody : String → String)

def internalError {α : Type} : Except String α → ApiOutcome α
  | .ok a => .ok a
  | .error e => .error (.status .internalServerError [.lit e])

/-- What is done before the store is asked: the evaluation, and the texts of the request and of the
response. -/
def EvaluateCall.prepare (call : EvaluateCall) (tenantId : TenantId) :
    ApiOutcome (String × InternalEvaluateResponse × String) := do
  let body ← .ofText (json.showRequest call.req)
  let response ← evaluateInternal wire digest hash call.cache call.draws tenantId call.req
  let responseStr ← internalError (json.showResponse response)
  pure (body, response, responseStr)

def EvaluateCall.toStore (call : EvaluateCall) (tenantId : TenantId) (key body responseStr : String) :
    IdempotencyCall :=
  ⟨tenantId, "POST /internal/v1/evaluate", key, body, responseStr, call.prunedAt, call.insertedAt⟩

def replyTo (response : InternalEvaluateResponse) :
    IdempotencyOutcome → Except EvaluateFault InternalEvaluateResponse
  | .replay cached => (internalError (json.parseResponse cached)).mapError .fault
  | .conflict => .error .keyReused
  | .fresh => .ok response
  | .error => .ok response

def evaluateHandler (store : IdempotencyStore) (call : EvaluateCall) :
    Except EvaluateFault InternalEvaluateResponse × IdempotencyStore :=
  match extractTenantId wire call.headers with
  | .error f => (.error (.fault f), store)
  | .ok tenantId =>
      match call.headers.idempotencyKey with
      | none =>
          ((evaluateInternal wire digest hash call.cache call.draws tenantId call.req).mapError .fault, store)
      | some key =>
          match call.prepare wire json digest hash tenantId with
          | .error f => (.error (.fault f), store)
          | .ok (body, response, responseStr) =>
              let answer := store.checkAndRemember wire hashBody (call.toStore tenantId key body responseStr)
              (replyTo json response answer.1, answer.2)

end Handler

end Propfirm
