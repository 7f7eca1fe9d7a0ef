import Propfirm.Api.Evaluate

/-!
# What the override endpoint checks
-/

namespace Propfirm

namespace Violation

def isTerminating (v : Violation) : Bool := v.severity == .hard || v.severity == .liquidate

def validate (v : Violation) : Outcome Unit :=
  if v.ruleName.isEmpty then raise (.invalidState [.lit "violation rule_name cannot be empty"])
  else if v.utilization.any fun util => util < 0 then
    raise (.invalidState [.lit "violation utilization cannot be negative"])
  else .ok ()

end Violation

structure OverrideRequest where
  accountId : String
  accountState : Option Account
  clearsViolationId : String
  violation : Violation

/-- The checks of the endpoint on the violation to clear. -/
def checkViolation (wire : WireFormat) (accountId : AccountId) (tenantId : TenantId)
    (clearsViolationId : ViolationId) (v : Violation) : ApiOutcome Unit :=
  if v.id ≠ clearsViolationId then
    .badRequest
      [.lit "violation.id ", .lit (wire.showUuid v.id.raw), .lit " does not match clears_violation_id ",
        .lit (wire.showUuid clearsViolationId.raw)]
  else if v.accountId ≠ accountId then
    .badRequest
      [.lit "violation.account_id ", .accountId v.accountId, .lit " does not match request account_id ",
        .accountId accountId]
  else if v.tenantId ≠ tenantId then
    .error (.status .forbidden
      [.lit "violation.tenant_id ", .lit (wire.showUuid v.tenantId.raw),
        .lit " does not match request tenant ", .lit (wire.showUuid tenantId.raw)])
  else do
    .ofOutcome .badRequest v.validate
    if !v.isTerminating then .badRequest [.lit "override is only valid for terminating violations"]
    else .ok ()

/-- Everything that the endpoint checks before it hands the override to the pipeline. -/
def checkOverride (wire : WireFormat) (tenantId : TenantId) (req : OverrideRequest) :
    ApiOutcome Account := do
  let accountId ← .ofText (wire.parseUuid req.accountId)
  let clearsViolationId ← .ofText (wire.parseUuid req.clearsViolationId)
  match req.accountState with
  | none => .badRequest [.lit "account_state is required for stateless override"]
  | some acc => do
      validateAccountState wire acc ⟨accountId⟩ tenantId
      if !acc.status.isBreachTerminal then
        .badRequest
          [.lit "account ", .accountId acc.id, .lit " is in status ", .lit acc.status.debug,
            .lit "; override is only valid from Failed/EmergencyStopped"]
      else do
        checkViolation wire ⟨accountId⟩ tenantId ⟨clearsViolationId⟩ req.violation
        pure acc

end Propfirm
