import Propfirm.Hashing

/-!
# What the hashed values of a record determine
-/

namespace Propfirm

/-! ## Single values -/

namespace FieldValue

theorem option_inj {α : Type} {f : α → FieldValue} (hf : ∀ a b, f a = f b ↔ a = b)
    {x y : Option α} : FieldValue.option f x = FieldValue.option f y ↔ x = y := by
  cases x <;> cases y <;> simp [FieldValue.option, hf]

@[simp] theorem option_count {x y : Option ℕ} : option count x = option count y ↔ x = y :=
  option_inj (by simp)

@[simp] theorem option_decimal {x y : Option Decimal} :
    option decimal x = option decimal y ↔ x = y :=
  option_inj (by simp)

@[simp] theorem option_time {x y : Option Timestamp} : option time x = option time y ↔ x = y :=
  option_inj (by simp)

@[simp] theorem option_hours {x y : Option (ℕ × ℕ)} :
    option (fun hours => pair (count hours.1) (count hours.2)) x =
      option (fun hours => pair (count hours.1) (count hours.2)) y ↔ x = y :=
  option_inj (by simp [Prod.ext_iff])

end FieldValue

@[simp] theorem LossReference.ctorIdx_inj {a b : LossReference} : a.ctorIdx = b.ctorIdx ↔ a = b :=
  (Function.LeftInverse.injective LossReference.ofNat_ctorIdx).eq_iff

@[simp] theorem ChallengePhase.ctorIdx_inj {a b : ChallengePhase} : a.ctorIdx = b.ctorIdx ↔ a = b :=
  (Function.LeftInverse.injective ChallengePhase.ofNat_ctorIdx).eq_iff

@[simp] theorem AccountType.ctorIdx_inj {a b : AccountType} : a.ctorIdx = b.ctorIdx ↔ a = b :=
  (Function.LeftInverse.injective AccountType.ofNat_ctorIdx).eq_iff

@[simp] theorem AccountStatus.ctorIdx_inj {a b : AccountStatus} : a.ctorIdx = b.ctorIdx ↔ a = b :=
  (Function.LeftInverse.injective AccountStatus.ofNat_ctorIdx).eq_iff

@[simp] theorem PositionSide.ctorIdx_inj {a b : PositionSide} : a.ctorIdx = b.ctorIdx ↔ a = b :=
  (Function.LeftInverse.injective PositionSide.ofNat_ctorIdx).eq_iff

@[simp] theorem OrderSide.ctorIdx_inj {a b : OrderSide} : a.ctorIdx = b.ctorIdx ↔ a = b :=
  (Function.LeftInverse.injective OrderSide.ofNat_ctorIdx).eq_iff

/-! ## Plans -/

/-- The plan `q` with the fields of `p` that the common part of the hashes leaves out. -/
def ChallengePlan.withUnhashed (q p : ChallengePlan) : ChallengePlan :=
  { q with
    id := p.id
    planMeta := p.planMeta
    refundable := p.refundable
    timezone := p.timezone
    effectiveAt := p.effectiveAt
    refundFeeAmount := p.refundFeeAmount
    dailyLossType := p.dailyLossType
    dailyLossSoft := p.dailyLossSoft
    consistencyType := p.consistencyType
    eodTrailLocksAtStart := p.eodTrailLocksAtStart
    minProfitableDays := p.minProfitableDays
    crossAccountHedgingProhibited := p.crossAccountHedgingProhibited
    lowcapExposureLimitPct := p.lowcapExposureLimitPct
    consistencyAppliesOnFundedStage := p.consistencyAppliesOnFundedStage
    qualifyingDayThresholdPct := p.qualifyingDayThresholdPct
    qualifyingDayPnlBandPct := p.qualifyingDayPnlBandPct
    payoutConfig := p.payoutConfig }

theorem ChallengePlan.eq_withUnhashed {p q : ChallengePlan} (h : p.coreFields = q.coreFields) :
    p = q.withUnhashed p := by
  cases p
  cases q
  simp only [coreFields, List.cons.injEq, FieldValue.decimal.injEq, FieldValue.discriminant.injEq,
    FieldValue.flag.injEq, FieldValue.count.injEq, FieldValue.option_count,
    FieldValue.option_decimal, FieldValue.option_hours, LossReference.ctorIdx_inj,
    ChallengePhase.ctorIdx_inj] at h
  simp only [withUnhashed, ChallengePlan.mk.injEq, true_and, and_true]
  tauto

/-! ## Accounts -/

/-- The account `b` with the fields of `a` that are not hashed, the plan among them. -/
def Account.withUnhashed (b a : Account) : Account :=
  { b with
    plan := a.plan
    challengeId := a.challengeId
    initialBalance := a.initialBalance
    startedAt := a.startedAt
    deadline := a.deadline
    intradayPeakEquity := a.intradayPeakEquity
    profitableDaysCount := a.profitableDaysCount
    qualifyingTradingDaysCount := a.qualifyingTradingDaysCount
    currentTradingDayStart := a.currentTradingDayStart
    payoutCount := a.payoutCount
    balanceAtLastPayout := a.balanceAtLastPayout
    lastPayoutAt := a.lastPayoutAt
    refundUsed := a.refundUsed
    statusBeforeBreach := a.statusBeforeBreach
    openPositions := a.openPositions
    todayTrades := a.todayTrades }

theorem Account.eq_withUnhashed {a b : Account} (h : a.hashedFields = b.hashedFields) :
    a = b.withUnhashed a := by
  obtain ⟨⟨id⟩, _, _, _, _, ⟨tenantId⟩⟩ := a
  obtain ⟨⟨id'⟩, _, _, _, _, ⟨tenantId'⟩⟩ := b
  simp only [hashedFields, List.cons.injEq, FieldValue.uuid.injEq, FieldValue.decimal.injEq,
    FieldValue.discriminant.injEq, FieldValue.flag.injEq, FieldValue.count.injEq,
    FieldValue.option_count, FieldValue.option_time, AccountType.ctorIdx_inj,
    AccountStatus.ctorIdx_inj] at h
  simp only [withUnhashed, Account.mk.injEq, AccountId.mk.injEq, TenantId.mk.injEq, true_and,
    and_true]
  tauto

end Propfirm
