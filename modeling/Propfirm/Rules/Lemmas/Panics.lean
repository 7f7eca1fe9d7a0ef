import Propfirm.Rules.Registry
import Propfirm.Lib.Fallible

/-!
# Rules that do not panic

A rule of the default library panics only where it divides: by the contract size of an instrument, by the
leverage of the plan, or by the daily loss limit. Times out of range are not counted here.
-/

namespace Propfirm

open Fallible

variable {ctx : RuleContext} {params : Option RuleParams} {F : Fault → Prop}

/-! ## Panics -/

/-- A panic of the source, overflows apart. Running out of fuel is none. -/
def Fault.IsPanic (f : Fault) : Prop :=
  ∃ msg, f = .panic msg ∧ msg ≠ "day rollover did not reach the event"

def NoPanic {α : Type} (x : Outcome α) : Prop := FailsOnly (fun f => ¬f.IsPanic) x

section

variable {α β : Type} {x y : Outcome α} {f : α → Outcome β}

@[simp] theorem noPanic_ok {a : α} : NoPanic (.ok a) := failsOnly_ok

@[simp] theorem noPanic_pure {a : α} : NoPanic (pure a) := failsOnly_ok

theorem noPanic_error {f : Fault} : NoPanic (.error f : Outcome α) ↔ ¬f.IsPanic := failsOnly_error

@[simp] theorem noPanic_raise {e : Error} : NoPanic (raise e : Outcome α) := by
  refine noPanic_error.mpr ?_
  rintro ⟨msg, h, -⟩
  cases h

theorem noPanic_overflow {msg : String} : NoPanic (.error (.overflow msg) : Outcome α) := by
  refine noPanic_error.mpr ?_
  rintro ⟨msg, h, -⟩
  cases h

theorem noPanic_bind (hx : NoPanic x) (hf : ∀ a, NoPanic (f a)) : NoPanic (x >>= f) :=
  failsOnly_bind hx fun a _ => hf a

theorem noPanic_of_bind (h : NoPanic (x >>= f)) : NoPanic x :=
  fun e he => h e (bind_eq_error.mpr (.inl he))

theorem noPanic_of_bind_ok {a : α} (h : NoPanic (x >>= f)) (hx : x = .ok a) : NoPanic (f a) :=
  fun e he => h e (bind_eq_error.mpr (.inr ⟨a, hx, he⟩))

theorem noPanic_map {g : α → β} : NoPanic (x.map g) ↔ NoPanic x := by
  cases x with
  | ok a => exact iff_of_true noPanic_ok noPanic_ok
  | error f => exact noPanic_error.trans noPanic_error.symm

theorem noPanic_panicWith {msg : String} :
    NoPanic (panicWith msg : Outcome α) ↔ msg = "day rollover did not reach the event" := by
  refine noPanic_error.trans ?_
  constructor
  · intro h
    by_contra hne
    exact h ⟨msg, rfl, hne⟩
  · rintro rfl ⟨msg, h, hne⟩
    exact hne (Fault.panic.inj h).symm

theorem noPanic_expect {msg : String} (h : msg ≠ "day rollover did not reach the event") {o : Option α} :
    NoPanic (expect msg o) ↔ o.isSome = true := by
  cases o with
  | none => exact iff_of_false (fun hno => h (noPanic_panicWith.mp hno)) Bool.false_ne_true
  | some a => exact iff_of_true noPanic_ok rfl

theorem noPanic_div {a b : Decimal} : NoPanic (a.div b) ↔ b ≠ 0 := by
  rw [Decimal.div]
  split
  · rename_i hzero
    exact iff_of_false (fun h => absurd (noPanic_panicWith.mp h) (by decide)) (not_not.mpr hzero)
  · rename_i hne
    exact iff_of_true noPanic_ok hne

end

/-! ## Times out of range -/

theorem bounded_failsOnly {unit : String} {secs : ℤ}
    (h : Duration.maxSeconds < |secs| → ∀ msg, F (.overflow msg)) :
    FailsOnly F (Duration.bounded unit secs) := by
  unfold Duration.bounded
  split
  · exact failsOnly_ok
  · rename_i hlong
    exact failsOnly_error.mpr (h (not_le.mp hlong) _)

theorem moved_failsOnly {msg : String} {t t' : Timestamp}
    (h : t.Representable → ¬t'.Representable → ∀ msg, F (.overflow msg)) :
    FailsOnly F (t.moved msg t') := by
  unfold Timestamp.moved
  split
  · rename_i hout
    exact failsOnly_error.mpr (h hout.1 hout.2 _)
  · exact failsOnly_ok

theorem bounded_noPanic {unit : String} {secs : ℤ} : NoPanic (Duration.bounded unit secs) :=
  bounded_failsOnly fun _ _ => noPanic_error.mp (noPanic_overflow (α := Unit))

theorem moved_noPanic {msg : String} {t t' : Timestamp} : NoPanic (t.moved msg t') :=
  moved_failsOnly fun _ _ _ => noPanic_error.mp (noPanic_overflow (α := Unit))

/-! ## Divisions -/

/-- What the rules divide by is not zero. -/
structure RuleContext.Divides (ctx : RuleContext) : Prop where
  contractSize_ne : ∀ symbol, (ctx.instruments.get symbol).contractSize ≠ 0
  leverage_ne : ctx.account.plan.leverage ≠ 0
  reference_ne : ∀ {reference dd}, DailyDrawdownRule.referenceAndLoss ctx.account = some (reference, dd) →
    0 < ctx.account.plan.maxDailyDrawdownPct → reference ≠ 0

theorem withBrokerEquity_failsOnly {k : Money → Outcome (Verdict Finding)}
    (hk : ∀ equity, FailsOnly F (k equity)) : FailsOnly F (withBrokerEquity ctx k) := by
  unfold withBrokerEquity
  split
  · exact failsOnly_ok
  · split
    · exact failsOnly_ok
    · exact hk _

/-- The daily limit is divided by when it is not exceeded. -/
theorem dailyDrawdown_failsOnly
    (h : ∀ reference dd, DailyDrawdownRule.referenceAndLoss ctx.account = some (reference, dd) →
      0 < DailyDrawdownRule.effectivePct params ctx → reference = 0 →
        dd ≤ toleranceMoney (DailyDrawdownRule.toleranceCents params) → ∀ f, F f) :
    FailsOnly F (DailyDrawdownRule.judge params ctx) := by
  unfold DailyDrawdownRule.judge
  dsimp only
  split
  · exact failsOnly_ok
  · rename_i hrate
    refine withBrokerEquity_failsOnly fun equity => ?_
    split
    · exact failsOnly_ok
    · rename_i reference dd href
      split
      · exact failsOnly_ok
      · rename_i hwithin
        refine failsOnly_ite (failsOnly_bind (fun f hf => ?_) fun _ _ => failsOnly_pure) failsOnly_ok
        by_cases hzero : reference = 0
        · subst hzero
          rw [mul_zero, zero_add, not_lt] at hwithin
          exact h 0 dd href (not_le.mp hrate) rfl hwithin f
        · rw [Decimal.div, if_neg (mul_ne_zero (not_le.mp hrate).ne' hzero)] at hf
          cases hf

theorem dailyDrawdown_noPanic (h : ctx.Divides) : NoPanic (DailyDrawdownRule.judge none ctx) :=
  dailyDrawdown_failsOnly fun _ _ href hrate hzero => absurd hzero (h.reference_ne href hrate)

theorem unitsToLots_noPanic {spec : InstrumentSpec} {units : Quantity} (h : spec.contractSize ≠ 0) :
    NoPanic (spec.unitsToLots units) :=
  noPanic_div.mpr h

theorem usedMargin_noPanic (h : ctx.Divides) (acc : Money) (ps : List Position) :
    NoPanic (MarginRule.usedMargin ctx.instruments ctx.account.plan.leverage acc ps) := by
  induction ps generalizing acc with
  | nil => exact noPanic_ok
  | cons p ps ih =>
      exact noPanic_bind (unitsToLots_noPanic (h.contractSize_ne _)) fun lots =>
        noPanic_bind (noPanic_div.mpr (Nat.cast_ne_zero.mpr h.leverage_ne)) fun margin => ih _

theorem margin_noPanic (h : ctx.Divides) : NoPanic (MarginRule.judge ctx) := by
  unfold MarginRule.judge
  split
  · exact noPanic_ok
  · refine failsOnly_ite noPanic_ok ?_
    split
    · exact noPanic_ok
    · refine noPanic_bind (unitsToLots_noPanic (h.contractSize_ne _)) fun lots =>
        noPanic_bind (noPanic_div.mpr (Nat.cast_ne_zero.mpr h.leverage_ne)) fun required =>
          noPanic_bind (noPanic_bind (usedMargin_noPanic h _ _) fun used => noPanic_pure) fun free => ?_
      exact failsOnly_ite noPanic_pure noPanic_pure

theorem openLots_noPanic (h : ctx.Divides) (acc : Lots) (ps : List Position) :
    NoPanic (MaxTotalLotsRule.openLots ctx.instruments acc ps) := by
  induction ps generalizing acc with
  | nil => exact noPanic_ok
  | cons p ps ih => exact noPanic_bind (unitsToLots_noPanic (h.contractSize_ne _)) fun lots => ih _

theorem maxPositionSize_noPanic (h : ctx.Divides) : NoPanic (MaxPositionSizeRule.judge none ctx) := by
  unfold MaxPositionSizeRule.judge
  split
  · exact noPanic_bind (unitsToLots_noPanic (h.contractSize_ne _)) fun lots =>
      failsOnly_ite noPanic_pure (failsOnly_ite noPanic_pure noPanic_pure)
  · exact noPanic_ok

theorem maxTotalLots_noPanic (h : ctx.Divides) : NoPanic (MaxTotalLotsRule.judge none ctx) := by
  unfold MaxTotalLotsRule.judge
  split
  · exact noPanic_ok
  · refine noPanic_bind (openLots_noPanic h _ _) fun held => ?_
    split
    · exact noPanic_bind (unitsToLots_noPanic (h.contractSize_ne _)) fun ordered =>
        failsOnly_ite noPanic_pure noPanic_pure
    · exact noPanic_bind noPanic_pure fun ordered => failsOnly_ite noPanic_pure noPanic_pure

/-! ## Divisions by zero -/

theorem leverage_ne_of_margin {order : Order} {price : Price} (horder : ctx.pendingOrder = some order)
    (hquantity : 0 < order.quantity) (hprice : MarginRule.referencePrice order = some price)
    (hsize : (ctx.instruments.get order.symbol).contractSize ≠ 0) (h : NoPanic (MarginRule.judge ctx)) :
    ctx.account.plan.leverage ≠ 0 := by
  have hlots : (ctx.instruments.get order.symbol).unitsToLots order.quantity = .ok _ := if_neg hsize
  simp only [MarginRule.judge, horder, if_neg (not_le.mpr hquantity), hprice, hlots] at h
  change NoPanic (Decimal.div _ _ >>= _) at h
  exact Nat.cast_ne_zero.mp (noPanic_div.mp (noPanic_of_bind h))

theorem reference_ne_of_dailyDrawdown {equity reference : Money}
    (hrate : 0 < ctx.account.plan.maxDailyDrawdownPct) (hstarted : ctx.requireStarted = .ok ())
    (hequity : ctx.requireBrokerEquity = .ok equity)
    (href : DailyDrawdownRule.referenceAndLoss ctx.account = some (reference, 0))
    (h : NoPanic (DailyDrawdownRule.judge none ctx)) : reference ≠ 0 := by
  rintro rfl
  have htolerance : ¬(toleranceMoney (DailyDrawdownRule.toleranceCents none) : Money) < 0 := by
    decide +kernel
  simp only [DailyDrawdownRule.judge, DailyDrawdownRule.effectivePct, Option.bind_none, not_le.mpr hrate,
    if_false, withBrokerEquity, hstarted, hequity, href, mul_zero, zero_add, htolerance, zero_mul,
    le_refl, if_true] at h
  exact noPanic_div.mp (noPanic_of_bind h) rfl

/-! ## Rules without a division -/

theorem maxDrawdown_failsOnly : FailsOnly F (MaxDrawdownRule.judge params ctx) :=
  failsOnly_ite failsOnly_ok (withBrokerEquity_failsOnly fun _ =>
    failsOnly_ite failsOnly_ok (failsOnly_ite failsOnly_ok failsOnly_ok))

theorem trailingDrawdown_failsOnly : FailsOnly F (TrailingDrawdownRule.judge params ctx) := by
  unfold TrailingDrawdownRule.judge
  split
  · exact failsOnly_ok
  · exact withBrokerEquity_failsOnly fun _ =>
      failsOnly_ite failsOnly_ok (failsOnly_ite failsOnly_ok failsOnly_ok)

theorem profitTarget_failsOnly : FailsOnly F (ProfitTargetRule.judge params ctx) := by
  unfold ProfitTargetRule.judge
  split
  · simp
  · refine failsOnly_ite (by simp) (failsOnly_ite (by simp) (failsOnly_ite (by simp) ?_))
    split
    · simp
    · refine failsOnly_ite ?_ ?_ <;> simp

theorem judgeMinDays_failsOnly {required : Outcome (Option ℕ)} {actual : ℕ}
    {deadlineText warnText : String} (h : FailsOnly F required) :
    FailsOnly F (judgeMinDays required actual deadlineText warnText ctx) := by
  refine failsOnly_bind h fun required _ => ?_
  split
  · simp
  · refine failsOnly_ite ?_ (failsOnly_ite ?_ (failsOnly_ite ?_ ?_)) <;> simp

theorem effectiveCap_failsOnly {arith : Arithmetic} :
    FailsOnly F (ConsistencyRule.effectiveCapWith arith params ctx) := by
  unfold ConsistencyRule.effectiveCapWith
  split
  · simp
  · rename_i p
    split
    · rename_i hvalue
      obtain ⟨value, hvalue⟩ := Option.isSome_iff_exists.mp (Bool.and_elim_right hvalue)
      split
      · simp
      · rename_i hsum
        have hpct :
            ∃ pct, p.effectivePctWith arith "consistency" ctx.account.sumPositiveDaysProfit = .ok pct := by
          simp only [RuleParams.effectivePctWith, hvalue, if_neg hsum]
          cases p.unit with
          | none => exact ⟨_, rfl⟩
          | some unit => cases unit <;> exact ⟨_, rfl⟩
        obtain ⟨pct, hpct⟩ := hpct
        simp [hpct]
    · simp

theorem consistency_failsOnly : FailsOnly F (ConsistencyRule.judge params ctx) := by
  unfold ConsistencyRule.judge ConsistencyRule.judgeWith
  split
  · simp
  · refine failsOnly_bind effectiveCap_failsOnly fun cap _ => ?_
    split
    · simp
    · refine failsOnly_ite ?_ (failsOnly_ite ?_ (failsOnly_ite ?_ ?_)) <;> simp

theorem planDeadline_noPanic {a : Account} : NoPanic (TimeLimitRule.planDeadline a) := by
  unfold TimeLimitRule.planDeadline
  split
  · simp
  · split
    · simp
    · split
      · exact noPanic_bind bounded_noPanic fun limit => noPanic_bind moved_noPanic fun _ => noPanic_pure
      · simp

theorem timeLimit_failsOnly (h : FailsOnly F (TimeLimitRule.effectiveDeadline params ctx)) :
    FailsOnly F (TimeLimitRule.judge params ctx) := by
  refine failsOnly_bind h fun deadline _ => ?_
  split
  · simp
  · refine failsOnly_ite (by simp) ?_
    split
    · simp
    · refine failsOnly_ite ?_ ?_ <;> simp

theorem inactivity_failsOnly (h : FailsOnly F (InactivityRule.effectiveDays params ctx)) :
    FailsOnly F (InactivityRule.judge params ctx) := by
  refine failsOnly_bind h fun days _ => ?_
  split
  · simp
  · refine failsOnly_ite (by simp) ?_
    split
    · split
      · simp
      · refine failsOnly_ite ?_ ?_ <;> simp
    · refine failsOnly_ite ?_ (failsOnly_ite ?_ ?_) <;> simp

theorem judgeCountCap_failsOnly {limit : Outcome (Option ℕ)} {count : ℕ} {label : String}
    (h : FailsOnly F limit) : FailsOnly F (judgeCountCap limit count label ctx) := by
  refine failsOnly_bind h fun limit _ => ?_
  split
  · simp
  · split
    · simp
    · split
      · simp
      · refine failsOnly_ite ?_ ?_ <;> simp
      · refine failsOnly_ite ?_ ?_ <;> simp

theorem judgeRequired_failsOnly {required missing : Bool} {verdict : Verdict Finding} {order : Option Order} :
    FailsOnly F (judgeRequired required missing verdict order) := by
  unfold judgeRequired
  split
  · simp
  · exact failsOnly_ite failsOnly_ok failsOnly_ok

theorem hedging_failsOnly : FailsOnly F (HedgingRule.judge ctx) := by
  refine failsOnly_ite (by simp) ?_
  split
  · simp
  · refine failsOnly_ite ?_ (failsOnly_ite ?_ ?_) <;> simp

theorem newsTrading_failsOnly : FailsOnly F (NewsTradingRule.judge ctx) := by
  refine failsOnly_ite (by simp) ?_
  split
  · simp
  · dsimp only
    split <;> simp

theorem overnightHolding_failsOnly : FailsOnly F (OvernightHoldingRule.judge ctx) := by
  refine failsOnly_ite (by simp) ?_
  split
  · simp
  · refine failsOnly_ite ?_ (failsOnly_ite ?_ (failsOnly_ite ?_ ?_)) <;> simp

theorem weekendHolding_failsOnly : FailsOnly F (WeekendHoldingRule.judge ctx) := by
  refine failsOnly_ite (by simp) ?_
  split
  · simp
  · refine failsOnly_ite ?_ (failsOnly_ite ?_ (failsOnly_ite ?_ ?_)) <;> simp

theorem cooldown_failsOnly (h : FailsOnly F (CooldownRule.effectiveSeconds params ctx)) :
    FailsOnly F (CooldownRule.judge params ctx) := by
  refine failsOnly_bind h fun cooldown _ => failsOnly_ite (by simp) ?_
  split
  · refine failsOnly_ite ?_ ?_ <;> simp
  · simp

theorem tradingHours_failsOnly : FailsOnly F (TradingHoursRule.judge ctx) := by
  unfold TradingHoursRule.judge
  split
  · refine failsOnly_ite ?_ ?_ <;> simp
  · simp

theorem gridTrading_failsOnly (h : FailsOnly F (GridTradingRule.effectiveMinEntries params))
    (hwindow : FailsOnly F (Duration.tryMinutes (GridTradingRule.effectiveMaxWindowMinutes params))) :
    FailsOnly F (GridTradingRule.judge params ctx) := by
  refine failsOnly_ite (by simp) (failsOnly_bind h fun minEntries _ => ?_)
  split
  · simp
  · refine failsOnly_bind (failsOnly_bind hwindow fun _ _ => failsOnly_pure) fun grid _ => ?_
    split
    · simp
    · split <;> simp

theorem copyTrading_failsOnly (h : FailsOnly F (CopyTradingRule.effectiveFailThreshold params)) :
    FailsOnly F (CopyTradingRule.judge params ctx) := by
  refine failsOnly_ite (by simp) (failsOnly_bind h fun failThreshold _ => ?_)
  dsimp only
  split
  · simp
  · refine failsOnly_ite ?_ (failsOnly_ite ?_ ?_) <;> simp

theorem countedFast_noPanic {minRoundTrip : ℤ} {trade : Trade} {today : List Trade} :
    NoPanic (HftScalpingRule.countedFast minRoundTrip trade today) :=
  failsOnly_ite (noPanic_bind bounded_noPanic fun _ => noPanic_bind moved_noPanic fun _ => noPanic_pure)
    noPanic_pure

theorem hftScalping_noPanic : NoPanic (HftScalpingRule.judge params ctx) := by
  unfold HftScalpingRule.judge
  split
  · simp
  · refine noPanic_bind countedFast_noPanic fun fast => failsOnly_ite noPanic_pure ?_
    exact noPanic_bind moved_noPanic fun _ => failsOnly_ite noPanic_pure noPanic_pure

theorem perTradeMaxLoss_failsOnly : FailsOnly F (PerTradeMaxLossRule.judge params ctx) := by
  unfold PerTradeMaxLossRule.judge
  split
  · simp
  · split
    · simp
    · refine failsOnly_ite (failsOnly_ite ?_ ?_) (failsOnly_ite ?_ ?_) <;> simp

theorem crossAccountHedging_failsOnly : FailsOnly F (CrossAccountHedgingRule.judge ctx) := by
  refine failsOnly_ite ?_ ?_ <;> simp

theorem lowcapExposure_failsOnly : FailsOnly F (LowcapExposureRule.judge ctx) := by
  unfold LowcapExposureRule.judge
  split
  · simp
  · refine failsOnly_ite ?_ (failsOnly_ite ?_ ?_) <;> simp

/-! ## The standard library -/

theorem judge_noPanic {r : StdRule} (h : ctx.Divides) (hr : r ∈ defaultRules) : NoPanic (r.judge ctx) := by
  have hall : ∀ r ∈ defaultRules, NoPanic (r.judge ctx) := by
    simp only [defaultRules, List.forall_mem_cons, List.not_mem_nil, false_imp_iff, implies_true,
      and_true]
    exact ⟨dailyDrawdown_noPanic h, maxDrawdown_failsOnly, trailingDrawdown_failsOnly,
      @profitTarget_failsOnly ctx none _, judgeMinDays_failsOnly noPanic_ok,
      judgeMinDays_failsOnly noPanic_ok, consistency_failsOnly, newsTrading_failsOnly,
      overnightHolding_failsOnly, weekendHolding_failsOnly, maxPositionSize_noPanic h,
      judgeCountCap_failsOnly noPanic_ok, judgeCountCap_failsOnly noPanic_ok,
      timeLimit_failsOnly planDeadline_noPanic, cooldown_failsOnly noPanic_ok, hedging_failsOnly,
      gridTrading_failsOnly noPanic_ok bounded_noPanic, copyTrading_failsOnly noPanic_ok, judgeRequired_failsOnly,
      judgeRequired_failsOnly, hftScalping_noPanic, perTradeMaxLoss_failsOnly,
      inactivity_failsOnly noPanic_ok, maxTotalLots_noPanic h, tradingHours_failsOnly, margin_noPanic h,
      crossAccountHedging_failsOnly, lowcapExposure_failsOnly⟩
  exact hall r hr

theorem evaluate_noPanic_iff {r : StdRule} : NoPanic (r.toRule.evaluate ctx) ↔ NoPanic (r.judge ctx) :=
  noPanic_map

end Propfirm
