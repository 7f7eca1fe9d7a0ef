import Propfirm.Rules.Lemmas.Pack
import Propfirm.Rules.Lemmas.Panics

/-!
# Which rules of a pack can fail

The rule of an entry fails on a value that is no count, on a daily limit of zero, on an instrument without a
contract size and on a time out of range. In every other case it returns a verdict.
-/

namespace Propfirm

open Fallible

variable {kind : String} {factory : Option RuleParams → StdRule} {e : RuleEntry} {ctx : RuleContext}

/-- The entries of a kind whose rule fails in some context. -/
def mayFail (kind : String) (e : RuleEntry) : Prop :=
  match kind with
  | "daily_drawdown" => 0 < e.value ∧ 0 ≤ e.toleranceCents.getD 1
  | "min_trading_days" | "max_open_positions" | "max_daily_trades" | "inactivity" => e.value.toU32? = none
  | "time_limit" => e.value.toI64? ≠ some 0
  | "grid_trading" => e.value.toI64? = none ∨
      Duration.maxSeconds < |GridTradingRule.effectiveMaxWindowMinutes (some (.fromEntry e)) * 60|
  | "copy_trading" => e.value.toI64? = none
  | "cooldown" => e.value.toU64? = none
  | "max_position_size" | "max_total_lots" | "hft_scalping" => True
  | _ => False

/-! ## Values that are no count -/

theorem packCount_error {rule noun : String} {plan : Option ℕ} :
    (∃ f, packCount rule noun (some (.fromEntry e)) plan = .error f) ↔
      e.enabled = true ∧ e.value.toU32? = none := by
  cases henabled : e.enabled <;> cases hvalue : e.value.toU32? <;>
    simp [packCount, RuleParams.fromEntry, henabled, hvalue, raise]

theorem effectiveDays_error :
    (∃ f, InactivityRule.effectiveDays (some (.fromEntry e)) ctx = .error f) ↔ e.value.toU32? = none := by
  cases hvalue : e.value.toU32? <;>
    simp [InactivityRule.effectiveDays, RuleParams.effectiveCount, RuleParams.fromEntry, hvalue, raise, bind,
      Except.bind, pure, Except.pure]

theorem effectiveSeconds_error :
    (∃ f, CooldownRule.effectiveSeconds (some (.fromEntry e)) ctx = .error f) ↔
      e.enabled = true ∧ e.value.toU64? = none := by
  cases henabled : e.enabled <;> cases hvalue : e.value.toU64? <;>
    simp [CooldownRule.effectiveSeconds, RuleParams.fromEntry, henabled, hvalue, raise]

theorem effectiveMinEntries_error :
    (∃ f, GridTradingRule.effectiveMinEntries (some (.fromEntry e)) = .error f) ↔
      e.value.toI64? = none := by
  cases hvalue : e.value.toI64? <;>
    simp [GridTradingRule.effectiveMinEntries, RuleParams.effectiveCount, RuleParams.fromEntry, hvalue, raise,
      bind, Except.bind, pure, Except.pure]

theorem effectiveFailThreshold_error :
    (∃ f, CopyTradingRule.effectiveFailThreshold (some (.fromEntry e)) = .error f) ↔
      e.value.toI64? = none := by
  cases hvalue : e.value.toI64? <;>
    simp [CopyTradingRule.effectiveFailThreshold, RuleParams.effectiveCount, RuleParams.fromEntry, hvalue,
      raise, bind, Except.bind, pure, Except.pure]

/-! ## Times out of range -/

theorem bounded_error {unit : String} {secs : ℤ} :
    (∃ f, Duration.bounded unit secs = .error f) ↔ Duration.maxSeconds < |secs| := by
  unfold Duration.bounded
  split <;> rename_i hbound
  · exact iff_of_false (fun ⟨_, h⟩ => by cases h) (not_lt.mpr hbound)
  · exact iff_of_true ⟨_, rfl⟩ (not_le.mp hbound)

theorem moved_error {msg : String} {t t' : Timestamp} :
    (∃ f, t.moved msg t' = .error f) ↔ t.Representable ∧ ¬t'.Representable := by
  unfold Timestamp.moved
  split <;> rename_i hout
  · exact iff_of_true ⟨_, rfl⟩ hout
  · exact iff_of_false (fun ⟨_, h⟩ => by cases h) hout

theorem plus_zero (t : Timestamp) : t.plus (Duration.seconds 0) = .ok t := by
  have hzero : t + Duration.seconds 0 = t := Int.add_zero t
  rw [Timestamp.plus, hzero, Timestamp.moved, if_neg fun h => h.2 h.1]

theorem tryDays_ok {n : ℤ} {limit : Duration} (h : Duration.tryDays n = .ok limit) :
    limit = n * 86400 * 1000000000 := by
  unfold Duration.tryDays Duration.bounded at h
  split at h
  · exact (Except.ok.inj h).symm
  · cases h

/-- A day limit leads out of the range from its last instant on, or before its first. -/
theorem deadline_error {n : ℤ} (h : n ≠ 0) :
    ∃ f, (do
      let deadline ← (if 0 < n then Timestamp.last else Timestamp.first).plus (← Duration.tryDays n)
      pure (some deadline) : Outcome (Option Timestamp)) = .error f := by
  cases hlimit : Duration.tryDays n with
  | error f => exact ⟨f, rfl⟩
  | ok limit =>
      have hout : ∃ f, (if 0 < n then Timestamp.last else Timestamp.first).plus limit = .error f := by
        refine moved_error.mpr ?_
        obtain rfl := tryDays_ok hlimit
        by_cases hpos : 0 < n
        · have hlong : 0 < n * 86400 * 1000000000 := by omega
          rw [if_pos hpos]
          exact ⟨by decide, fun hrange => absurd hrange.2 (not_le.mpr (lt_add_of_pos_right _ hlong))⟩
        · have hlong : n * 86400 * 1000000000 < 0 := by omega
          rw [if_neg hpos]
          exact ⟨by decide, fun hrange => absurd hrange.1 (not_le.mpr (add_lt_of_neg_right _ hlong))⟩
      obtain ⟨f, hf⟩ := hout
      exact ⟨f, bind_eq_error.mpr (.inr ⟨limit, rfl, bind_eq_error.mpr (.inl hf)⟩)⟩

/-! ## Rules that do not fail -/

theorem effectiveDeadline_failsOnly :
    FailsOnly (fun _ => mayFail "time_limit" e)
      (TimeLimitRule.effectiveDeadline (some (.fromEntry e)) ctx) := by
  intro f hf hzero
  simp only [TimeLimitRule.effectiveDeadline, RuleParams.fromEntry, hzero] at hf
  split at hf
  · have hdays : Duration.tryDays 0 = .ok (Duration.seconds 0) := rfl
    rw [bind_of_ok hdays, bind_of_ok (plus_zero _)] at hf
    cases hf
  · cases hf

theorem DailyDrawdownRule.loss_nonneg {a : Account} {reference dd : Money}
    (h : referenceAndLoss a = some (reference, dd)) : 0 ≤ dd := by
  unfold referenceAndLoss at h
  cases htype : a.plan.dailyLossType with
  | none => simp [htype] at h
  | pctInitial | pctPriorDay | trailingIntradayHigh =>
      simp only [htype, Option.some.injEq, Prod.mk.injEq] at h
      exact h.2 ▸ le_max_right _ _

/-- No loss is negative, so a limit of zero is only divided by under a tolerance that is not. -/
theorem dailyDrawdown_failsOnly_entry :
    FailsOnly (fun _ => mayFail "daily_drawdown" e) (DailyDrawdownRule.judge (some (.fromEntry e)) ctx) := by
  refine dailyDrawdown_failsOnly fun reference dd href hrate _ hwithin _ => ⟨hrate, ?_⟩
  have hdd : 0 ≤ dd := DailyDrawdownRule.loss_nonneg href
  have hcents : 0 ≤ (DailyDrawdownRule.toleranceCents (some (.fromEntry e)) : ℚ) / 100 := hdd.trans hwithin
  exact_mod_cast nonneg_of_mul_nonneg_left hcents (by decide +kernel)

theorem judge_failsOnly (h : defaultFactoryForKind kind = some factory) (hparams : takesParams kind) :
    FailsOnly (fun _ => mayFail kind e) ((factory (some (.fromEntry e))).judge ctx) := by
  unfold defaultFactoryForKind at h
  split at h
  case h_24 | h_25 => exact absurd hparams (by decide)
  all_goals cases h
  case h_1 => exact dailyDrawdown_failsOnly_entry
  case h_2 => exact maxDrawdown_failsOnly
  case h_3 => exact trailingDrawdown_failsOnly
  case h_4 => exact @profitTarget_failsOnly ctx _ _
  case h_5 => exact judgeMinDays_failsOnly fun f hf => (packCount_error.mp ⟨f, hf⟩).2
  case h_6 => exact consistency_failsOnly
  case h_7 => exact newsTrading_failsOnly
  case h_8 => exact overnightHolding_failsOnly
  case h_9 => exact weekendHolding_failsOnly
  case h_10 => exact fun _ _ => trivial
  case h_11 => exact judgeCountCap_failsOnly fun f hf => (packCount_error.mp ⟨f, hf⟩).2
  case h_12 => exact judgeCountCap_failsOnly fun f hf => (packCount_error.mp ⟨f, hf⟩).2
  case h_13 => exact timeLimit_failsOnly effectiveDeadline_failsOnly
  case h_14 => exact cooldown_failsOnly fun f hf => (effectiveSeconds_error.mp ⟨f, hf⟩).2
  case h_15 => exact hedging_failsOnly
  case h_16 =>
    exact gridTrading_failsOnly (fun f hf => .inl (effectiveMinEntries_error.mp ⟨f, hf⟩))
      fun f hf => .inr (bounded_error.mp ⟨f, hf⟩)
  case h_17 => exact copyTrading_failsOnly fun f hf => effectiveFailThreshold_error.mp ⟨f, hf⟩
  case h_18 => exact judgeRequired_failsOnly
  case h_19 => exact judgeRequired_failsOnly
  case h_20 => exact fun _ _ => trivial
  case h_21 => exact perTradeMaxLoss_failsOnly
  case h_22 => exact inactivity_failsOnly fun f hf => effectiveDays_error.mp ⟨f, hf⟩
  case h_23 => exact fun _ _ => trivial

/-! ## Rules that fail -/

/-- An account without any money orders an instrument that has no contract size. -/
def faultyContext : RuleContext :=
  { RuleContext.new
      { Account.new ⟨1⟩ ⟨1⟩ { ChallengePlan.default ⟨1⟩ 0 with gridTradingAllowed := false } with
        startedAt := some 0
        balance := 0
        equity := 0
        dayStartBalance := 0
        dayStartEquity := 0 }
      0 (fun _ => ⟨0⟩) 0 with
    pendingOrder := some
      { id := ⟨1⟩
        accountId := ⟨1⟩
        symbol := ⟨"EURUSD"⟩
        side := .buy
        kind := .open
        orderType := .market
        quantity := 1
        stopLoss := none
        takeProfit := none
        submittedAt := 0
        avgFillPrice := none }
    instruments := ⟨fun _ => some { InstrumentSpec.default with contractSize := 0 }⟩
    equityInput := .brokerReported 0 0 }

def earliestEntry : Trade where
  id := ⟨1⟩
  orderId := ⟨1⟩
  accountId := ⟨1⟩
  symbol := ⟨"EURUSD"⟩
  side := .buy
  tradeSide := .entry
  price := 1
  quantity := 1
  commission := 0
  swap := 0
  executedAt := .first
  exitInfo := none

/-- The account started where a day limit leads out of range, and its latest trade is as early as a trade
can be. -/
def failingContext (e : RuleEntry) : RuleContext :=
  { faultyContext with
    account :=
      { faultyContext.account with
        startedAt := some (if 0 < e.value.toI64?.getD 0 then .last else .first) }
    latestTrade := some earliestEntry }

theorem dailyDrawdown_failingContext (h : mayFail "daily_drawdown" e) :
    ∃ f, DailyDrawdownRule.judge (some (.fromEntry e)) (failingContext e) = .error f := by
  obtain ⟨hvalue, hcents⟩ := h
  have hvalue : ¬DailyDrawdownRule.effectivePct (some (.fromEntry e)) (failingContext e) ≤ 0 :=
    not_le.mpr hvalue
  have htolerance : 0 ≤ toleranceMoney (DailyDrawdownRule.toleranceCents (some (.fromEntry e))) :=
    div_nonneg (Rat.intCast_nonneg.mpr hcents) (by decide +kernel)
  have hfaulty : DailyDrawdownRule.referenceAndLoss faultyContext.account = some (0, 0) := by decide +kernel
  have href : DailyDrawdownRule.referenceAndLoss (failingContext e).account = some (0, 0) := hfaulty
  have hgate {k : Money → Outcome (Verdict Finding)} : withBrokerEquity (failingContext e) k = k 0 := rfl
  simp only [DailyDrawdownRule.judge, if_neg hvalue, hgate, href, mul_zero, zero_add, zero_mul, le_refl,
    if_true, if_neg (not_lt.mpr htolerance)]
  exact ⟨_, rfl⟩

theorem effectiveDeadline_failingContext (henabled : e.enabled = true) (h : mayFail "time_limit" e) :
    ∃ f, TimeLimitRule.effectiveDeadline (some (.fromEntry e)) (failingContext e) = .error f := by
  cases hvalue : e.value.toI64? with
  | none =>
      simp only [TimeLimitRule.effectiveDeadline, RuleParams.fromEntry, henabled, if_true, hvalue]
      exact ⟨_, rfl⟩
  | some n =>
      have hn : n ≠ 0 := by
        rintro rfl
        exact h hvalue
      obtain ⟨f, hf⟩ := deadline_error hn
      refine ⟨f, ?_⟩
      simp only [TimeLimitRule.effectiveDeadline, RuleParams.fromEntry, henabled, if_true, hvalue,
        failingContext, Option.getD_some]
      exact hf

/-- Every rule that may fail fails there. -/
theorem judge_failingContext (h : defaultFactoryForKind kind = some factory) (henabled : e.enabled = true)
    (hfails : mayFail kind e) :
    ∃ f, (factory (some (.fromEntry e))).judge (failingContext e) = .error f := by
  have hbind {α β : Type} {x : Outcome α} {g : α → Outcome β} (hx : ∃ f, x = .error f) :
      ∃ f, x >>= g = .error f := by
    obtain ⟨f, hf⟩ := hx
    exact ⟨f, bind_eq_error.mpr (.inl hf)⟩
  have hvalue {plan : Option Decimal} : packValue (some (.fromEntry e)) plan = some e.value := if_pos henabled
  unfold defaultFactoryForKind at h
  split at h
  all_goals cases h
  case h_1 => exact dailyDrawdown_failingContext hfails
  case h_5 => exact hbind (packCount_error.mpr ⟨henabled, hfails⟩)
  case h_10 =>
    simp only [maxPositionSizeRule, MaxPositionSizeRule.judge, hvalue]
    exact ⟨_, rfl⟩
  case h_11 => exact hbind (packCount_error.mpr ⟨henabled, hfails⟩)
  case h_12 => exact hbind (packCount_error.mpr ⟨henabled, hfails⟩)
  case h_13 => exact hbind (effectiveDeadline_failingContext henabled hfails)
  case h_14 => exact hbind (effectiveSeconds_error.mpr ⟨henabled, hfails⟩)
  case h_16 =>
    cases hmin : GridTradingRule.effectiveMinEntries (some (.fromEntry e)) with
    | error f => exact ⟨f, bind_eq_error.mpr (.inl hmin)⟩
    | ok minEntries =>
        have hwindow := hfails.resolve_left fun hnone => by
          obtain ⟨f, hf⟩ := effectiveMinEntries_error.mpr hnone
          rw [hf] at hmin
          cases hmin
        obtain ⟨f, hf⟩ := hbind (hbind (bounded_error.mpr hwindow))
        exact ⟨f, bind_eq_error.mpr (.inr ⟨minEntries, hmin, hf⟩)⟩
  case h_17 => exact hbind (effectiveFailThreshold_error.mpr hfails)
  case h_20 => exact ⟨_, rfl⟩
  case h_22 => exact hbind (effectiveDays_error.mpr hfails)
  case h_23 =>
    simp only [maxTotalLotsRule, MaxTotalLotsRule.judge, hvalue]
    exact ⟨_, rfl⟩
  all_goals exact absurd hfails id

/-- It is a context of every rule of an enabled entry. -/
theorem isEnabled_failingContext (h : defaultFactoryForKind kind = some factory) (henabled : e.enabled = true)
    (hfails : mayFail kind e) : (factory (some (.fromEntry e))).isEnabled (failingContext e) = true := by
  unfold defaultFactoryForKind at h
  split at h
  all_goals cases h
  case h_1 => exact Bool.and_eq_true_iff.mpr ⟨henabled, decide_eq_true hfails.1⟩
  case h_5 | h_10 | h_11 | h_12 | h_13 | h_14 | h_16 | h_17 | h_20 | h_22 | h_23 =>
    first
    | exact henabled
    | exact Bool.and_eq_true_iff.mpr ⟨henabled, rfl⟩
  all_goals exact absurd hfails id

end Propfirm
