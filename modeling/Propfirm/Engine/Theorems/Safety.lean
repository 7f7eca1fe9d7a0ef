import Propfirm.Config.Theorems
import Propfirm.Engine.Theorems.Fills
import Propfirm.Engine.Theorems.Floors
import Propfirm.Rules.Lemmas.Panics

/-!
# Plans that are safe to run

A plan that passes the validation may still stop a call, or have a rule replaced by a warning, where the
engine resolves a daily reset or divides by a figure of the plan or of the account.
-/

namespace Propfirm

open Fallible

variable {plan : ChallengePlan} {p : Pipeline} {env : Env} {a b : Account} {ev : PipelineEvent}
  {calls : List Processed} {t s : Timestamp}

/-! ## What is asked of a call -/

def PipelineEvent.isTrading : PipelineEvent → Bool
  | .orderSubmitted _ | .tradeFilled _ | .tick _ _ _ | .tickEstimated _ => true
  | _ => false

/-- An account opened under the plan, in whatever state it is. -/
structure Account.OfPlan (a : Account) (plan : ChallengePlan) : Prop where
  plan_eq : a.plan = plan
  initial_eq : a.initialBalance = plan.initialBalanceMoney

/-- Neither the trading day nor a rule panics. -/
structure SafeCall (p : Pipeline) (env : Env) (a : Account) (ev : PipelineEvent) : Prop where
  route : NoPanic (route env a ev)
  apply : ∀ {routed evs}, Propfirm.route env a ev = .ok (routed, evs) → NoPanic (applyEvent env routed ev)
  rules : ∀ s : Evaluated env a ev, ∀ rule ∈ p.registry.rules, rule.runsIn s.ctx = true →
    NoPanic (rule.evaluate s.ctx)

/-- The accounts of every run are opened under the plan they have. -/
theorem Run.ofPlan (h : Run a calls b) (ha : a.Fresh) : b.OfPlan b.plan := by
  have hterms := (Run.terms h).1
  have hinitial : b.initialBalance = a.initialBalance := congrArg Prod.fst hterms
  have hmoney : b.plan.initialBalanceMoney = a.plan.initialBalanceMoney :=
    congrArg (fun x : Money × ChallengePlan => x.2.initialBalanceMoney) hterms
  refine ⟨rfl, ?_⟩
  rw [hinitial, hmoney]
  rcases ha with ⟨id, tenantId, plan, rfl⟩ | ⟨id, tenantId, plan, at_, hstart⟩
  · rfl
  · obtain ⟨-, _, -, rfl⟩ := Account.start_eq hstart
    rfl

/-! ## The trading day -/

namespace ChallengePlan

/-- The reset on a date is one instant of the zone. -/
def resolves (plan : ChallengePlan) (date : ℤ) : Bool := (plan.zone.fromLocal (plan.resetOn date)).isSome

theorem tradingDayStart_noPanic_iff :
    NoPanic (plan.tradingDayStart t) ↔ plan.dayResetTime < 24 ∧ plan.resolves (plan.localDate t) = true := by
  by_cases hreset : plan.dayResetTime < 24
  · rw [tradingDayStart_eq hreset, noPanic_map, noPanic_expect (by decide)]
    exact (and_iff_right hreset).symm
  · have hpanic : plan.tradingDayStart t = panicWith "valid hour" := by
      unfold tradingDayStart
      split <;> simp only [atHour, if_neg hreset] <;> rfl
    rw [hpanic, noPanic_panicWith]
    exact iff_of_false (by decide) fun h => hreset h.1

theorem nextTradingDayStart_noPanic_iff (hreset : plan.dayResetTime < 24) :
    NoPanic (plan.nextTradingDayStart t) ↔ plan.resolves (plan.localDate t + 1) = true := by
  rw [nextTradingDayStart_eq hreset, noPanic_expect (by decide)]
  rfl

theorem lt_of_reset {t o v o' s : ℤ} {hour : ℕ}
    (hreset : v + o' = (t + o) / (1 * 86400000000000) * 86400000000000 + hour * 3600000000000)
    (ho : -(1 * 86400000000000) < o) (ho' : o' < 1 * 86400000000000) (hs : v - 1 * 86400000000000 ≤ s) :
    t - 4 * 86400000000000 < s := by
  omega

/-- The start of a day lies less than four days back. -/
theorem lt_tradingDayStart (hzone : plan.zone.Sound) (hreset : plan.dayResetTime < 24)
    (h : plan.tradingDayStart t = .ok s) : t - Duration.days 4 < s := by
  rw [tradingDayStart_eq hreset] at h
  obtain ⟨u, hu, hs⟩ := map_eq_ok.mp h
  cases hlocal : plan.zone.fromLocal (plan.resetOn (plan.localDate t)) with
  | none => rw [hlocal] at hu; cases hu
  | some v =>
      rw [hlocal] at hu
      obtain rfl := Except.ok.inj hu
      -- the reset is on the date of `t`, and neither offset exceeds a day
      have hthat := hzone.localTime_eq hlocal
      have hnow := abs_lt.mp (hzone.offset_lt t)
      have hthen := abs_lt.mp (hzone.offset_lt v)
      have hback : v - Duration.days 1 ≤ s := by
        rw [← hs]
        split
        · exact sub_le_self v (by decide)
        · exact le_rfl
      exact lt_of_reset hthat hnow.1 hthen.2 hback

/-- On every date that occurs, and on the date after it, the reset is one instant; the leverage is not
zero; and a daily loss limit is not a share of what the account may lose. -/
structure Runnable (plan : ChallengePlan) : Prop where
  reset_lt : plan.dayResetTime < 24
  today : ∀ t, plan.resolves (plan.localDate t) = true
  tomorrow : ∀ t, plan.resolves (plan.localDate t + 1) = true
  leverage_ne : plan.leverage ≠ 0
  limit : plan.maxDailyDrawdownPct = 0 ∨ plan.dailyLossType = .none ∨ plan.dailyLossType = .pctInitial

theorem Runnable.tradingDayStart (h : plan.Runnable) (t : Timestamp) : NoPanic (plan.tradingDayStart t) :=
  tradingDayStart_noPanic_iff.mpr ⟨h.reset_lt, h.today t⟩

theorem Runnable.daysUpTo (h : plan.Runnable) (eventDay : Timestamp) (fuel : ℕ) (start : Timestamp) :
    NoPanic (plan.daysUpTo t eventDay fuel start) := by
  induction fuel generalizing start with
  | zero => exact noPanic_panicWith.mpr rfl
  | succ fuel ih =>
      refine failsOnly_ite ?_ noPanic_pure
      refine noPanic_bind ((nextTradingDayStart_noPanic_iff h.reset_lt).mpr (h.tomorrow start)) fun next => ?_
      refine noPanic_bind (h.tradingDayStart _) fun dayStart => ?_
      exact noPanic_bind (ih dayStart) fun _ => noPanic_pure

theorem Runnable.daysAhead (h : plan.Runnable) (stored : Option Timestamp) :
    NoPanic (plan.daysAhead stored t) := by
  refine noPanic_bind (h.tradingDayStart t) fun eventDay => ?_
  cases stored with
  | none => exact noPanic_pure
  | some start => exact h.daysUpTo eventDay _ start

theorem validate_ok (h : plan.validate = .ok ()) :
    0 < plan.initialBalanceMoney ∧ 0 ≤ plan.maxDailyDrawdownPct := by
  obtain ⟨⟨⟩, hbalance, h⟩ := bind_eq_ok.mp h
  obtain ⟨⟨⟩, -, h⟩ := bind_eq_ok.mp h
  obtain ⟨⟨⟩, hdaily, -⟩ := bind_eq_ok.mp h
  constructor
  · by_contra hle
    rw [rejectIf, if_pos (not_lt.mp hle)] at hbalance
    cases hbalance
  · by_contra hlt
    rw [rejectIf, if_pos (.inl (not_le.mp hlt))] at hdaily
    cases hdaily

end ChallengePlan

/-! ## Safe calls -/

theorem fillPosition_noPanic {freshId : PositionId} {positions : List Position} {trade : Trade} :
    NoPanic (fillPosition freshId positions trade) := by
  unfold fillPosition
  repeat' split
  all_goals simp

theorem admitTick_noPanic {now : Timestamp} {last : Option Timestamp} {tick : Tick} :
    NoPanic (admitTick now last tick) := by
  refine failsOnly_ite noPanic_raise ?_
  split
  · exact noPanic_ok
  · exact failsOnly_ite noPanic_raise noPanic_ok

theorem applyBranch_noPanic (hev : ev.isTrading = true) : NoPanic (applyBranch env a ev) := by
  cases ev with
  | orderSubmitted order => exact noPanic_ok
  | tradeFilled trade => exact noPanic_bind fillPosition_noPanic fun _ => noPanic_pure
  | tick tick equity balance => exact noPanic_bind admitTick_noPanic fun _ => noPanic_pure
  | tickEstimated tick => exact noPanic_ok
  | _ => cases hev

theorem ChallengePlan.Runnable.divides (h : plan.Runnable) (hvalid : plan.validate = .ok ())
    (ha : a.OfPlan plan) (s : Evaluated env a ev) : s.ctx.Divides := by
  have hplan : s.ctx.account.plan = plan := s.ctx_plan.trans ha.plan_eq
  have hinitial := s.ctx_initialBalance.trans ha.initial_eq
  constructor
  · intro symbol
    rw [Evaluated.ctx, buildContext_instruments]
    exact one_ne_zero
  · rw [hplan]
    exact h.leverage_ne
  · intro reference dd href hrate
    rw [hplan] at hrate
    simp only [DailyDrawdownRule.referenceAndLoss, hplan] at href
    rcases h.limit with hzero | htype | htype
    · exact absurd hzero hrate.ne'
    · rw [htype] at href
      cases href
    · rw [htype] at href
      obtain ⟨rfl, -⟩ := Prod.mk.inj (Option.some.inj href)
      rw [hinitial]
      exact (ChallengePlan.validate_ok hvalid).1.ne'

theorem ChallengePlan.Runnable.safeCall (h : plan.Runnable) (hvalid : plan.validate = .ok ())
    (hp : p.registry.IsDefault) (ha : a.OfPlan plan) (hev : ev.isTrading = true) : SafeCall p env a ev := by
  constructor
  · rw [route_eq_map]
    refine failsOnly_ite noPanic_ok (noPanic_map.mpr ?_)
    rw [ha.plan_eq]
    exact h.daysAhead _
  · intro routed evs hroute
    have hplan : routed.plan = plan :=
      (eq_of_outsideDays (route_outsideDays hroute) Account.plan fun _ => rfl).trans ha.plan_eq
    refine noPanic_bind ?_ fun dayStart => applyBranch_noPanic hev
    rw [hplan]
    exact h.tradingDayStart _
  · intro s rule hrule _
    obtain ⟨rules, hsub, heq⟩ := hp.exists_sublist
    rw [heq] at hrule
    obtain ⟨r, hr, rfl⟩ := List.mem_map.mp hrule
    exact evaluate_noPanic_iff.mpr (judge_noPanic (h.divides hvalid ha s) (hsub.subset hr))

/-! ## Unsafe calls -/

/-- No call panics that processes an order, a fill or a tick on an account of the plan. -/
def ChallengePlan.SafeUnder (plan : ChallengePlan) (p : Pipeline) : Prop :=
  ∀ env a ev, a.OfPlan plan → ev.isTrading = true → SafeCall p env a ev

def quoteAt (t : Timestamp) : Tick := ⟨⟨"EURUSD"⟩, ⟨1, 1, t⟩⟩

def pricedOrder : Order where
  id := ⟨1⟩
  accountId := ⟨1⟩
  symbol := ⟨"EURUSD"⟩
  side := .buy
  kind := .open
  orderType := .limit 1
  quantity := 1
  stopLoss := none
  takeProfit := none
  submittedAt := 0
  avgFillPrice := none

/-- A started account that has lost everything. -/
def ruinedAccount (plan : ChallengePlan) : Account :=
  { Account.new ⟨1⟩ ⟨1⟩ plan with
    startedAt := some 0
    peakBalance := 0
    dayStartBalance := 0
    dayStartEquity := 0
    intradayPeakEquity := 0 }

theorem ruinedAccount_reference (trades : List Trade) (hnone : plan.dailyLossType ≠ .none)
    (hinitial : plan.dailyLossType ≠ .pctInitial) :
    DailyDrawdownRule.referenceAndLoss
      ((({ ruinedAccount plan with todayTrades := trades } : Account).updateEquity 0).updateBalance 0) =
        some (0, 0) := by
  simp only [DailyDrawdownRule.referenceAndLoss, Account.updateBalance, Account.updateEquity, ruinedAccount,
    Account.new]
  cases htype : plan.dailyLossType with
  | none => exact absurd htype hnone
  | pctInitial => exact absurd htype hinitial
  | pctPriorDay => by_cases hon : plan.drawdownOnBalance = true <;> simp [hon]
  | trailingIntradayHigh => by_cases hon : plan.drawdownOnBalance = true <;> simp [hon]

/-- An account without a stored day needs no catching up. -/
theorem route_unstored {day : Timestamp} (hstored : a.currentTradingDayStart = none)
    (hev : ev.isDayRollover = false)
    (hday : a.plan.tradingDayStart (ev.eventTimestamp env.routingNow) = .ok day) :
    route env a ev = .ok (a, []) := by
  rw [route_eq_map, hev, hstored]
  simp only [ChallengePlan.daysAhead, hday]
  rfl

theorem exists_evaluated {day t : Timestamp} {applied : AppliedEvent}
    (hstored : a.currentTradingDayStart = none) (hev : ev.isDayRollover = false)
    (hday : a.plan.tradingDayStart (ev.eventTimestamp t) = .ok day)
    (happly : applyBranch (.at t)
      { a with todayTrades := a.todayTrades.filter fun trade => day ≤ trade.executedAt } ev = .ok applied) :
    ∃ s : Evaluated (.at t) a ev, s.routed = a := by
  have hbranch : applyEvent (.at t) a ev = .ok applied := by
    rw [← happly]
    simp only [applyEvent, Env.at, hday]
    rfl
  exact ⟨⟨a, [], applied, route_unstored hstored hev hday, hbranch⟩, rfl⟩

namespace Evaluated

theorem tick_kind {tick : Tick} {equity balance : Money} (s : Evaluated env a (.tick tick equity balance)) :
    s.ctx.kind = .onTick := by
  obtain ⟨day, -, h⟩ := bind_eq_ok.mp s.apply_eq
  obtain ⟨⟨⟩, -, h⟩ := bind_eq_ok.mp h
  rw [ctx, ← Except.ok.inj h]
  rfl

theorem tick_account {tick : Tick} {equity balance : Money}
    (s : Evaluated env a (.tick tick equity balance)) :
    ∃ trades, s.ctx.account =
      (({ s.routed with todayTrades := trades } : Account).updateEquity equity).updateBalance balance := by
  rw [ctx, buildContext_account]
  obtain ⟨trades, htr⟩ := applyEvent_transition s.apply_eq
  refine ⟨trades, ?_⟩
  generalize s.applied.account = b at htr
  cases htr
  rfl

end Evaluated

namespace ChallengePlan.SafeUnder

theorem daysAhead (h : plan.SafeUnder p) (stored : Option Timestamp) (t : Timestamp) :
    NoPanic (plan.daysAhead stored t) := by
  let a : Account := { Account.new ⟨1⟩ ⟨1⟩ plan with currentTradingDayStart := stored }
  have hroute := (h (.at t) a (.tickEstimated (quoteAt t)) ⟨rfl, rfl⟩ rfl).route
  rw [route_eq_map] at hroute
  exact noPanic_map.mp hroute

theorem tradingDayStart (h : plan.SafeUnder p) (t : Timestamp) : NoPanic (plan.tradingDayStart t) :=
  noPanic_of_bind (h.daysAhead none t)

theorem exists_tradingDayStart (h : plan.SafeUnder p) (t : Timestamp) :
    ∃ day, plan.tradingDayStart t = .ok day := by
  obtain ⟨hreset, hresolves⟩ := tradingDayStart_noPanic_iff.mp (h.tradingDayStart t)
  obtain ⟨u, hu⟩ := Option.isSome_iff_exists.mp hresolves
  refine ⟨if u ≤ t then u else u - Duration.days 1, ?_⟩
  rw [tradingDayStart_eq hreset, hu]
  rfl

theorem nextTradingDayStart (h : plan.SafeUnder p) (hzone : plan.zone.Sound)
    (hreset : plan.dayResetTime < 24) (start : Timestamp) : NoPanic (plan.nextTradingDayStart start) := by
  -- four days on, the catch-up asks for the day after the stored one
  obtain ⟨day, hday⟩ := h.exists_tradingDayStart (start + Duration.days 4)
  have hlt : start < day := by
    have hafter := lt_tradingDayStart hzone hreset hday
    rwa [add_sub_cancel_right] at hafter
  have hloop := noPanic_of_bind_ok (h.daysAhead (some start) _) hday
  simp only [rolloverFuel, daysUpTo, if_pos hlt] at hloop
  exact noPanic_of_bind hloop

theorem leverage_ne (h : plan.SafeUnder p) (hp : p.registry.IsDefault) : plan.leverage ≠ 0 := by
  obtain ⟨day, hday⟩ := h.exists_tradingDayStart 0
  let a : Account := Account.new ⟨1⟩ ⟨1⟩ plan
  obtain ⟨s, -⟩ : ∃ s : Evaluated (.at 0) a (.orderSubmitted pricedOrder), s.routed = a :=
    exists_evaluated rfl rfl hday rfl
  have hruns : marginRule.toRule.runsIn s.ctx = true := by
    rw [Rule.runsIn, s.order_kind]
    rfl
  have hrule := (h (.at 0) a (.orderSubmitted pricedOrder) ⟨rfl, rfl⟩ rfl).rules s marginRule.toRule
    (hp.mem (by simp [defaultRules]) fun _ => rfl) hruns
  have hsize : (s.ctx.instruments.get pricedOrder.symbol).contractSize ≠ 0 := by
    rw [Evaluated.ctx, buildContext_instruments]
    exact one_ne_zero
  have hne := leverage_ne_of_margin rfl (by decide +kernel) rfl hsize (evaluate_noPanic_iff.mp hrule)
  rwa [s.ctx_plan] at hne

/-- On an account that has lost everything, a limit that is a share of what it had is zero. -/
theorem limit (h : plan.SafeUnder p) (hp : p.registry.IsDefault) (hvalid : plan.validate = .ok ()) :
    plan.maxDailyDrawdownPct = 0 ∨ plan.dailyLossType = .none ∨ plan.dailyLossType = .pctInitial := by
  by_contra hnot
  obtain ⟨hrate, hnone, hinitial⟩ : plan.maxDailyDrawdownPct ≠ 0 ∧ plan.dailyLossType ≠ .none ∧
      plan.dailyLossType ≠ .pctInitial := by
    simpa only [not_or] using hnot
  obtain ⟨day, hday⟩ := h.exists_tradingDayStart 0
  obtain ⟨s, hrouted⟩ :
      ∃ s : Evaluated (.at 0) (ruinedAccount plan) (.tick (quoteAt 0) 0 0), s.routed = ruinedAccount plan :=
    exists_evaluated rfl rfl hday rfl
  obtain ⟨trades, haccount⟩ := s.tick_account
  rw [hrouted] at haccount
  have hpos : 0 < s.ctx.account.plan.maxDailyDrawdownPct := by
    rw [s.ctx_plan]
    exact (validate_ok hvalid).2.lt_of_ne' hrate
  have hruns : (dailyDrawdownRule none).toRule.runsIn s.ctx = true := by
    rw [Rule.runsIn, s.tick_kind]
    exact Bool.and_eq_true_iff.mpr ⟨decide_eq_true hpos, rfl⟩
  have hrule := (h (.at 0) (ruinedAccount plan) (.tick (quoteAt 0) 0 0) ⟨rfl, rfl⟩ rfl).rules s
    (dailyDrawdownRule none).toRule (hp.mem (by simp [defaultRules]) fun _ => rfl) hruns
  have hstarted : s.ctx.requireStarted = .ok () := by
    rw [RuleContext.requireStarted, haccount]
    rfl
  have href : DailyDrawdownRule.referenceAndLoss s.ctx.account = some (0, 0) := by
    rw [haccount]
    exact ruinedAccount_reference trades hnone hinitial
  exact reference_ne_of_dailyDrawdown hpos hstarted rfl href (evaluate_noPanic_iff.mp hrule) rfl

end ChallengePlan.SafeUnder

/-- Every call on the accounts of a validated plan is safe exactly if the plan resolves its resets, has a
leverage, and measures a daily loss against the initial balance or not at all. -/
theorem validated_plans_safe_iff (hvalid : plan.validate = .ok ()) (hzone : plan.zone.Sound)
    (hp : p.registry.IsDefault) : plan.SafeUnder p ↔ plan.Runnable := by
  constructor
  · intro h
    have hday (t : Timestamp) : plan.dayResetTime < 24 ∧ plan.resolves (plan.localDate t) = true :=
      ChallengePlan.tradingDayStart_noPanic_iff.mp (h.tradingDayStart t)
    have hreset := (hday 0).1
    exact
      { reset_lt := hreset
        today := fun t => (hday t).2
        tomorrow := fun t =>
          (ChallengePlan.nextTradingDayStart_noPanic_iff hreset).mp (h.nextTradingDayStart hzone hreset t)
        leverage_ne := h.leverage_ne hp
        limit := h.limit hp hvalid }
  · intro h env a ev ha hev
    exact h.safeCall hvalid hp ha hev

/-- Daily losses are measured against the initial balance. -/
def initialLossPlan : ChallengePlan := { promptPlan with dailyLossType := .pctInitial }

theorem initialLossPlan_runnable : initialLossPlan.Runnable where
  reset_lt := by decide
  today := fun _ => rfl
  tomorrow := fun _ => rfl
  leverage_ne := by decide
  limit := .inr (.inr rfl)

theorem validated_plans_safe_after_fill :
    ∃ (a b : Account) (calls : List Processed),
      a.Fresh ∧ Run a calls b ∧ calls.map Processed.ev = [.tradeFilled (closingFill (-100) 1)] ∧
        SafeCall (.ofPlan initialLossPlan) (.at 2) b (.orderSubmitted pricedOrder) := by
  have hrun :
      (do
        let a ← (Account.new ⟨1⟩ ⟨1⟩ initialLossPlan).start 0
        let r ← (Pipeline.ofPlan initialLossPlan).process (.at 1) a (.tradeFilled (closingFill (-100) 1))
        pure (a.plan.phase, r.account.plan.phase)) = .ok (.phase1, .phase1) := by
    decide +kernel
  obtain ⟨a, hstart, hrun⟩ := bind_eq_ok.mp hrun
  obtain ⟨r, h, hrun⟩ := bind_eq_ok.mp hrun
  obtain ⟨hphase, hphase'⟩ := Prod.mk.inj (pure_eq_ok.mp hrun)
  have hfresh : a.Fresh := .inr ⟨_, _, _, _, hstart⟩
  have hcalls : Run a [.of h] r.account := .cons (Processed.of h) .nil
  have hplan : r.account.plan = initialLossPlan := by
    obtain ⟨s⟩ := Pipeline.process_passage h
    rw [s.account_plan_of_not_promotable (s.not_promotable_of_phase (hphase'.trans hphase.symm))]
    obtain ⟨-, _, -, rfl⟩ := Account.start_eq hstart
    rfl
  have hof : r.account.OfPlan initialLossPlan := hplan ▸ Run.ofPlan hcalls hfresh
  have hvalid : initialLossPlan.validate = .ok () := by decide +kernel
  have hzone : initialLossPlan.zone.Sound := Tz.utc_sound
  have hp : (Pipeline.ofPlan initialLossPlan).registry.IsDefault := .inr ⟨_, rfl⟩
  have hsafe := (validated_plans_safe_iff hvalid hzone hp).mpr initialLossPlan_runnable
  exact ⟨a, r.account, _, hfresh, hcalls, rfl, hsafe _ _ _ hof rfl⟩

/-- What the registry reports of a rule. -/
def PipelineResult.messages (r : PipelineResult) (name : RuleName) : List (Option Text) :=
  (r.result.reports.filter fun report => report.ruleId = .named name).map fun report =>
    report.verdict.violation.map Violation.message

def caughtPanic : List (Option Text) :=
  [some [.lit "rule panicked (caught by registry, process preserved): ", .lit "Division by zero"]]

/-- A reset hour of 24, a reset that the clock skips, no leverage, and the day after an account of the
default plan has lost everything. -/
theorem validated_plans_panic :
    ({ promptPlan with dayResetTime := 24 } : ChallengePlan).validate = .ok () ∧
      ((Pipeline.ofPlan promptPlan).process (.at 1)
        (Account.new ⟨1⟩ ⟨1⟩ { promptPlan with dayResetTime := 24 }) (.tickEstimated (quoteAt 1))).map
          (fun _ => ()) = panicWith "valid hour" ∧
      (zonedPlan newYorkSpring 2).validate = .ok () ∧
      (do
        let a ← (Account.new ⟨1⟩ ⟨1⟩ (zonedPlan newYorkSpring 2)).start (Duration.days 20519)
        let _ ← (Pipeline.ofPlan (zonedPlan newYorkSpring 2)).process (.at (Duration.days 20521)) a
          (.tickEstimated (quoteAt (Duration.days 20521)))
        pure ()) = panicWith "LocalResult::unwrap" ∧
      ({ promptPlan with leverage := 0 } : ChallengePlan).validate = .ok () ∧
      (do
        let a ← (Account.new ⟨1⟩ ⟨1⟩ { promptPlan with leverage := 0 }).start 0
        let r ← (Pipeline.ofPlan { promptPlan with leverage := 0 }).process (.at 1) a
          (.orderSubmitted pricedOrder)
        pure (r.messages .margin)) = .ok caughtPanic ∧
      promptPlan.validate = .ok () ∧
      (do
        let a ← (Account.new ⟨1⟩ ⟨1⟩ promptPlan).start 0
        let r ← (Pipeline.ofPlan promptPlan).process (.at 1) a (.tick (quoteAt 1) 0 0)
        let r' ← (Pipeline.ofPlan promptPlan).process (.at (Duration.days 1)) r.account
          (.tick (quoteAt (Duration.days 1)) 0 0)
        pure (r'.messages .dailyDrawdown)) = .ok caughtPanic := by
  decide +kernel

end Propfirm
