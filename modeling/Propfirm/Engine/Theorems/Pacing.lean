import Propfirm.Engine.Theorems.Caps
import Propfirm.Engine.Theorems.History
import Propfirm.Lib.Retention
import Propfirm.Rules.Lemmas.Texts

/-!
# The pace of trading

The cooldown and the ban on scalping look at the trades of the day. That list forgets: a new day empties it,
and an event drops what was executed before its own day.
-/

namespace Propfirm

open Fallible Retention

variable {env : Env} {a b : Account} {ev : PipelineEvent} {order : Order} {trade : Trade}
  {calls : List Processed} {params : Option RuleParams} {ctx : RuleContext}

/-! ## What a call keeps -/

namespace Processed

/-- A new trading day begins with the call. -/
def turnsDay (c : Processed) : Bool := c.ev.isDayRollover || c.before.behind c.routedAt

/-- The call leaves the trade in the list of the day. -/
def keeps (c : Processed) (trade : Trade) : Bool :=
  !c.turnsDay &&
    match c.before.plan.tradingDayStart c.appliedAt with
    | .ok day => decide (day ≤ trade.executedAt)
    | .error _ => false

def fills (c : Processed) : List Trade := c.ev.fills

theorem filter_keeps (c : Processed) (s : Evaluated c.env c.before c.ev) (hev : c.ev.isDayRollover = false)
    {dayStart : Timestamp} (hday : s.routed.plan.tradingDayStart c.appliedAt = .ok dayStart) :
    (s.routed.todayTrades.filter fun trade => decide (dayStart ≤ trade.executedAt)) =
      c.before.todayTrades.filter c.keeps := by
  have hplan : s.routed.plan = c.before.plan := s.routed_reading Account.plan fun _ => rfl
  rw [hplan] at hday
  rw [route_todayTrades hev s.route_eq]
  have hkeeps :
      c.keeps = fun trade => !c.before.behind c.routedAt && decide (dayStart ≤ trade.executedAt) := by
    funext trade
    rw [keeps, turnsDay, hev, hday, Bool.false_or]
  rw [hkeeps, routedAt]
  cases c.before.behind (c.ev.eventTimestamp c.env.routingNow) <;> simp

end Processed

theorem Evaluated.filled_todayTrades_rollover {had : Bool} (s : Evaluated env a (.dayRollover had)) :
    s.filled.todayTrades = [] := by
  rw [s.filled_eq fun trade h => by cases h]
  obtain ⟨day, -, hbranch⟩ := bind_eq_ok.mp s.apply_eq
  obtain ⟨rolled, hrolled, hbranch⟩ := bind_eq_ok.mp hbranch
  obtain ⟨dayStart, -, rfl⟩ := rolloverDay_ok.mp hrolled
  rw [← pure_eq_ok.mp hbranch]
  cases had <;> rfl

namespace Processed

theorem after_todayTrades (c : Processed) :
    c.after.todayTrades = c.before.todayTrades.filter c.keeps ++ c.fills := by
  obtain ⟨s⟩ := c.passage
  rw [after, s.account_todayTrades]
  cases hev : c.ev.isDayRollover with
  | false =>
      obtain ⟨dayStart, hday, hbranch⟩ := bind_eq_ok.mp s.apply_eq
      rw [Evaluated.filled, applyBranch_consumeFill hbranch hev]
      exact congrArg (· ++ c.ev.fills) (c.filter_keeps s.toEvaluated hev hday)
  | true =>
      obtain ⟨p, env, a, ev, r, hprocess⟩ := c
      obtain ⟨had, rfl⟩ : ∃ had, ev = .dayRollover had := by
        cases ev <;> first | exact ⟨_, rfl⟩ | cases hev
      have hkeeps : keeps ⟨p, env, a, .dayRollover had, r, hprocess⟩ = fun _ => false := rfl
      rw [s.filled_todayTrades_rollover, hkeeps, List.filter_false]
      rfl

/-- The rules see the list before the fill that is judged. -/
theorem context_todayTrades (c : Processed) (hev : c.ev.isDayRollover = false) :
    c.context.todayTrades = c.before.todayTrades.filter c.keeps := by
  obtain ⟨s⟩ := c.passage
  obtain ⟨dayStart, hday, hbranch⟩ := bind_eq_ok.mp s.apply_eq
  rw [c.context_eq s.toEvaluated, Evaluated.ctx, buildContext_todayTrades, (applyBranch_lists hbranch).2]
  exact c.filter_keeps s.toEvaluated hev hday

theorem context_of_fill (c : Processed) (hev : c.ev = .tradeFilled trade) :
    c.context.kind = .onTradeFill ∧ c.context.latestTrade = some trade := by
  obtain ⟨p, env, a, ev, r, hprocess⟩ := c
  obtain rfl : ev = .tradeFilled trade := hev
  obtain ⟨s⟩ := Pipeline.process_passage hprocess
  rw [context_eq _ s.toEvaluated]
  obtain ⟨day, -, hbranch⟩ := bind_eq_ok.mp s.apply_eq
  obtain ⟨position, -, hbranch⟩ := bind_eq_ok.mp hbranch
  rw [Evaluated.ctx, ← pure_eq_ok.mp hbranch]
  exact ⟨rfl, rfl⟩

end Processed

/-! ## What is left of the fills -/

theorem fillsOf_eq_added (calls : List Processed) : fillsOf calls = added Processed.fills calls := by
  induction calls with
  | nil => rfl
  | cons c earlier ih => rw [fillsOf, added, ih, Processed.fills]

/-- The trades of the day after a run, from those before it and the fills. -/
def tradesLeft (trades : List Trade) (calls : List Processed) : List Trade :=
  retained Processed.keeps Processed.fills trades calls

theorem Run.todayTrades (h : Run a calls b) : b.todayTrades = tradesLeft a.todayTrades calls := by
  induction h with
  | nil => rfl
  | @cons earlier c _ ih =>
      rw [c.after_todayTrades, ih]
      rfl

theorem Processed.context_trades (c : Processed) (h : Run a calls c.before)
    (hev : c.ev.isDayRollover = false) :
    c.context.todayTrades = (tradesLeft a.todayTrades calls).filter c.keeps := by
  rw [c.context_todayTrades hev, Run.todayTrades h]

theorem Processed.reports_iff {c : Processed} {r : StdRule} {k : DecisionKind}
    (hbuilt : c.pipeline.registry.IsBuilt) (hmem : r.toRule ∈ c.pipeline.registry.rules) :
    c.Reports r.id k ↔
      r.toRule.runsIn c.context = true ∧ (r.toRule.verdict c.context).decisionKind = k := by
  rw [Reports, c.reports_eq]
  exact hbuilt.reports_iff hmem

/-! ## Cooldown -/

/-- The order comes in fewer whole seconds after the trade than the plan asks for, as the rule reckons. -/
def ChallengePlan.TooSoon (plan : ChallengePlan) (order : Order) (trade : Trade) : Prop :=
  Duration.numSeconds (order.submittedAt - trade.executedAt) < asI64 plan.cooldownSeconds

theorem CooldownRule.verdict_iff (horder : ctx.pendingOrder = some order)
    (hcooldown : 0 < ctx.account.plan.cooldownSeconds) :
    ((cooldownRule none).toRule.verdict ctx).decisionKind = .warn ↔
      ∃ last, ctx.todayTrades.getLast? = some last ∧ ctx.account.plan.TooSoon order last := by
  have hjudge : (cooldownRule none).judge ctx = judge none ctx := rfl
  simp only [judge, effectiveSeconds, bind, Except.bind, if_neg hcooldown.ne', horder] at hjudge
  cases hlast : ctx.todayTrades.getLast? with
  | none =>
      rw [hlast] at hjudge
      rw [StdRule.verdict_decisionKind hjudge]
      simp [Verdict.decisionKind]
  | some last =>
      rw [hlast] at hjudge
      dsimp only at hjudge
      split at hjudge
      · rename_i hsoon
        rw [StdRule.verdict_decisionKind hjudge]
        exact iff_of_true rfl ⟨last, rfl, hsoon⟩
      · rename_i hlate
        rw [StdRule.verdict_decisionKind hjudge]
        simpa [Verdict.decisionKind, ChallengePlan.TooSoon] using hlate

theorem Duration.numSeconds_lt {d : ℤ} {n : ℕ} (hn : 0 < n) (h : d < Duration.seconds n) :
    numSeconds d < n := by
  change d < n * 1000000000 at h
  rw [numSeconds]
  rcases le_total 0 d with hd | hd
  · rw [Int.tdiv_eq_ediv_of_nonneg hd]
    omega
  · -- rounding is towards zero
    have hneg := Int.tdiv_nonneg (neg_nonneg.mpr hd) (show (0 : ℤ) ≤ 1000000000 by decide)
    rw [Int.neg_tdiv] at hneg
    omega

theorem ChallengePlan.tooSoon_of_lt {plan : ChallengePlan} {later : Trade}
    (hcooldown : 0 < plan.cooldownSeconds) (hrange : plan.cooldownSeconds < 2 ^ 63)
    (hsoon : order.submittedAt < trade.executedAt + Duration.seconds plan.cooldownSeconds)
    (hlater : trade.executedAt ≤ later.executedAt) : plan.TooSoon order later := by
  have hlt : order.submittedAt - later.executedAt < Duration.seconds plan.cooldownSeconds :=
    sub_lt_iff_lt_add'.mpr (hsoon.trans_le (add_le_add_left hlater _))
  rw [TooSoon, asI64, if_pos hrange]
  exact Duration.numSeconds_lt hcooldown hlt

/-- Of a list that ends in an item and others, the last is one of them. -/
theorem getLast?_append_cons {α : Type} (before : List α) (x : α) (after : List α) :
    ∃ last ∈ x :: after, (before ++ x :: after).getLast? = some last := by
  refine ⟨_, List.getLast_mem (List.cons_ne_nil x after), ?_⟩
  rw [List.getLast?_append_of_ne_nil _ (List.cons_ne_nil x after), List.getLast?_eq_some_getLast]

theorem Processed.cooldown_reports_iff {c : Processed} (h : Run a calls c.before)
    (hev : c.ev = .orderSubmitted order) (hbuilt : c.pipeline.registry.IsBuilt)
    (hmem : (cooldownRule none).toRule ∈ c.pipeline.registry.rules)
    (hcooldown : 0 < c.before.plan.cooldownSeconds) :
    c.Reports .cooldown .warn ↔
      ∃ last, ((tradesLeft a.todayTrades calls).filter c.keeps).getLast? = some last ∧
        c.before.plan.TooSoon order last := by
  obtain ⟨hkind, horder⟩ := c.context_of_order hev
  rw [← c.context_plan] at hcooldown ⊢
  have hruns : (cooldownRule none).toRule.runsIn c.context = true := by
    simp [Rule.runsIn, StdRule.toRule, cooldownRule, CooldownRule.isEnabled, packValueEnabled, hcooldown,
      hkind, EvaluationScope.appliesTo]
  have hid : (cooldownRule none).id = .cooldown := rfl
  rw [← hid, Processed.reports_iff hbuilt hmem, hruns, CooldownRule.verdict_iff horder hcooldown,
    c.context_trades h (by rw [hev]; rfl)]
  exact and_iff_right rfl

/-- A fill that is kept leaves itself or a later one at the end of the list. -/
theorem exists_last_of_keeps {c fill : Processed} {later earlier : List Processed} (trades : List Trade)
    (hfills : c.fills = []) (hfill : fill.ev = .tradeFilled trade)
    (hkeeps : ∀ c' ∈ c :: later, c'.keeps trade = true) :
    ∃ last, ((tradesLeft trades (later ++ fill :: earlier)).filter c.keeps).getLast? = some last ∧
      (last = trade ∨ last ∈ fillsOf later) := by
  obtain ⟨xs, hxs⟩ : ∃ xs, tradesLeft trades (fill :: earlier) = xs ++ [trade] :=
    ⟨_, by rw [tradesLeft, retained, Processed.fills, hfill]; rfl⟩
  obtain ⟨before, after, hsplit, hafter⟩ := retained_split Processed.fills hkeeps xs
  rw [retained, hfills, List.append_nil, ← hxs, tradesLeft, ← retained_append] at hsplit
  rw [added, hfills, List.append_nil, ← fillsOf_eq_added] at hafter
  obtain ⟨last, hmem, hlast⟩ := getLast?_append_cons before trade after
  refine ⟨last, (congrArg _ hsplit).trans hlast, ?_⟩
  exact (List.mem_cons.mp hmem).imp_right fun hlater => hafter.subset hlater

/-- An order is measured against the last trade that is left of the day. Where a fill and all after it are
kept and in order, that trade is no older than the fill. -/
theorem cooldown_warned_iff {c : Processed} (h : Run a calls c.before) (hev : c.ev = .orderSubmitted order)
    (hbuilt : c.pipeline.registry.IsBuilt) (hmem : (cooldownRule none).toRule ∈ c.pipeline.registry.rules)
    (hcooldown : 0 < c.before.plan.cooldownSeconds) :
    (c.Reports .cooldown .warn ↔
        ∃ last, ((tradesLeft a.todayTrades calls).filter c.keeps).getLast? = some last ∧
          c.before.plan.TooSoon order last) ∧
      ∀ later fill earlier trade, calls = later ++ fill :: earlier → fill.ev = .tradeFilled trade →
        order.submittedAt < trade.executedAt + Duration.seconds c.before.plan.cooldownSeconds →
        c.before.plan.cooldownSeconds < 2 ^ 63 → (∀ c' ∈ c :: later, c'.keeps trade = true) →
        (∀ trade' ∈ fillsOf later, trade.executedAt ≤ trade'.executedAt) →
          c.Reports .cooldown .warn := by
  have hreports := Processed.cooldown_reports_iff h hev hbuilt hmem hcooldown
  refine ⟨hreports, fun later fill earlier trade hcalls hfill hsoon hrange hkeeps hordered => ?_⟩
  have hfills : c.fills = [] := by
    rw [Processed.fills, hev]
    rfl
  subst hcalls
  obtain ⟨last, hlast, hwhich⟩ := exists_last_of_keeps a.todayTrades hfills hfill hkeeps
  refine hreports.mpr ⟨last, hlast, ChallengePlan.tooSoon_of_lt hcooldown hrange hsoon ?_⟩
  rcases hwhich with rfl | hlater
  · exact le_rfl
  · exact hordered last hlater

theorem Processed.keeps_of_le {c : Processed} {day : Timestamp} (hev : c.ev.isDayRollover = false)
    (hbehind : c.before.behind c.routedAt = false)
    (hday : c.before.plan.tradingDayStart c.appliedAt = .ok day) (hle : day ≤ trade.executedAt) :
    c.keeps trade = true := by
  rw [keeps, turnsDay, hev, hbehind, hday]
  exact decide_eq_true hle

/-- The account after fills, latest first, each processed when it was executed. -/
def Pipeline.afterFills (p : Pipeline) (a : Account) : List Trade → Outcome Account
  | [] => pure a
  | trade :: earlier => do
      let b ← p.afterFills a earlier
      let r ← p.process (.at trade.executedAt) b (.tradeFilled trade)
      pure r.account

theorem Pipeline.afterFills_run {p : Pipeline} {trades : List Trade} (h : p.afterFills a trades = .ok b) :
    ∃ calls, Run a calls b ∧ fillsOf calls = trades.reverse := by
  induction trades generalizing b with
  | nil =>
      obtain rfl := pure_eq_ok.mp h
      exact ⟨[], .nil, rfl⟩
  | cons trade earlier ih =>
      obtain ⟨b', hearlier, h⟩ := bind_eq_ok.mp h
      obtain ⟨r, hprocess, h⟩ := bind_eq_ok.mp h
      obtain rfl := pure_eq_ok.mp h
      obtain ⟨calls, hcalls, hfills⟩ := ih hearlier
      refine ⟨Processed.of hprocess :: calls, .cons (Processed.of hprocess) hcalls, ?_⟩
      rw [fillsOf, hfills, List.reverse_cons]
      rfl

def cooldownPlan : ChallengePlan := { ChallengePlan.default ⟨1⟩ 0 with cooldownSeconds := 60 }

theorem mem_cooldownPlan : (cooldownRule none).toRule ∈ (Pipeline.ofPlan cooldownPlan).registry.rules :=
  mem_withDefaultRulesForPlan (by simp [defaultRules]) rfl

theorem cooldown_warned_after_fill :
    ∃ (a : Account) (calls : List Processed) (c : Processed), Run a calls c.before ∧
      fillsOf calls = [closingFill 0 (Duration.seconds 10)] ∧
      c.ev = .orderSubmitted (openOrder 1 (Duration.seconds 30)) ∧
      c.Reports .cooldown .warn := by
  have hrun :
      (do
        let a ← (Account.new ⟨1⟩ ⟨1⟩ cooldownPlan).start 0
        let b ← (Pipeline.ofPlan cooldownPlan).afterFills a [closingFill 0 (Duration.seconds 10)]
        let _ ← (Pipeline.ofPlan cooldownPlan).process (.at (Duration.seconds 30)) b
          (.orderSubmitted (openOrder 1 (Duration.seconds 30)))
        let day ← b.plan.tradingDayStart (Duration.seconds 30)
        pure (b.todayTrades, b.behind (Duration.seconds 30), day, b.plan.cooldownSeconds)) =
        .ok ([closingFill 0 (Duration.seconds 10)], false, 0, 60) := by
    decide +kernel
  obtain ⟨a, -, hrun⟩ := bind_eq_ok.mp hrun
  obtain ⟨b, hfills, hrun⟩ := bind_eq_ok.mp hrun
  obtain ⟨r, hprocess, hrun⟩ := bind_eq_ok.mp hrun
  obtain ⟨day, hday, hrun⟩ := bind_eq_ok.mp hrun
  have hfacts := pure_eq_ok.mp hrun
  simp only [Prod.mk.injEq] at hfacts
  obtain ⟨htoday, hbehind, rfl, hcooldown⟩ := hfacts
  obtain ⟨calls, hcalls, htrades⟩ := Pipeline.afterFills_run hfills
  have hwarned := cooldown_warned_iff (c := .of hprocess) hcalls rfl (.inl (.inr ⟨_, rfl⟩)) mem_cooldownPlan
    (by rw [hcooldown]; decide)
  refine ⟨a, calls, .of hprocess, hcalls, htrades, rfl,
    hwarned.1.mpr ⟨closingFill 0 (Duration.seconds 10), ?_, ?_⟩⟩
  · have hkeeps : (Processed.of hprocess).keeps (closingFill 0 (Duration.seconds 10)) = true :=
      Processed.keeps_of_le rfl hbehind hday (by decide)
    rw [← Run.todayTrades hcalls, htoday, List.filter_cons_of_pos hkeeps]
    rfl
  · change _ < asI64 b.plan.cooldownSeconds
    rw [hcooldown]
    decide

/-- A fill of the run is more recent than the cooldown allows, and nothing is said about the order. -/
def Processed.MissesCooldown (c : Processed) (trades : List Trade) : Prop :=
  ∃ order, c.ev = .orderSubmitted order ∧
    (∃ trade ∈ trades, trade.executedAt ≤ order.submittedAt ∧
      order.submittedAt < trade.executedAt + Duration.seconds c.before.plan.cooldownSeconds) ∧
    (cooldownRule none).toRule ∈ c.pipeline.registry.rules ∧ c.result.result.decision.kind = .pass

theorem missesCooldown_of_run (trades : List Trade) (order : Order)
    (h : (do
        let a ← (Account.new ⟨1⟩ ⟨1⟩ cooldownPlan).start 0
        let b ← (Pipeline.ofPlan cooldownPlan).afterFills a trades
        let r ← (Pipeline.ofPlan cooldownPlan).process (.at order.submittedAt) b (.orderSubmitted order)
        pure (b.plan.cooldownSeconds, r.result.decision.kind)) = .ok (60, .pass))
    (hrecent : ∃ trade ∈ trades.reverse, trade.executedAt ≤ order.submittedAt ∧
      order.submittedAt < trade.executedAt + Duration.seconds 60) :
    ∃ (a : Account) (calls : List Processed) (c : Processed),
      Run a calls c.before ∧ fillsOf calls = trades.reverse ∧ c.MissesCooldown (fillsOf calls) := by
  obtain ⟨a, -, h⟩ := bind_eq_ok.mp h
  obtain ⟨b, hfills, h⟩ := bind_eq_ok.mp h
  obtain ⟨r, hprocess, h⟩ := bind_eq_ok.mp h
  obtain ⟨hcooldown, hpass⟩ := Prod.mk.inj (pure_eq_ok.mp h)
  obtain ⟨calls, hcalls, htrades⟩ := Pipeline.afterFills_run hfills
  refine ⟨a, calls, .of hprocess, hcalls, htrades, order, rfl, ?_, mem_cooldownPlan, hpass⟩
  rw [htrades]
  change ∃ trade ∈ _, _ ∧ _ < _ + Duration.seconds b.plan.cooldownSeconds
  rw [hcooldown]
  exact hrecent

/-- A fill just before midnight is forgotten just after it, and one that was processed late hides a later
one. -/
theorem cooldown_forgotten :
    (∃ (a : Account) (calls : List Processed) (c : Processed), Run a calls c.before ∧
        fillsOf calls = [closingFill 0 (Duration.days 1 - Duration.seconds 10)] ∧
        c.MissesCooldown (fillsOf calls)) ∧
      ∃ (a : Account) (calls : List Processed) (c : Processed), Run a calls c.before ∧
        fillsOf calls = [closingFill 0 (Duration.seconds 100), closingFill 0 (Duration.seconds 10)] ∧
        c.MissesCooldown (fillsOf calls) := by
  constructor
  · exact missesCooldown_of_run [closingFill 0 (Duration.days 1 - Duration.seconds 10)]
      (openOrder 1 (Duration.days 1 + Duration.seconds 5)) (by decide +kernel)
      ⟨_, List.mem_cons_self, by decide, by decide⟩
  · exact missesCooldown_of_run [closingFill 0 (Duration.seconds 10), closingFill 0 (Duration.seconds 100)]
      (openOrder 1 (Duration.seconds 110)) (by decide +kernel) ⟨_, List.mem_cons_self, by decide, by decide⟩

/-! ## Scalping -/

namespace HftScalpingRule

/-- A window of so many seconds up to the time is out of range. -/
def WindowOut (t : Timestamp) (secs : ℤ) : Prop :=
  Duration.maxSeconds < |secs| ∨ t.Representable ∧ ¬(t - Duration.seconds secs : Timestamp).Representable

/-- The window of the round trips is out of range, or that of the closes where no round trip is found. -/
def Overflows (minRoundTrip : ℤ) (trade : Trade) (today : List Trade) : Prop :=
  WindowOut trade.executedAt minRoundTrip ∨
    fastRoundTrips minRoundTrip trade today = 0 ∧ WindowOut trade.executedAt 60

theorem minus_trySeconds_error {t : Timestamp} {secs : ℤ} :
    (∃ f, (Duration.trySeconds secs >>= t.minus) = .error f) ↔ WindowOut t secs := by
  by_cases hlong : Duration.maxSeconds < |secs|
  · obtain ⟨f, hf⟩ := bounded_error.mpr hlong
    exact iff_of_true ⟨f, bind_eq_error.mpr (.inl hf)⟩ (.inl hlong)
  · have hwindow : Duration.trySeconds secs = .ok (Duration.seconds secs) := if_pos (not_lt.mp hlong)
    rw [bind_of_ok hwindow]
    exact moved_error.trans (or_iff_right hlong).symm

theorem minus_trySeconds_ok {t : Timestamp} {secs : ℤ} (h : ¬WindowOut t secs) :
    ∃ start, (Duration.trySeconds secs >>= t.minus) = .ok start := by
  cases hwindow : Duration.trySeconds secs >>= t.minus with
  | ok start => exact ⟨start, rfl⟩
  | error f => exact absurd (minus_trySeconds_error.mp ⟨f, hwindow⟩) h

theorem countedFast_eq (minRoundTrip : ℤ) (today : List Trade) (hexit : trade.tradeSide = .exit) :
    countedFast minRoundTrip trade today =
      (Duration.trySeconds minRoundTrip >>= trade.executedAt.minus) >>= fun _ =>
        pure (fastRoundTrips minRoundTrip trade today) := by
  rw [countedFast, if_pos hexit, bind_assoc]

theorem judge_of_overflows (htrade : ctx.latestTrade = some trade) (hexit : trade.tradeSide = .exit)
    (h : Overflows (effectiveMinRoundTripSeconds params ctx) trade ctx.todayTrades) :
    ∃ f, judge params ctx = .error f := by
  simp only [judge, htrade, countedFast_eq _ _ hexit]
  by_cases hout : WindowOut trade.executedAt (effectiveMinRoundTripSeconds params ctx)
  · obtain ⟨f, hf⟩ := minus_trySeconds_error.mpr hout
    exact ⟨f, bind_eq_error.mpr (.inl (bind_eq_error.mpr (.inl hf)))⟩
  · obtain ⟨hnone, hminute⟩ := h.resolve_left hout
    obtain ⟨start, hstart⟩ := minus_trySeconds_ok hout
    obtain ⟨f, hf⟩ := minus_trySeconds_error.mpr hminute
    rw [bind_of_ok hstart, hnone, pure_bind, if_neg (lt_irrefl 0)]
    exact ⟨f, bind_eq_error.mpr (.inl hf)⟩

theorem judge_of_fits (htrade : ctx.latestTrade = some trade) (hexit : trade.tradeSide = .exit)
    (h : ¬Overflows (effectiveMinRoundTripSeconds params ctx) trade ctx.todayTrades) :
    ∃ v, judge params ctx = .ok v ∧
      (v.decisionKind = .warn ↔
        0 < fastRoundTrips (effectiveMinRoundTripSeconds params ctx) trade ctx.todayTrades ∨
          effectiveMaxClosesPerMinute params < recentCloses trade ctx.todayTrades) := by
  rw [Overflows, not_or, not_and] at h
  obtain ⟨start, hstart⟩ := minus_trySeconds_ok h.1
  simp only [judge, htrade, countedFast_eq _ _ hexit]
  rw [bind_of_ok hstart, pure_bind]
  by_cases hfast : 0 < fastRoundTrips (effectiveMinRoundTripSeconds params ctx) trade ctx.todayTrades
  · rw [if_pos hfast]
    exact ⟨_, rfl, iff_of_true rfl (.inl hfast)⟩
  · obtain ⟨minute, hminute⟩ := minus_trySeconds_ok (h.2 (Nat.eq_zero_of_not_pos hfast))
    have hminute : trade.executedAt.minus (Duration.minutes 1) = .ok minute := hminute
    rw [if_neg hfast, bind_of_ok hminute]
    by_cases hclose : effectiveMaxClosesPerMinute params < recentCloses trade ctx.todayTrades
    · rw [if_pos hclose]
      exact ⟨_, rfl, iff_of_true rfl (.inr hclose)⟩
    · rw [if_neg hclose]
      refine ⟨_, rfl, iff_of_false (fun hkind => by cases hkind) ?_⟩
      exact not_or.mpr ⟨hfast, hclose⟩

theorem verdict_iff (htrade : ctx.latestTrade = some trade) (hexit : trade.tradeSide = .exit) :
    ((hftScalpingRule params).toRule.verdict ctx).decisionKind = .warn ↔
      (Overflows (effectiveMinRoundTripSeconds params ctx) trade ctx.todayTrades ∧
        FailurePolicy.parse (params.bind RuleParams.failurePolicy) = .warn) ∨
      (¬Overflows (effectiveMinRoundTripSeconds params ctx) trade ctx.todayTrades ∧
        (0 < fastRoundTrips (effectiveMinRoundTripSeconds params ctx) trade ctx.todayTrades ∨
          effectiveMaxClosesPerMinute params < recentCloses trade ctx.todayTrades)) := by
  by_cases hout : Overflows (effectiveMinRoundTripSeconds params ctx) trade ctx.todayTrades
  · obtain ⟨f, hf⟩ := judge_of_overflows htrade hexit hout
    rw [StdRule.verdict_warns_of_error (r := hftScalpingRule params) hf]
    exact ⟨fun hpolicy => .inl ⟨hout, hpolicy⟩, fun h => (h.resolve_right fun hc => hc.1 hout).2⟩
  · obtain ⟨v, hv, hkind⟩ := judge_of_fits htrade hexit hout
    rw [StdRule.verdict_decisionKind (r := hftScalpingRule params) hv, hkind]
    exact ⟨fun hfound => .inr ⟨hout, hfound⟩, fun h => (h.resolve_left fun hc => hout hc.1).2⟩

/-- An exit within the minute up to the trade. -/
def recentExit (trade t : Trade) : Bool :=
  decide (trade.executedAt - Duration.minutes 1 ≤ t.executedAt ∧ t.executedAt ≤ trade.executedAt) &&
    decide (t.tradeSide = .exit)

theorem recentCloses_eq (xs : List Trade) : recentCloses trade xs = xs.countP (recentExit trade) :=
  List.countP_eq_length_filter.symm

theorem recentExit_self (hexit : trade.tradeSide = .exit) : recentExit trade trade = true := by
  have hminute : trade.executedAt - Duration.minutes 1 ≤ trade.executedAt :=
    sub_le_self _ (by decide)
  simp [recentExit, hexit, hminute]

theorem recentCloses_concat (hexit : trade.tradeSide = .exit) (xs : List Trade) :
    recentCloses trade (xs ++ [trade]) = recentCloses trade xs + 1 := by
  rw [recentCloses_eq, recentCloses_eq, List.countP_append, List.countP_singleton, recentExit_self hexit]
  rfl

end HftScalpingRule

open HftScalpingRule

theorem Processed.scalping_reports_iff {c : Processed} (h : Run a calls c.before)
    (hev : c.ev = .tradeFilled trade) (hexit : trade.tradeSide = .exit) (hbuilt : c.pipeline.registry.IsBuilt)
    (hmem : (hftScalpingRule params).toRule ∈ c.pipeline.registry.rules)
    (hban : packEnabled params c.before.plan.hftBanEnabled = true) :
    let left := (tradesLeft a.todayTrades calls).filter c.keeps
    let out := Overflows (effectiveMinRoundTripSeconds params c.context) trade left
    c.Reports .hftScalping .warn ↔
      (out ∧ FailurePolicy.parse (params.bind RuleParams.failurePolicy) = .warn) ∨
        (¬out ∧ (0 < fastRoundTrips (effectiveMinRoundTripSeconds params c.context) trade left ∨
          effectiveMaxClosesPerMinute params + 2 ≤ recentCloses trade (left ++ [trade]))) := by
  intro left out
  obtain ⟨hkind, htrade⟩ := c.context_of_fill hev
  have hruns : (hftScalpingRule params).toRule.runsIn c.context = true := by
    simp [Rule.runsIn, StdRule.toRule, hftScalpingRule, c.context_plan, hban, hkind,
      EvaluationScope.appliesTo]
  have hid : (hftScalpingRule params).id = .hftScalping := rfl
  rw [← hid, Processed.reports_iff hbuilt hmem, hruns, verdict_iff htrade hexit,
    c.context_trades h (by rw [hev]; rfl), recentCloses_concat hexit, Nat.succ_le_succ_iff]
  exact and_iff_right rfl

/-- Calls that drop nothing of the day lose no exit of it. -/
theorem recentCloses_le_left {c : Processed} {today earlier : List Processed} {day : Timestamp}
    (trades : List Trade) (hfills : c.fills = [trade])
    (hkeeps : ∀ c' ∈ c :: today, ∀ t : Trade, day ≤ t.executedAt → c'.keeps t = true) :
    recentCloses trade ((fillsOf today ++ [trade]).filter fun t => day ≤ t.executedAt) ≤
      recentCloses trade ((tradesLeft trades (today ++ earlier)).filter c.keeps ++ [trade]) := by
  have hday : ∀ c' ∈ c :: today, ∀ t, (recentExit trade t && decide (day ≤ t.executedAt)) = true →
      c'.keeps t = true :=
    fun c' hc' t ht => hkeeps c' hc' t (of_decide_eq_true (Bool.and_eq_true_iff.mp ht).2)
  have hcount := countP_added_le Processed.fills (tradesLeft trades earlier) hday
  rw [added, retained, hfills, ← fillsOf_eq_added, tradesLeft, ← retained_append] at hcount
  rw [recentCloses_eq, recentCloses_eq, List.countP_filter]
  exact hcount.trans (List.countP_mono_left fun t _ ht => (Bool.and_eq_true_iff.mp ht).1)

/-- The fill that is judged is not counted: it takes one exit more, among those that are left of the day. A
window that is out of range leaves the verdict to the failure policy. -/
theorem scalping_warned_iff {c : Processed} (h : Run a calls c.before) (hev : c.ev = .tradeFilled trade)
    (hexit : trade.tradeSide = .exit) (hbuilt : c.pipeline.registry.IsBuilt)
    (hmem : (hftScalpingRule params).toRule ∈ c.pipeline.registry.rules)
    (hban : packEnabled params c.before.plan.hftBanEnabled = true) :
    let left := (tradesLeft a.todayTrades calls).filter c.keeps
    let out := Overflows (effectiveMinRoundTripSeconds params c.context) trade left
    (c.Reports .hftScalping .warn ↔
        (out ∧ FailurePolicy.parse (params.bind RuleParams.failurePolicy) = .warn) ∨
          (¬out ∧ (0 < fastRoundTrips (effectiveMinRoundTripSeconds params c.context) trade left ∨
            effectiveMaxClosesPerMinute params + 2 ≤ recentCloses trade (left ++ [trade])))) ∧
      ∀ today earlier day, calls = today ++ earlier →
        (∀ c' ∈ c :: today, ∀ t : Trade, day ≤ t.executedAt → c'.keeps t = true) →
        effectiveMaxClosesPerMinute params + 2 ≤
            recentCloses trade ((fillsOf today ++ [trade]).filter fun t => day ≤ t.executedAt) →
          (out → FailurePolicy.parse (params.bind RuleParams.failurePolicy) = .warn) →
            c.Reports .hftScalping .warn := by
  intro left out
  have hreports := Processed.scalping_reports_iff h hev hexit hbuilt hmem hban
  refine ⟨hreports, fun today earlier day hcalls hkeeps hmany hpolicy => hreports.mpr ?_⟩
  have hfills : c.fills = [trade] := by
    rw [Processed.fills, hev]
    rfl
  by_cases hout : out
  · exact .inl ⟨hout, hpolicy hout⟩
  · refine .inr ⟨hout, .inr (hmany.trans ?_)⟩
    subst hcalls
    exact recentCloses_le_left a.todayTrades hfills hkeeps

def scalpingPlan : ChallengePlan := { ChallengePlan.default ⟨1⟩ 0 with hftBanEnabled := true }

theorem mem_scalpingPlan : (hftScalpingRule none).toRule ∈ (Pipeline.ofPlan scalpingPlan).registry.rules :=
  mem_withDefaultRulesForPlan (by simp [defaultRules]) rfl

/-- One exit a second. -/
def exitsEachSecond (n : ℕ) : List Trade := (List.range n).map fun i : ℕ => closingFill 0 (Duration.seconds i)

theorem exitsEachSecond_nonneg {n : ℕ} (h : trade ∈ exitsEachSecond n) : 0 ≤ trade.executedAt := by
  obtain ⟨i, -, rfl⟩ := List.mem_map.mp h
  exact mul_nonneg (Int.natCast_nonneg i) (by decide)

theorem scalping_warned_one_late :
    ∃ (a : Account) (calls : List Processed) (c : Processed), Run a calls c.before ∧
      fillsOf calls = exitsEachSecond 11 ∧ c.ev = .tradeFilled (closingFill 0 (Duration.seconds 11)) ∧
      c.Reports .hftScalping .warn := by
  have hrun :
      (do
        let a ← (Account.new ⟨1⟩ ⟨1⟩ scalpingPlan).start 0
        let b ← (Pipeline.ofPlan scalpingPlan).afterFills a (exitsEachSecond 11).reverse
        let _ ← (Pipeline.ofPlan scalpingPlan).process (.at (Duration.seconds 11)) b
          (.tradeFilled (closingFill 0 (Duration.seconds 11)))
        let day ← b.plan.tradingDayStart (Duration.seconds 11)
        pure (b.todayTrades, b.behind (Duration.seconds 11), day, b.plan.hftBanEnabled,
          b.plan.hftMinRoundTripSeconds)) =
        .ok (exitsEachSecond 11, false, 0, true, 60) := by
    decide +kernel
  obtain ⟨a, -, hrun⟩ := bind_eq_ok.mp hrun
  obtain ⟨b, hfills, hrun⟩ := bind_eq_ok.mp hrun
  obtain ⟨r, hprocess, hrun⟩ := bind_eq_ok.mp hrun
  obtain ⟨day, hday, hrun⟩ := bind_eq_ok.mp hrun
  have hfacts := pure_eq_ok.mp hrun
  simp only [Prod.mk.injEq] at hfacts
  obtain ⟨htoday, hbehind, rfl, hban, hminimum⟩ := hfacts
  obtain ⟨calls, hcalls, htrades⟩ := Pipeline.afterFills_run hfills
  rw [List.reverse_reverse] at htrades
  obtain ⟨hwarned, -⟩ := scalping_warned_iff (c := .of hprocess) hcalls rfl rfl (.inl (.inr ⟨_, rfl⟩))
    mem_scalpingPlan hban
  have hkeeps : ∀ trade ∈ exitsEachSecond 11, (Processed.of hprocess).keeps trade = true :=
    fun trade htrade => Processed.keeps_of_le rfl hbehind hday (exitsEachSecond_nonneg htrade)
  rw [← Run.todayTrades hcalls, htoday, List.filter_eq_self.mpr hkeeps] at hwarned
  have hmany : effectiveMaxClosesPerMinute none + 2 ≤
      recentCloses (closingFill 0 (Duration.seconds 11))
        (exitsEachSecond 11 ++ [closingFill 0 (Duration.seconds 11)]) := by
    decide +kernel
  refine ⟨a, calls, .of hprocess, hcalls, htrades, rfl, hwarned.mpr (.inr ⟨?_, .inr hmany⟩)⟩
  have hfits : ¬Overflows 60 (closingFill 0 (Duration.seconds 11)) (exitsEachSecond 11) := by
    unfold Overflows WindowOut
    decide +kernel
  have hseconds : effectiveMinRoundTripSeconds none (Processed.of hprocess).context = 60 := by
    rw [effectiveMinRoundTripSeconds, Processed.context_plan]
    change (if b.plan.hftMinRoundTripSeconds < _ then (b.plan.hftMinRoundTripSeconds : ℤ) else 60) = 60
    rw [hminimum]
    rfl
  rwa [hseconds]

/-- The eleventh exit of a minute passes. -/
theorem scalping_uncounted :
    ∃ (a : Account) (calls : List Processed) (c : Processed), Run a calls c.before ∧
      fillsOf calls = exitsEachSecond 10 ∧ c.ev = .tradeFilled (closingFill 0 (Duration.seconds 10)) ∧
      (hftScalpingRule none).toRule ∈ c.pipeline.registry.rules ∧ c.before.plan.hftBanEnabled = true ∧
      effectiveMaxClosesPerMinute none + 1 ≤
        recentCloses (closingFill 0 (Duration.seconds 10))
          (fillsOf calls ++ [closingFill 0 (Duration.seconds 10)]) ∧
      c.result.result.decision.kind = .pass := by
  have hrun :
      (do
        let a ← (Account.new ⟨1⟩ ⟨1⟩ scalpingPlan).start 0
        let b ← (Pipeline.ofPlan scalpingPlan).afterFills a (exitsEachSecond 10).reverse
        let r ← (Pipeline.ofPlan scalpingPlan).process (.at (Duration.seconds 10)) b
          (.tradeFilled (closingFill 0 (Duration.seconds 10)))
        pure (b.plan.hftBanEnabled, r.result.decision.kind)) = .ok (true, .pass) := by
    decide +kernel
  obtain ⟨a, -, hrun⟩ := bind_eq_ok.mp hrun
  obtain ⟨b, hfills, hrun⟩ := bind_eq_ok.mp hrun
  obtain ⟨r, hprocess, hrun⟩ := bind_eq_ok.mp hrun
  obtain ⟨hban, hpass⟩ := Prod.mk.inj (pure_eq_ok.mp hrun)
  obtain ⟨calls, hcalls, htrades⟩ := Pipeline.afterFills_run hfills
  rw [List.reverse_reverse] at htrades
  refine ⟨a, calls, .of hprocess, hcalls, htrades, rfl, mem_scalpingPlan, hban, ?_, hpass⟩
  rw [htrades]
  decide +kernel

end Propfirm
