import Propfirm.Engine.Theorems.CatchUp
import Propfirm.Engine.Theorems.Fills
import Propfirm.Engine.Theorems.Floors
import Propfirm.Lib.Diary

/-!
# Day statistics and the history of fills

The statistics that the account carries along are those one would compute from the list of all fills.
-/

namespace Propfirm

open Fallible Grid Diary

variable {plan : ChallengePlan} {p : Pipeline} {env : Env} {a b : Account} {ev : PipelineEvent}
  {r : PipelineResult} {calls : List Processed} {trades : List Trade} {day t u : Timestamp}

/-! ## The diary -/

def PipelineEvent.fills : PipelineEvent → List Trade
  | .tradeFilled trade => [trade]
  | _ => []

/-- The fills of a run, in the order they were processed. -/
def fillsOf : List Processed → List Trade
  | [] => []
  | c :: earlier => fillsOf earlier ++ c.ev.fills

/-- The net result of each fill, with the trading day it belongs to. -/
def ChallengePlan.diary (plan : ChallengePlan) (trades : List Trade) : List (Timestamp × Money) :=
  trades.map fun trade => (plan.dayStart trade.executedAt, trade.netPnl)

def Account.tally (a : Account) : Tally Money where
  best := a.largestDayProfit
  worst := a.largestDayLoss
  gains := a.sumPositiveDaysProfit
  winners := a.profitableDaysCount

/-- The account on a day, with the statistics of its diary. -/
structure OnDay (plan : ChallengePlan) (trades : List Trade) (day : Timestamp) (a : Account) : Prop where
  day_eq : a.currentTradingDayStart = some day
  reset : plan.IsReset day
  days_le : ∀ d ∈ days (plan.diary trades), d ≤ day
  today_eq : a.todayRealizedPnl = net (plan.diary trades) day
  counted_iff : a.dayCountedToday = true ↔ day ∈ days (plan.diary trades)
  active_eq : a.activeTradingDays = (days (plan.diary trades)).card
  tally_over : a.tally.Over (plan.diary trades) day

/-- The part of the account that follows the diary. -/
structure DayPage extends DayStats where
  currentTradingDayStart : Option Timestamp
  todayRealizedPnl : Money
  dayCountedToday : Bool

def Account.page (a : Account) : DayPage where
  toDayStats := a.dayStats
  currentTradingDayStart := a.currentTradingDayStart
  todayRealizedPnl := a.todayRealizedPnl
  dayCountedToday := a.dayCountedToday

def DayPage.tally (page : DayPage) : Tally Money :=
  ⟨page.largestDayProfit, page.largestDayLoss, page.sumPositiveDaysProfit, page.profitableDaysCount⟩

theorem OnDay.congr (h : OnDay plan trades day a) (hpage : b.page = a.page) : OnDay plan trades day b := by
  have htally : b.tally = a.tally := congrArg DayPage.tally hpage
  have hactive : b.activeTradingDays = a.activeTradingDays :=
    congrArg (fun page => page.activeTradingDays) hpage
  have hcounted : b.dayCountedToday = a.dayCountedToday := congrArg DayPage.dayCountedToday hpage
  exact
    { day_eq := (congrArg DayPage.currentTradingDayStart hpage).trans h.day_eq
      reset := h.reset
      days_le := h.days_le
      today_eq := (congrArg DayPage.todayRealizedPnl hpage).trans h.today_eq
      counted_iff := hcounted ▸ h.counted_iff
      active_eq := hactive.trans h.active_eq
      tally_over := htally ▸ h.tally_over }

/-! ## Catching up -/

theorem Folded.tally {net : Money} (h : Folded a b net) : b.tally = a.tally.enter net := by
  simp only [Account.tally, Tally.enter, h.profit_eq, h.loss_eq, h.sum_eq, h.count_eq]

/-- A day with a result has been counted when its first fill came. -/
theorem OnDay.closed_activeTradingDays {q : Prop} [Decidable q] (h : OnDay plan trades day a) :
    (if q ∧ a.todayRealizedPnl ≠ 0 then a.closeTradedDay.dayStats else a.dayStats).activeTradingDays =
      a.activeTradingDays := by
  split
  · rename_i hnet
    have hmem : day ∈ days (plan.diary trades) := by
      by_contra hnot
      exact hnet.2 (h.today_eq.trans (net_of_notMem hnot))
    simp only [Account.dayStats, Account.closeTradedDay, h.counted_iff.mpr hmem, if_true]
  · rfl

theorem OnDay.turn {k : ℕ} (h : OnDay plan trades day a) (hdays : DaysOn a b k (day + k * Duration.days 1)) :
    OnDay plan trades (day + k * Duration.days 1) b := by
  rcases Nat.eq_zero_or_pos k with rfl | hk
  · rw [hdays.same rfl]
    simpa using h
  · have hlt : day < day + k * Duration.days 1 :=
      lt_add_of_pos_right day (mul_pos (by exact_mod_cast hk) days_one_pos)
    have hnot : day + k * Duration.days 1 ∉ days (plan.diary trades) :=
      fun hmem => not_le.mpr hlt (h.days_le _ hmem)
    obtain ⟨htoday, hcounted, -⟩ := hdays.opened hk
    have hfolded := hdays.folded hk (.inr ⟨h.tally_over.best_nonneg, h.tally_over.worst_nonpos⟩)
    refine ⟨hdays.day_eq, ?_, fun d hd => (h.days_le d hd).trans hlt.le, ?_, ?_, ?_, ?_⟩
    · obtain ⟨j, hj⟩ := h.reset
      exact ⟨j + k, by rw [hj]; ring⟩
    · rw [htoday, net_of_notMem hnot]
    · rw [hcounted]
      exact iff_of_false nofun hnot
    · rw [← h.active_eq]
      exact (congrArg DayStats.activeTradingDays hdays.stats_eq).trans h.closed_activeTradingDays
    · rw [hfolded.tally, h.today_eq]
      exact h.tally_over.turn h.days_le hlt

theorem OnDay.route {evs : List DomainEvent} (h : OnDay plan trades day a) (hutc : plan.Utc)
    (hplan : a.plan = plan) (hev : ev.isDayRollover = false)
    (hle : day ≤ plan.dayStart (ev.eventTimestamp env.routingNow)) (hroute : route env a ev = .ok (b, evs)) :
    OnDay plan trades (plan.dayStart (ev.eventTimestamp env.routingNow)) b ∧
      (b = a ∨ day < plan.dayStart (ev.eventTimestamp env.routingNow) ∧ b.todayTrades = []) := by
  subst hplan
  obtain ⟨k, hk⟩ := h.reset.exists_add days_one_pos a.plan.dayStart_isReset hle
  have hcaught : b = a.caughtUp (stops (Duration.days 1) k day) := by
    obtain ⟨evs', hroute'⟩ := route_utc hutc h.day_eq h.reset hk hev
    exact (Prod.mk.inj (Except.ok.inj (hroute.symm.trans hroute'))).1
  subst hcaught
  have hdays := caughtUp_daysOn (k := k) h.day_eq
  rw [hk]
  refine ⟨h.turn hdays, ?_⟩
  rcases Nat.eq_zero_or_pos k with hzero | hpos
  · exact .inl (hdays.same hzero)
  · have hlt : day < day + k * Duration.days 1 :=
      lt_add_of_pos_right day (mul_pos (by exact_mod_cast hpos) days_one_pos)
    exact .inr ⟨hlt, (hdays.opened hpos).2.2⟩

/-! ## Events -/

theorem diary_append (trade : Trade) :
    plan.diary (trades ++ [trade]) =
      plan.diary trades ++ [(plan.dayStart trade.executedAt, trade.netPnl)] := by
  simp [ChallengePlan.diary]

theorem markActiveTradingDay_page (a : Account) :
    a.markActiveTradingDay.page =
      { a.page with
        activeTradingDays := if a.dayCountedToday then a.activeTradingDays else a.activeTradingDays + 1
        dayCountedToday := true } := by
  unfold Account.markActiveTradingDay
  cases hcounted : a.dayCountedToday
  · rfl
  · simp only [if_true, Account.page, Account.dayStats, hcounted]

theorem OnDay.fill {trade : Trade} {pnl : Money} (h : OnDay plan trades (plan.dayStart trade.executedAt) a)
    (hnet : pnl - trade.commission - trade.swap = trade.netPnl) :
    OnDay plan (trades ++ [trade]) (plan.dayStart trade.executedAt)
      (a.applyRealizedPnl pnl trade.commission trade.swap trade.executedAt).markActiveTradingDay := by
  have hbooked :=
    markActiveTradingDay_page (a.applyRealizedPnl pnl trade.commission trade.swap trade.executedAt)
  generalize (a.applyRealizedPnl pnl trade.commission trade.swap
    trade.executedAt).markActiveTradingDay = b at hbooked ⊢
  have hactive : b.activeTradingDays =
      if a.dayCountedToday then a.activeTradingDays else a.activeTradingDays + 1 :=
    congrArg (fun page : DayPage => page.activeTradingDays) hbooked
  have htoday : b.todayRealizedPnl = a.todayRealizedPnl + trade.netPnl :=
    (congrArg DayPage.todayRealizedPnl hbooked).trans (congrArg _ hnet)
  have htally : b.tally = a.tally := congrArg DayPage.tally hbooked
  have hcounted : b.dayCountedToday = true := congrArg DayPage.dayCountedToday hbooked
  constructor
  · exact (congrArg DayPage.currentTradingDayStart hbooked).trans h.day_eq
  · exact h.reset
  · rw [diary_append, days_append]
    exact Finset.forall_mem_insert _ _ _ |>.mpr ⟨le_rfl, h.days_le⟩
  · rw [htoday, diary_append, net_append_self, h.today_eq]
  · rw [diary_append, days_append]
    exact iff_of_true hcounted (Finset.mem_insert_self _ _)
  · simp only [hactive, diary_append, days_append, Finset.card_insert_eq_ite, h.counted_iff, h.active_eq]
  · rw [htally, diary_append]
    exact h.tally_over.append

theorem OnDay.quiet (h : OnDay plan trades day a) (hpage : b.page = a.page) :
    OnDay plan (trades ++ []) day b := by
  rw [List.append_nil]
  exact h.congr hpage

theorem OnDay.event {evs : List DomainEvent} (h : OnDay plan trades day a) (heffect : Effect env a ev b evs)
    (hutc : plan.Utc) (hplan : a.plan = plan) (hev : ev.isDayRollover = false)
    (hday : plan.dayStart (ev.eventTimestamp env.routingNow) = day) :
    OnDay plan (trades ++ ev.fills) day b := by
  cases heffect with
  | accountStarted hstart =>
      -- a start would store the day that the account has been caught up with
      obtain ⟨-, dayStart, hstart', rfl⟩ := Account.start_eq hstart
      rw [hplan, hutc.tradingDayStart] at hstart'
      have hstored : some dayStart = a.currentTradingDayStart := by
        rw [h.day_eq, ← hday, ← Except.ok.inj hstart']
        rfl
      refine h.quiet ?_
      simp only [Account.page, hstored]
      rfl
  | tradeFilled hnet =>
      subst hday
      exact h.fill hnet
  | dayRollover _ => cases hev
  | overrideBreach hclear =>
      obtain ⟨-, rfl⟩ := Account.clearBreach_eq hclear
      exact h.quiet rfl
  | payoutRequest _ hpending =>
      obtain ⟨-, rfl⟩ := Account.markPayoutPending_ok hpending
      exact h.quiet rfl
  | payoutApprove _ hpaid =>
      obtain ⟨-, rfl⟩ := recordPayout_eq hpaid
      exact h.quiet rfl
  | orderSubmitted => exact h.quiet rfl
  | tick _ => exact h.quiet rfl
  | tickEstimated _ => exact h.quiet rfl
  | endOfDay => exact h.quiet rfl
  | onDemand => exact h.quiet rfl
  | emergencyStop => exact h.quiet rfl

/-! ## The trades of a day -/

def ChallengePlan.tradesOn (plan : ChallengePlan) (day : Timestamp) (trades : List Trade) : List Trade :=
  trades.filter fun trade => plan.dayStart trade.executedAt = day

theorem mem_days_diary {trade : Trade} (h : trade ∈ trades) :
    plan.dayStart trade.executedAt ∈ days (plan.diary trades) := by
  simp only [days, ChallengePlan.diary, List.map_map, List.mem_toFinset]
  exact List.mem_map_of_mem h

/-- An event drops the trades of earlier days. -/
theorem tradesOn_prune (hle : ∀ d ∈ days (plan.diary trades), d ≤ day) (hday : day ≤ plan.dayStart u) :
    ((plan.tradesOn day trades).filter fun trade => plan.dayStart u ≤ trade.executedAt) =
      plan.tradesOn (plan.dayStart u) trades := by
  rw [ChallengePlan.tradesOn, ChallengePlan.tradesOn, List.filter_filter]
  refine List.filter_congr fun trade hmem => ?_
  have hbefore := hle _ (mem_days_diary hmem)
  rw [← Bool.decide_and, decide_eq_decide, ← plan.dayStart_isReset.le_dayStart_iff]
  constructor
  · rintro ⟨hu, rfl⟩
    exact le_antisymm hday hu
  · intro heq
    exact ⟨heq.ge, le_antisymm hbefore (heq ▸ hday)⟩

theorem tradesOn_of_lt (hle : ∀ d ∈ days (plan.diary trades), d < day) : plan.tradesOn day trades = [] := by
  refine List.filter_eq_nil_iff.mpr fun trade hmem => ?_
  simpa using (hle _ (mem_days_diary hmem)).ne

theorem Effect.todayTrades {evs : List DomainEvent} (h : Effect env a ev b evs)
    (hev : ev.isDayRollover = false) : b.todayTrades = a.todayTrades := by
  by_cases hquiet : ev.isQuiet = true
  · exact h.transition.quiet_reading hquiet Account.todayTrades fun _ => rfl
  cases h with
  | tradeFilled _ =>
      unfold Account.markActiveTradingDay
      split <;> rfl
  | tick _ => rfl
  | tickEstimated _ => rfl
  | dayRollover _ => cases hev
  | payoutApprove _ hpaid =>
      obtain ⟨-, rfl⟩ := recordPayout_eq hpaid
      rfl
  | _ => exact absurd rfl hquiet

theorem applyBranch_consumeFill {applied : AppliedEvent} (h : applyBranch env a ev = .ok applied)
    (hev : ev.isDayRollover = false) :
    (consumeFill applied.account applied.tradeFill).todayTrades = a.todayTrades ++ ev.fills := by
  have htrades := (applyBranch_effect h).todayTrades hev
  by_cases hfill : ∃ trade, ev = .tradeFilled trade
  · obtain ⟨trade, rfl⟩ := hfill
    obtain ⟨position, -, hbranch⟩ := bind_eq_ok.mp h
    have hposition : applied.tradeFill = some (trade, position) := by
      rw [← pure_eq_ok.mp hbranch]
    rw [hposition]
    exact congrArg (· ++ [trade]) htrades
  · have hother : ∀ trade, ev ≠ .tradeFilled trade := fun trade heq => hfill ⟨trade, heq⟩
    have hfills : ev.fills = [] := by
      unfold PipelineEvent.fills
      split
      · exact absurd rfl (hother _)
      · rfl
    rw [applyBranch_tradeFill h hother, hfills, List.append_nil]
    exact htrades

theorem PipelineEvent.tradesOn_fills {now : Timestamp} :
    plan.tradesOn (plan.dayStart (ev.eventTimestamp now)) ev.fills = ev.fills := by
  cases ev with
  | tradeFilled trade => exact List.filter_eq_self.mpr (by simp [fills, eventTimestamp])
  | _ => rfl

/-! ## Calls -/

namespace Processed

/-- The time of the event as the call looks for a new day. -/
def routedAt (c : Processed) : Timestamp := c.ev.eventTimestamp c.env.routingNow

/-- The time of the event as the call applies it, which is the same unless it comes from the clock. -/
def appliedAt (c : Processed) : Timestamp := c.ev.eventTimestamp c.env.applyNow

end Processed

/-- An account with the statistics and the trades of its history. -/
structure UpToDate (plan : ChallengePlan) (trades : List Trade) (t u : Timestamp) (a : Account) : Prop where
  plan_eq : a.plan = plan
  onDay : OnDay plan trades (plan.dayStart t) a
  trades_eq : a.todayTrades = plan.tradesOn (plan.dayStart u) trades

theorem UpToDate.step (c : Processed) (h : UpToDate plan trades t u c.before) (hutc : plan.Utc)
    (hev : c.ev.isDayRollover = false) (hphase : c.KeepsPhase) (htu : t ≤ u) (hu : u ≤ c.routedAt)
    (hclock : c.routedAt ≤ c.appliedAt) :
    UpToDate plan (trades ++ c.ev.fills) c.routedAt c.appliedAt c.after := by
  obtain ⟨s⟩ := c.passage
  obtain ⟨hrouted, hsame⟩ :=
    h.onDay.route hutc h.plan_eq hev (plan.dayStart_mono (htu.trans hu)) s.route_eq
  have hplan : s.routed.plan = plan :=
    (s.routed_reading Account.plan fun _ => rfl).trans h.plan_eq
  obtain ⟨dayStart, hday, hbranch⟩ := bind_eq_ok.mp s.apply_eq
  rw [hplan, hutc.tradingDayStart] at hday
  obtain rfl := Except.ok.inj hday
  have hpruned : (s.routed.todayTrades.filter fun trade => plan.dayStart c.appliedAt ≤ trade.executedAt) =
      plan.tradesOn (plan.dayStart c.appliedAt) trades := by
    rcases hsame with heq | ⟨hlt, hnil⟩
    · rw [heq, h.trades_eq]
      exact tradesOn_prune (fun d hd => (h.onDay.days_le d hd).trans (plan.dayStart_mono htu))
        (plan.dayStart_mono (hu.trans hclock))
    · rw [hnil, tradesOn_of_lt fun d hd =>
        (h.onDay.days_le d hd).trans_lt (hlt.trans_le (plan.dayStart_mono hclock))]
      rfl
  have hpromotable := s.not_promotable_of_phase hphase
  have hpage : c.after.page = s.applied.account.page :=
    s.unpromoted_reading hpromotable Account.page (fun _ _ _ _ _ _ => rfl) fun _ _ _ _ => rfl
  have htrades : c.after.todayTrades = s.filled.todayTrades := s.account_todayTrades
  refine ⟨(s.account_plan_of_not_promotable hpromotable).trans h.plan_eq, ?_, ?_⟩
  · refine (OnDay.event (hrouted.congr ?_) (applyBranch_effect hbranch) hutc hplan hev rfl).congr hpage
    rfl
  · rw [htrades, ChallengePlan.tradesOn, List.filter_append, Evaluated.filled,
      applyBranch_consumeFill hbranch hev]
    exact congrArg₂ (· ++ ·) hpruned PipelineEvent.tradesOn_fills.symm

/-! ## Runs -/

/-- The times that the calls of a run read, latest first, down to the start of the account. -/
def timeline (start : Timestamp) : List Processed → List Timestamp
  | [] => [start]
  | c :: earlier => c.appliedAt :: c.routedAt :: timeline start earlier

def lastRouted (start : Timestamp) : List Processed → Timestamp
  | [] => start
  | c :: _ => c.routedAt

def lastApplied (start : Timestamp) : List Processed → Timestamp
  | [] => start
  | c :: _ => c.appliedAt

theorem lastApplied_mem_timeline (start : Timestamp) (calls : List Processed) :
    lastApplied start calls ∈ timeline start calls := by
  cases calls <;> exact List.mem_cons_self

theorem lastRouted_le_lastApplied {start : Timestamp} (h : (timeline start calls).Pairwise (· ≥ ·)) :
    lastRouted start calls ≤ lastApplied start calls := by
  cases calls with
  | nil => exact le_rfl
  | cons c earlier => exact (List.pairwise_cons.mp h).1 _ List.mem_cons_self

theorem UpToDate.run {start : Timestamp} (h : Run a calls b) (ha : UpToDate plan [] start start a)
    (hutc : plan.Utc) (hev : ∀ c ∈ calls, c.ev.isDayRollover = false)
    (hphase : ∀ c ∈ calls, c.KeepsPhase) (htimes : (timeline start calls).Pairwise (· ≥ ·)) :
    UpToDate plan (fillsOf calls) (lastRouted start calls) (lastApplied start calls) b := by
  induction h with
  | nil => exact ha
  | @cons earlier c _ ih =>
      rw [List.forall_mem_cons] at hev hphase
      obtain ⟨happlied, hrest⟩ := List.pairwise_cons.mp htimes
      obtain ⟨hrouted, hrest⟩ := List.pairwise_cons.mp hrest
      exact (ih hev.2 hphase.2 hrest).step c hutc hev.1 hphase.1 (lastRouted_le_lastApplied hrest)
        (hrouted _ (lastApplied_mem_timeline start earlier)) (happlied _ List.mem_cons_self)

theorem UpToDate.start {id : AccountId} {tenantId : TenantId} {at_ : Timestamp} (hutc : plan.Utc)
    (h : (Account.new id tenantId plan).start at_ = .ok a) : UpToDate plan [] at_ at_ a := by
  obtain ⟨-, dayStart, hday, rfl⟩ := Account.start_eq h
  have hstored : dayStart = plan.dayStart at_ :=
    Except.ok.inj (hday.symm.trans (hutc.tradingDayStart at_))
  subst hstored
  refine ⟨rfl, ⟨rfl, plan.dayStart_isReset, ?_, rfl, ?_, rfl, Tally.zero_over⟩, rfl⟩
  · simp [days, ChallengePlan.diary]
  · simp [days, ChallengePlan.diary, Account.new]

/-- The statistics of the account are those of its fills, of which `day` and `today` are the last days:
that of the last event as it was routed, and as it was applied. -/
structure MatchesHistory (plan : ChallengePlan) (trades : List Trade) (day today : Timestamp)
    (a : Account) : Prop where
  days_ok : ∀ t, plan.tradingDayStart t = .ok (plan.dayStart t)
  day_eq : a.currentTradingDayStart = some day
  active_eq : a.activeTradingDays = (days (plan.diary trades)).card
  tally_over : a.tally.Over (plan.diary trades) day
  trades_eq : a.todayTrades = plan.tradesOn today trades

/-- Over a run in which time does not go back, without explicit rollovers and promotions. -/
theorem day_statistics_match_history {id : AccountId} {tenantId : TenantId} {at_ : Timestamp}
    (hutc : plan.Utc) (hstart : (Account.new id tenantId plan).start at_ = .ok a) (h : Run a calls b)
    (hev : ∀ c ∈ calls, c.ev.isDayRollover = false) (hphase : ∀ c ∈ calls, c.KeepsPhase)
    (htimes : (timeline at_ calls).Pairwise (· ≥ ·)) :
    MatchesHistory plan (fillsOf calls) (plan.dayStart (lastRouted at_ calls))
      (plan.dayStart (lastApplied at_ calls)) b := by
  have hup := (UpToDate.start hutc hstart).run h hutc hev hphase htimes
  exact ⟨hutc.tradingDayStart, hup.onDay.day_eq, hup.onDay.active_eq, hup.onDay.tally_over, hup.trades_eq⟩

theorem day_statistics_match_history_two_days :
    ∃ (a b : Account) (calls : List Processed),
      Run a calls b ∧ fillsOf calls = [closingFill 100 1, closingFill (-50) (Duration.days 1)] ∧
        MatchesHistory promptPlan (fillsOf calls) (Duration.days 1) (Duration.days 1) b ∧
        b.largestDayProfit = 100 ∧ b.todayTrades = [closingFill (-50) (Duration.days 1)] := by
  have hrun :
      (do
        let a ← (Account.new ⟨1⟩ ⟨1⟩ promptPlan).start 0
        let r ← (Pipeline.ofPlan promptPlan).process (.at 1) a (.tradeFilled (closingFill 100 1))
        let r' ← (Pipeline.ofPlan promptPlan).process (.at (Duration.days 1)) r.account
          (.tradeFilled (closingFill (-50) (Duration.days 1)))
        pure (a.plan.phase, r.account.plan.phase, r'.account.plan.phase, r'.account.largestDayProfit,
          r'.account.todayTrades)) =
        .ok (.phase1, .phase1, .phase1, 100, [closingFill (-50) (Duration.days 1)]) := by
    decide +kernel
  obtain ⟨a, hstart, hrun⟩ := bind_eq_ok.mp hrun
  obtain ⟨r, h, hrun⟩ := bind_eq_ok.mp hrun
  obtain ⟨r', h', hrun⟩ := bind_eq_ok.mp hrun
  have hfacts := pure_eq_ok.mp hrun
  simp only [Prod.mk.injEq] at hfacts
  obtain ⟨hphase, hphase', hphase'', hprofit, htrades⟩ := hfacts
  have hcalls : Run a [.of h', .of h] r'.account := .cons (Processed.of h') (.cons (Processed.of h) .nil)
  have hutc : promptPlan.Utc := ⟨rfl, by decide⟩
  have htimes : (timeline 0 [.of h', .of h]).Pairwise (· ≥ ·) := by
    change [Duration.days 1, Duration.days 1, 1, 1, 0].Pairwise (· ≥ ·)
    decide
  have hphases : ∀ c ∈ [Processed.of h', .of h], c.KeepsPhase := by
    simp only [List.forall_mem_cons, List.not_mem_nil, false_imp_iff, implies_true, and_true]
    exact ⟨hphase''.trans hphase'.symm, hphase'.trans hphase.symm⟩
  have hhistory : MatchesHistory promptPlan (fillsOf [.of h', .of h])
      (promptPlan.dayStart (Duration.days 1)) (promptPlan.dayStart (Duration.days 1)) r'.account :=
    day_statistics_match_history hutc hstart hcalls (by simp [PipelineEvent.isDayRollover]) hphases htimes
  rw [show promptPlan.dayStart (Duration.days 1) = Duration.days 1 by decide] at hhistory
  exact ⟨a, r'.account, _, hcalls, rfl, hhistory, hprofit, htrades⟩

end Propfirm
