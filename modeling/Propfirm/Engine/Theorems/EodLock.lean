import Propfirm.Engine.Theorems.Floors

/-!
# The lock of the end-of-day floor

The end-of-day floor trails the balance at the start of the day and is capped at the initial balance. No
field remembers that the cap was reached: the floor is computed from the day's balance alone.
-/

namespace Propfirm

open Fallible

variable {p : Pipeline} {env : Env} {a b c : Account} {ev : PipelineEvent} {r : PipelineResult}
  {calls : List Processed}

/-- The maximum drawdown rule puts its floor at the initial balance. -/
def Account.EodLocked (a : Account) : Prop :=
  a.maxDrawdownFloor a.plan.maxLossReference = a.initialBalance

instance : Decidable a.EodLocked := inferInstanceAs (Decidable (_ = _))

/-- The account's terms trail the end of the day up to the initial balance. -/
structure Account.LocksAtStart (a : Account) : Prop where
  reference_eq : a.plan.maxLossReference = .eodTrailing
  locks_eq : a.plan.eodTrailLocksAtStart = true

/-- The balance from which the floor is capped. -/
def Account.lockBalance (a : Account) : Money :=
  a.initialBalance + a.plan.maxTotalDrawdownPct * a.initialBalance

theorem Account.LocksAtStart.of_terms (h : a.LocksAtStart) (hterms : b.terms = a.terms) : b.LocksAtStart :=
  ⟨(congrArg (fun x : Money × ChallengePlan => x.2.maxLossReference) hterms).trans h.reference_eq,
    (congrArg (fun x : Money × ChallengePlan => x.2.eodTrailLocksAtStart) hterms).trans h.locks_eq⟩

theorem lockBalance_of_terms (hterms : b.terms = a.terms) : b.lockBalance = a.lockBalance :=
  congrArg (fun x : Money × ChallengePlan => x.1 + x.2.maxTotalDrawdownPct * x.1) hterms

theorem Account.LocksAtStart.eodLocked_iff (h : a.LocksAtStart) :
    a.EodLocked ↔ a.lockBalance ≤ a.dayStartBalance := by
  simp only [Account.EodLocked, Account.maxDrawdownFloor, MaxDrawdownRule.floor_eq, h.reference_eq, h.locks_eq,
    if_true, min_eq_right_iff, Account.lockBalance, le_sub_iff_add_le]

/-! ## The balance a day starts with -/

/-- A day that has turned starts with the balance before. -/
structure DayTurn (a b : Account) : Prop where
  index_le : a.tradingDayIndex ≤ b.tradingDayIndex
  start_eq : b.dayStartBalance =
    if a.tradingDayIndex < b.tradingDayIndex then a.balance else a.dayStartBalance

namespace DayTurn

theorem of_kept (hindex : b.tradingDayIndex = a.tradingDayIndex)
    (hstart : b.dayStartBalance = a.dayStartBalance) : DayTurn a b := by
  refine ⟨hindex.ge, ?_⟩
  rw [if_neg hindex.le.not_gt, hstart]

theorem of_turned (hindex : a.tradingDayIndex < b.tradingDayIndex)
    (hstart : b.dayStartBalance = a.balance) : DayTurn a b := by
  refine ⟨hindex.le, ?_⟩
  rw [if_pos hindex, hstart]

theorem trans (hab : DayTurn a b) (hbalance : b.balance = a.balance) (hbc : DayTurn b c) : DayTurn a c := by
  refine ⟨hab.index_le.trans hbc.index_le, ?_⟩
  rw [hbc.start_eq, hab.start_eq, hbalance]
  by_cases hlt : a.tradingDayIndex < b.tradingDayIndex
  · rw [if_pos hlt, if_pos (hlt.trans_le hbc.index_le), ite_self]
  · have hindex : a.tradingDayIndex = b.tradingDayIndex := hab.index_le.antisymm (not_lt.mp hlt)
    rw [if_neg hlt, hindex]

end DayTurn

theorem rolled_dayTurn (days : List (Bool × Timestamp)) : DayTurn a (a.rolled days) := by
  cases days with
  | nil => exact .of_kept rfl rfl
  | cons day days =>
      refine .of_turned ?_ (rolled_dayStartBalance (List.cons_ne_nil day days))
      rw [rolled_tradingDayIndex, List.length_cons]
      omega

theorem route_dayTurn {evs} (h : route env a ev = .ok (b, evs)) : DayTurn a b := by
  rw [route_eq_map] at h
  split at h
  · cases h; exact .of_kept rfl rfl
  · obtain ⟨starts, -, hmap⟩ := map_eq_ok.mp h
    rw [← (Prod.mk.inj hmap).1]
    exact rolled_dayTurn _

theorem Transition.dayTurn (h : Transition env a ev b) : DayTurn a b := by
  by_cases hquiet : ev.isQuiet = true
  · exact .of_kept (h.quiet_reading hquiet Account.tradingDayIndex fun _ => rfl)
      (h.quiet_reading hquiet Account.dayStartBalance fun _ => rfl)
  cases h with
  | tradeFilled =>
      unfold Account.markActiveTradingDay
      split
      · exact .of_kept rfl rfl
      · exact .of_kept rfl rfl
  | tick => exact .of_kept rfl rfl
  | tickEstimated => exact .of_kept rfl rfl
  | @dayRollover had _ h =>
      obtain ⟨dayStart, -, rfl⟩ := rolloverDay_ok.mp h
      exact rolled_dayTurn [(had, dayStart)]
  | payoutApprove h =>
      obtain ⟨-, rfl⟩ := recordPayout_eq h
      exact .of_kept rfl rfl
  | _ => exact absurd rfl hquiet

theorem Evaluated.dayTurn (s : Evaluated env a ev) : DayTurn a s.applied.account := by
  obtain ⟨trades, htr⟩ := applyEvent_transition s.apply_eq
  have hturn : DayTurn s.routed s.applied.account := ⟨htr.dayTurn.index_le, htr.dayTurn.start_eq⟩
  exact (route_dayTurn s.route_eq).trans (s.routed_reading Account.balance fun _ => rfl) hturn

theorem Passage.account_dayStartBalance (s : Passage p env a ev r)
    (hphase : r.account.plan.phase = a.plan.phase) :
    r.account.dayStartBalance = s.applied.account.dayStartBalance :=
  s.unpromoted_reading (s.not_promotable_of_phase hphase) Account.dayStartBalance
    (fun _ _ _ _ _ _ => rfl) fun _ _ _ _ => rfl

/-! ## Runs -/

namespace Processed

def TurnsDay (c : Processed) : Prop := c.before.tradingDayIndex < c.seen.tradingDayIndex

theorem dayTurn (c : Processed) : DayTurn c.before c.seen := by
  obtain ⟨s⟩ := c.passage
  rw [c.seen_eq s.toEvaluated]
  exact s.dayTurn

theorem after_dayStartBalance (c : Processed) (h : c.KeepsPhase) :
    c.after.dayStartBalance = c.seen.dayStartBalance := by
  obtain ⟨s⟩ := c.passage
  rw [c.seen_eq s.toEvaluated]
  exact s.account_dayStartBalance h

theorem seen_eodLocked_eq (c : Processed) (h : c.KeepsPhase) (hlocks : c.before.LocksAtStart) :
    c.seen.EodLocked = c.after.EodLocked := by
  rw [(hlocks.of_terms c.seen_terms).eodLocked_iff, (hlocks.of_terms c.after_terms).eodLocked_iff,
    lockBalance_of_terms c.seen_terms, lockBalance_of_terms c.after_terms, c.after_dayStartBalance h]

/-- A call keeps the lock unless a day turns on a balance below it. -/
theorem eodLocked_imp_iff (c : Processed) (hlocks : c.before.LocksAtStart) :
    (c.before.EodLocked → c.seen.EodLocked) ↔
      (c.before.EodLocked → c.TurnsDay → c.before.lockBalance ≤ c.before.balance) := by
  rw [(hlocks.of_terms c.seen_terms).eodLocked_iff, lockBalance_of_terms c.seen_terms, c.dayTurn.start_eq,
    hlocks.eodLocked_iff]
  refine imp_congr_right fun hlocked => ?_
  unfold TurnsDay
  split
  · rename_i hturn; exact ⟨fun h _ => h, fun h => h hturn⟩
  · rename_i hturn; exact iff_of_true hlocked fun h => absurd h hturn

end Processed

/-- Once the floor is at the initial balance, at the start or where the rules judge it, it is there at
every later judgement. -/
structure StaysLocked (a : Account) (calls : List Processed) : Prop where
  start : a.EodLocked → ∀ c ∈ calls, c.seen.EodLocked
  seen : calls.Pairwise fun later earlier => earlier.seen.EodLocked → later.seen.EodLocked

theorem staysLocked_iff :
    StaysLocked a calls ↔
      (∀ c ∈ calls, a.EodLocked ≤ c.seen.EodLocked) ∧
        calls.Pairwise fun later earlier => earlier.seen.EodLocked ≤ later.seen.EodLocked :=
  ⟨fun h => ⟨fun c hc ha => h.start ha c hc, h.seen⟩, fun h => ⟨fun ha c hc => h.1 c hc ha, h.2⟩⟩

/-- The lock holds for the rest of the run exactly if no day turns, while it holds, on a balance that
would not reach it. -/
theorem eod_lock_stays_iff (h : Run a calls b) (hphase : ∀ c ∈ calls, c.KeepsPhase)
    (hreference : a.plan.maxLossReference = .eodTrailing) (hlocks : a.plan.eodTrailLocksAtStart = true) :
    StaysLocked a calls ↔
      ∀ c ∈ calls, c.before.EodLocked → c.TurnsDay →
        a.initialBalance + a.plan.maxTotalDrawdownPct * a.initialBalance ≤ c.before.balance := by
  have hbefore : ∀ c ∈ calls, c.before.terms = a.terms := (Run.terms h).2
  have hstart : ∀ c ∈ calls, c.before.LocksAtStart :=
    fun c hc => Account.LocksAtStart.of_terms ⟨hreference, hlocks⟩ (hbefore c hc)
  have hcalls : ∀ c ∈ calls, c.KeepsPhase ∧ c.before.LocksAtStart :=
    fun c hc => ⟨hphase c hc, hstart c hc⟩
  rw [staysLocked_iff, h.pairwise_le_iff (fun c hc => c.seen_eodLocked_eq hc.1 hc.2) hcalls]
  refine forall₂_congr fun c hc => (c.eodLocked_imp_iff (hstart c hc)).trans ?_
  rw [lockBalance_of_terms (hbefore c hc)]
  exact Iff.rfl

def lockPlan : ChallengePlan :=
  { ChallengePlan.default ⟨1⟩ 0 with
    maxLossReference := .eodTrailing, eodTrailLocksAtStart := true, profitTargetPct := 1 / 2 }

/-- A tick in the first second of the day. -/
def tickOnDay (day : ℤ) : Tick := tickAt (86400 * day + 1)

/-- Four days of an account: up to the lock, on at its balance, down from it, and on. -/
structure LockRun (a : Account) (first second third fourth : Processed) : Prop where
  run : Run a [fourth, third, second, first] fourth.after
  events : [fourth, third, second, first].map Processed.ev =
    [.tick (tickOnDay 3) 10600 10600, .tick (tickOnDay 2) 10600 10600, .tick (tickOnDay 1) 11000 11000,
      .tick (tickOnDay 0) 11000 11000]
  keeps : ∀ c ∈ [fourth, third, second, first], c.KeepsPhase
  plan_eq : a.plan = lockPlan
  initial_eq : a.initialBalance = 10000
  balance_eq : second.before.balance = 11000 ∧ third.before.balance = 11000
  open_before : ¬first.before.EodLocked
  locked_before : third.before.EodLocked
  locked : third.after.EodLocked
  released : fourth.after.maxDrawdownFloor fourth.after.plan.maxLossReference = 9600 ∧
    fourth.after.initialBalance = 10000

/-- What the run of four days computes. -/
structure LockFacts where
  balances : Money × Money
  phases : List ChallengePhase
  locks : Bool × Bool × Bool
  floor : Money
  initial : Money
deriving DecidableEq

theorem exists_lockRun : ∃ a first second third fourth, LockRun a first second third fourth := by
  have hrun :
      (do
        let a ← (Account.new ⟨1⟩ ⟨1⟩ lockPlan).start 0
        let r ← (Pipeline.ofPlan lockPlan).process (.at (tickOnDay 0).quote.ts) a
          (.tick (tickOnDay 0) 11000 11000)
        let r' ← (Pipeline.ofPlan lockPlan).process (.at (tickOnDay 1).quote.ts) r.account
          (.tick (tickOnDay 1) 11000 11000)
        let r'' ← (Pipeline.ofPlan lockPlan).process (.at (tickOnDay 2).quote.ts) r'.account
          (.tick (tickOnDay 2) 10600 10600)
        let u ← (Pipeline.ofPlan lockPlan).process (.at (tickOnDay 3).quote.ts) r''.account
          (.tick (tickOnDay 3) 10600 10600)
        pure (LockFacts.mk (r.account.balance, r'.account.balance)
          [r.account.plan.phase, r'.account.plan.phase, r''.account.plan.phase, u.account.plan.phase]
          (decide a.EodLocked, decide r'.account.EodLocked, decide r''.account.EodLocked)
          (u.account.maxDrawdownFloor u.account.plan.maxLossReference) u.account.initialBalance)) =
        .ok ⟨(11000, 11000), [.phase1, .phase1, .phase1, .phase1], (false, true, true), 9600, 10000⟩ := by
    decide +kernel
  obtain ⟨a, hstart, hrun⟩ := bind_eq_ok.mp hrun
  obtain ⟨r, h, hrun⟩ := bind_eq_ok.mp hrun
  obtain ⟨r', h', hrun⟩ := bind_eq_ok.mp hrun
  obtain ⟨r'', h'', hrun⟩ := bind_eq_ok.mp hrun
  obtain ⟨u, hu, hrun⟩ := bind_eq_ok.mp hrun
  have hfacts := pure_eq_ok.mp hrun
  simp only [LockFacts.mk.injEq, Prod.mk.injEq, List.cons.injEq, and_true, decide_eq_false_iff_not,
    decide_eq_true_eq] at hfacts
  obtain ⟨hbalances, ⟨hphase, hphase', hphase'', hphaseEnd⟩, ⟨hopen, hlocked', hlocked⟩, hreleased⟩ := hfacts
  have hcalls : Run a [.of hu, .of h'', .of h', .of h] u.account :=
    .cons (Processed.of hu) (.cons (Processed.of h'') (.cons (Processed.of h') (.cons (Processed.of h) .nil)))
  obtain ⟨-, dayStart, -, heq⟩ := Account.start_eq hstart
  have hplan : a.plan = lockPlan := by rw [heq]; rfl
  have hinitial : a.initialBalance = 10000 := by rw [heq]; rfl
  have hstartPhase : a.plan.phase = .phase1 := by rw [hplan]; rfl
  refine ⟨a, .of h, .of h', .of h'', .of hu, hcalls, rfl, ?_, hplan, hinitial, hbalances, hopen, hlocked',
    hlocked, hreleased⟩
  simp only [List.forall_mem_cons, List.not_mem_nil, false_imp_iff, implies_true, and_true]
  exact ⟨hphaseEnd.trans hphase''.symm, hphase''.trans hphase'.symm, hphase'.trans hphase.symm,
    hphase.trans hstartPhase.symm⟩

/-- The lock holds over a day that starts at its balance. -/
theorem eod_lock_stays_day :
    ∃ (a b : Account) (calls : List Processed),
      Run a calls b ∧ (∀ c ∈ calls, c.KeepsPhase) ∧ a.plan = lockPlan ∧
        calls.map Processed.ev =
          [.tick (tickOnDay 2) 10600 10600, .tick (tickOnDay 1) 11000 11000,
            .tick (tickOnDay 0) 11000 11000] ∧
        (∃ c ∈ calls, c.before.EodLocked) ∧ b.EodLocked ∧ StaysLocked a calls := by
  obtain ⟨a, first, second, third, fourth, h⟩ := exists_lockRun
  have hrun : Run a [third, second, first] third.after := by
    have hsplit : Run a ([fourth] ++ [third, second, first]) fourth.after := h.run
    obtain ⟨m, hearlier, -⟩ := hsplit.split
    cases hearlier with
    | cons _ hbefore => exact .cons third hbefore
  have hkeeps : ∀ c ∈ [third, second, first], c.KeepsPhase :=
    fun c hc => h.keeps c (List.mem_cons_of_mem _ hc)
  refine ⟨a, third.after, _, hrun, hkeeps, h.plan_eq, (List.cons.inj h.events).2,
    ⟨third, List.mem_cons_self, h.locked_before⟩, h.locked, ?_⟩
  rw [eod_lock_stays_iff hrun hkeeps (by rw [h.plan_eq]; rfl) (by rw [h.plan_eq]; rfl), h.initial_eq,
    h.plan_eq]
  simp only [List.forall_mem_cons, List.not_mem_nil, false_imp_iff, implies_true, and_true]
  have hreached : (10000 : Money) + lockPlan.maxTotalDrawdownPct * 10000 ≤ 11000 := by decide +kernel
  refine ⟨fun _ _ => ?_, fun _ _ => ?_, fun hlocked => absurd hlocked h.open_before⟩
  · rw [h.balance_eq.2]
    exact hreached
  · rw [h.balance_eq.1]
    exact hreached

/-- A day that starts below the balance of the lock takes the floor down again. -/
theorem eod_lock_released :
    ∃ (a b : Account) (calls : List Processed),
      Run a calls b ∧ (∀ c ∈ calls, c.KeepsPhase) ∧ a.plan = lockPlan ∧
        calls.map Processed.ev =
          [.tick (tickOnDay 3) 10600 10600, .tick (tickOnDay 2) 10600 10600,
            .tick (tickOnDay 1) 11000 11000, .tick (tickOnDay 0) 11000 11000] ∧
        b.maxDrawdownFloor b.plan.maxLossReference = 9600 ∧ ¬StaysLocked a calls := by
  obtain ⟨a, first, second, third, fourth, h⟩ := exists_lockRun
  refine ⟨a, fourth.after, _, h.run, h.keeps, h.plan_eq, h.events, h.released.1, fun hstays => ?_⟩
  have hlater : third.seen.EodLocked → fourth.seen.EodLocked :=
    (List.pairwise_cons.mp hstays.seen).1 third List.mem_cons_self
  have hlocks : ∀ c ∈ [fourth, third, second, first], c.before.LocksAtStart := fun c hc =>
    Account.LocksAtStart.of_terms ⟨by rw [h.plan_eq]; rfl, by rw [h.plan_eq]; rfl⟩ ((Run.terms h.run).2 c hc)
  have hsame (c : Processed) (hc : c ∈ [fourth, third, second, first]) :
      c.seen.EodLocked = c.after.EodLocked :=
    c.seen_eodLocked_eq (h.keeps c hc) (hlocks c hc)
  rw [hsame third (by simp), hsame fourth (by simp)] at hlater
  have hfloor := (h.released.1.symm.trans (hlater h.locked)).trans h.released.2
  revert hfloor
  decide +kernel

end Propfirm
