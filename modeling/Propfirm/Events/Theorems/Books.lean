import Propfirm.Engine.Theorems.Fills
import Propfirm.Events.Theorems.Status
import Propfirm.Payout.Lemmas

/-!
# The books of a replayed account
-/

namespace Propfirm

open Fallible Replay

variable {p : Pipeline} {env : Env} {a b acc : Account} {ev : PipelineEvent} {r : PipelineResult}
  {d : Decision} {t : Timestamp} {actorId : String} {id : AccountId} {tenantId : TenantId}
  {plan : ChallengePlan} {log evs : List DomainEvent} {phase : ChallengePhase}

structure Books where
  balance : Money
  equity : Money
  totalRealizedPnl : Money
  activeTradingDays : ℕ
  tradingDayIndex : ℕ
  phase : ChallengePhase
  payoutCount : ℕ
  balanceAtLastPayout : Money
  refundUsed : Bool
deriving DecidableEq

def Account.books (a : Account) : Books where
  balance := a.balance
  equity := a.equity
  totalRealizedPnl := a.totalRealizedPnl
  activeTradingDays := a.activeTradingDays
  tradingDayIndex := a.tradingDayIndex
  phase := a.plan.phase
  payoutCount := a.payoutCount
  balanceAtLastPayout := a.balanceAtLastPayout
  refundUsed := a.refundUsed

/-! ## Replay -/

/-- No trading day has been counted and no phase passed. Replay never moves an account on: it books no
result on the day, and without one no rollover counts it. -/
structure Account.Unmoved (phase : ChallengePhase) (a : Account) : Prop where
  pnl_eq : a.todayRealizedPnl = 0
  days_eq : a.activeTradingDays = 0
  phase_eq : a.plan.phase = phase

/-- What an event does to the books of an account that is replayed. -/
def DomainEventKind.booksAfter (books : Books) : DomainEventKind → Books
  | .tradeFilled trade =>
      { books with
        balance := books.balance + trade.netPnl
        totalRealizedPnl := books.totalRealizedPnl + trade.netPnl }
  | .dayRollover newDayIndex _ => { books with tradingDayIndex := newDayIndex }
  | .tickEvaluated equity => { books with equity }
  | .payoutApproved amount feeRefund =>
      { books with
        balance := books.balance - amount
        balanceAtLastPayout := books.balance - amount
        payoutCount := books.payoutCount + 1
        refundUsed := if 0 < feeRefund then true else books.refundUsed }
  | _ => books

def booksThrough (books : Books) (evs : List DomainEvent) : Books :=
  evs.foldl (fun x e => e.kind.booksAfter x) books

theorem booksThrough_append (books : Books) (xs ys : List DomainEvent) :
    booksThrough books (xs ++ ys) = booksThrough (booksThrough books xs) ys := List.foldl_append

theorem replayEvent_books {owner : AccountId} {e : DomainEvent} (he : e.IsOf owner false)
    (hacc : acc.Unmoved phase) :
    ∃ acc', replayEvent id acc e = .ok acc' ∧ acc'.Unmoved phase ∧
      acc'.books = e.kind.booksAfter acc.books := by
  have hstart := he.start_eq
  have hsnapshot := he.not_snapshot
  unfold replayEvent
  cases hkind : e.kind with
  | accountStarted plan => rw [hkind] at hstart; cases hstart
  | accountSnapshotted snapshot => rw [hkind] at hsnapshot; cases hsnapshot
  | dayRollover newDayIndex dayStart =>
      simp only [if_neg (not_not.mpr hacc.pnl_eq)]
      exact ⟨_, rfl, ⟨rfl, hacc.days_eq, hacc.phase_eq⟩, rfl⟩
  | positionOpened positionId symbol side qty =>
      dsimp only
      split
      · exact ⟨_, rfl, hacc, rfl⟩
      · exact ⟨_, rfl, ⟨hacc.pnl_eq, hacc.days_eq, hacc.phase_eq⟩, rfl⟩
  | _ => exact ⟨_, rfl, ⟨hacc.pnl_eq, hacc.days_eq, hacc.phase_eq⟩, rfl⟩

theorem replay_books {owner : AccountId} (h : ∀ e ∈ evs, e.IsOf owner false) (hacc : acc.Unmoved phase) :
    ∃ acc', Replay.replay (replayEvent id) acc evs = .ok acc' ∧ acc'.Unmoved phase ∧
      acc'.books = booksThrough acc.books evs :=
  replay_reading (Account.Unmoved phase) Account.books (fun x (e : DomainEvent) => e.kind.booksAfter x)
    (fun e he _ hx => replayEvent_books (h e he) hx) hacc

/-! ## Accounts that do not trade -/

/-- Nothing has been traded, and there is nothing to pay out. -/
structure Account.Idle (phase : ChallengePhase) (a : Account) : Prop where
  equity_eq : a.equity = a.balance
  paid_eq : a.balanceAtLastPayout = a.balance
  positions_eq : a.openPositions = []
  pnl_eq : a.todayRealizedPnl = 0
  not_counted : a.dayCountedToday = false
  days_eq : a.activeTradingDays = 0
  phase_eq : a.plan.phase = phase

theorem new_idle : (Account.new id tenantId plan).Idle plan.phase := ⟨rfl, rfl, rfl, rfl, rfl, rfl, rfl⟩

theorem Account.Idle.congr (h : a.Idle phase) (hbooks : b.books = a.books)
    (hpositions : b.openPositions = a.openPositions) (hpnl : b.todayRealizedPnl = a.todayRealizedPnl)
    (hcounted : b.dayCountedToday = a.dayCountedToday) : b.Idle phase where
  equity_eq :=
    (congrArg Books.equity hbooks).trans (h.equity_eq.trans (congrArg Books.balance hbooks).symm)
  paid_eq :=
    (congrArg Books.balanceAtLastPayout hbooks).trans
      (h.paid_eq.trans (congrArg Books.balance hbooks).symm)
  positions_eq := hpositions.trans h.positions_eq
  pnl_eq := hpnl.trans h.pnl_eq
  not_counted := hcounted.trans h.not_counted
  days_eq := (congrArg Books.activeTradingDays hbooks).trans h.days_eq
  phase_eq := (congrArg Books.phase hbooks).trans h.phase_eq

theorem Account.Idle.rollover (h : a.Idle phase) : (a.rollover false t).Idle phase :=
  ⟨h.equity_eq, h.paid_eq, h.positions_eq, rfl, rfl, h.days_eq, h.phase_eq⟩

theorem Account.Idle.rolled (h : a.Idle phase) (starts : List Timestamp) :
    (a.rolled (starts.map fun d => (false, d))).Idle phase := by
  induction starts generalizing a with
  | nil => exact h
  | cons d ds ih => exact ih h.rollover

theorem rolled_books (starts : List Timestamp) :
    (a.rolled (starts.map fun d => (false, d))).books =
      { a.books with tradingDayIndex := (a.rolled (starts.map fun d => (false, d))).tradingDayIndex } := by
  induction starts generalizing a with
  | nil => rfl
  | cons d ds ih => exact @ih (a.rollover false d)

theorem Account.Idle.caughtUp (h : a.Idle phase) (starts : List Timestamp) :
    a.caughtUp starts = a.rolled (starts.map fun d => (false, d)) := by
  rw [Account.caughtUp, h.pnl_eq, decide_eq_false (not_not.mpr rfl), tradedFirst_false]

theorem Account.Idle.route (h : a.Idle phase) (hroute : route env a ev = .ok (b, evs)) :
    b.Idle phase ∧ booksThrough a.books evs = b.books := by
  rw [route_eq_map] at hroute
  split at hroute
  · obtain ⟨rfl, rfl⟩ := Prod.mk.inj (Except.ok.inj hroute)
    exact ⟨h, rfl⟩
  · obtain ⟨starts, -, hmap⟩ := map_eq_ok.mp hroute
    obtain ⟨rfl, rfl⟩ := Prod.mk.inj hmap
    rw [h.caughtUp]
    refine ⟨h.rolled starts, ?_⟩
    split
    · rename_i hnil; rw [hnil]; rfl
    · exact (rolled_books starts).symm

/-- The event counts its day as traded, or claims that it was. -/
def PipelineEvent.trades : PipelineEvent → Bool
  | .tradeFilled _ => true
  | .dayRollover hadTradesToday => hadTradesToday
  | _ => false

def PipelineEvent.isTick : PipelineEvent → Bool
  | .tick .. => true
  | _ => false

theorem Account.Idle.not_acceptedQuote {now : Timestamp} {label : String} {quote : PayoutQuote}
    (h : a.Idle phase) : acceptedQuote a now label ≠ .ok quote := by
  intro hq
  obtain ⟨config, hquote⟩ := acceptedQuote_accepted hq
  have hpos := hquote.basis_pos
  rw [hquote.basis_eq, h.paid_eq, sub_self] at hpos
  exact lt_irrefl 0 hpos

theorem Account.Idle.equityAfterTick (h : a.Idle phase) (quote : Quote) :
    equityAfterTick a.balance a.openPositions quote = a.equity := by
  simp [Propfirm.equityAfterTick, h.positions_eq, h.equity_eq]

/-- Replay follows every event that does not trade. -/
theorem Account.Idle.effect (h : a.Idle phase) (heffect : Effect env a ev b evs)
    (hev : ev.trades = false) (htick : ev.isTick = false) :
    b.Idle phase ∧ booksThrough a.books evs = b.books := by
  cases heffect with
  | accountStarted hstart =>
      obtain ⟨-, dayStart, -, rfl⟩ := Account.start_eq hstart
      exact ⟨h.congr rfl rfl rfl rfl, rfl⟩
  | orderSubmitted => exact ⟨h, rfl⟩
  | tradeFilled hpnl => cases hev
  | tick hadmit => cases htick
  | tickEstimated hequity =>
      rw [hequity, h.equityAfterTick]
      exact ⟨h.congr rfl rfl rfl rfl, rfl⟩
  | dayRollover hday =>
      obtain rfl : _ = false := hev
      obtain ⟨dayStart, -, rfl⟩ := rolloverDay_ok.mp hday
      exact ⟨h.rollover, rfl⟩
  | endOfDay => exact ⟨h, rfl⟩
  | onDemand => exact ⟨h, rfl⟩
  | emergencyStop =>
      exact ⟨h.congr rfl rfl rfl rfl, rfl⟩
  | overrideBreach hclear =>
      obtain ⟨-, rfl⟩ := Account.clearBreach_eq hclear
      exact ⟨h.congr rfl rfl rfl rfl, rfl⟩
  | payoutRequest hq hpending => exact absurd hq h.not_acceptedQuote
  | payoutApprove hq hrecord => exact absurd hq h.not_acceptedQuote

/-! ## Decisions -/

theorem booksThrough_of_not_booked {books : Books} (h : ∀ e ∈ evs, e.kind.isBooked = false) :
    booksThrough books evs = books := by
  induction evs with
  | nil => rfl
  | cons e evs ih =>
      have hfirst : e.kind.booksAfter books = books := by
        have he := h e List.mem_cons_self
        cases hkind : e.kind <;> rw [hkind] at he <;> first | rfl | cases he
      show booksThrough (e.kind.booksAfter books) evs = books
      rw [hfirst]
      exact ih fun x hx => h x (List.mem_cons_of_mem e hx)

/-- Decisions book nothing. -/
theorem Passage.decisionLog_booksThrough {books : Books} (s : Passage p env a ev r) :
    booksThrough books s.decisionLog = books :=
  booksThrough_of_not_booked fun e he => (s.decisionLog_isDecision e he).not_booked

/-- The books are kept by a call that neither trades nor promotes the account. -/
def Evaluated.keepsBooks (s : Evaluated env a ev) (p : Pipeline) : Bool :=
  !ev.trades && !(s.marked p).promotable

theorem Evaluated.keepsBooks_iff (s : Evaluated env a ev) :
    s.keepsBooks p = true ↔ ev.trades = false ∧ (s.marked p).promotable = false := by
  simp [keepsBooks]

namespace Passage

theorem books_eq (s : Passage p env a ev r) (h : (s.marked p).promotable = false) :
    r.account.books = s.applied.account.books :=
  s.unpromoted_reading h Account.books (fun _ _ _ _ _ _ => rfl) fun _ _ _ _ => rfl

theorem account_idle (s : Passage p env a ev r) (h : s.applied.account.Idle phase)
    (hs : s.keepsBooks p = true) : r.account.Idle phase := by
  obtain ⟨hev, hp⟩ := s.keepsBooks_iff.mp hs
  have hfill : ∀ trade, ev ≠ .tradeFilled trade := by
    rintro trade rfl
    cases hev
  refine h.congr (s.books_eq hp) ?_ ?_ ?_
  · rw [s.account_reading Account.openPositions fun _ _ _ _ => rfl, s.promoted_eq_marked hp,
      Evaluated.marked, applyTargetHit_reading Account.openPositions fun _ _ _ _ => rfl, s.filled_eq hfill]
  · exact s.unpromoted_reading hp Account.todayRealizedPnl (fun _ _ _ _ _ _ => rfl) fun _ _ _ _ => rfl
  · exact s.unpromoted_reading hp Account.dayCountedToday (fun _ _ _ _ _ _ => rfl) fun _ _ _ _ => rfl

/-- Without a trade and without a promotion, the books that replay arrives at are those of the account. -/
theorem idle (s : Passage p env a ev r) (h : a.Idle phase) (htick : ev.isTick = false)
    (hs : s.keepsBooks p = true) :
    r.account.Idle phase ∧ booksThrough a.books r.events = r.account.books := by
  obtain ⟨hev, hp⟩ := s.keepsBooks_iff.mp hs
  obtain ⟨hrouted, hroute⟩ := h.route s.route_eq
  obtain ⟨trades, heffect⟩ := applyEvent_effect s.apply_eq
  have htrades : ({ s.routed with todayTrades := trades } : Account).Idle phase :=
    hrouted.congr rfl rfl rfl rfl
  obtain ⟨happlied, hevent⟩ := htrades.effect heffect hev htick
  refine ⟨s.account_idle happlied hs, ?_⟩
  rw [s.events_split, booksThrough_append, booksThrough_append, s.decisionLog_booksThrough, hroute,
    s.books_eq hp]
  exact hevent

end Passage

/-! ## Accounts that have moved -/

def ChallengePhase.rank : ChallengePhase → ℕ
  | .phase1 => 0
  | .phase2 => 1
  | .funded => 2

theorem rank_nextPhaseFor (h : phase ≠ .funded) : (nextPhaseFor phase).rank = phase.rank + 1 := by
  cases phase with
  | funded => exact absurd rfl h
  | _ => rfl

/-- The account has left its first phase, or has a day to count in it. It never comes back. -/
def Account.Moved (phase : ChallengePhase) (a : Account) : Prop :=
  phase.rank < a.plan.phase.rank ∨ a.plan.phase = phase ∧ 0 < a.activeTradingDays

theorem Account.Moved.books_ne (h : a.Moved phase) (hacc : acc.Unmoved phase) : acc.books ≠ a.books := by
  intro hbooks
  have hphase : acc.plan.phase = a.plan.phase := congrArg Books.phase hbooks
  have hdays : acc.activeTradingDays = a.activeTradingDays := congrArg Books.activeTradingDays hbooks
  rcases h with hrank | ⟨-, hpos⟩
  · rw [← hphase, hacc.phase_eq] at hrank
    exact lt_irrefl _ hrank
  · rw [← hdays, hacc.days_eq] at hpos
    exact lt_irrefl 0 hpos

theorem rollover_activeTradingDays {had : Bool} :
    a.activeTradingDays ≤ (a.rollover had t).activeTradingDays := by
  cases had with
  | false => exact le_rfl
  | true =>
      show a.activeTradingDays ≤ if a.dayCountedToday then a.activeTradingDays else a.activeTradingDays + 1
      split <;> omega

theorem rolled_activeTradingDays (days : List (Bool × Timestamp)) :
    a.activeTradingDays ≤ (a.rolled days).activeTradingDays := by
  induction days generalizing a with
  | nil => exact le_rfl
  | cons day days ih => exact rollover_activeTradingDays.trans ih

theorem route_activeTradingDays (h : route env a ev = .ok (b, evs)) :
    a.activeTradingDays ≤ b.activeTradingDays := by
  rw [route_eq_map] at h
  split at h
  · cases h; exact le_rfl
  · obtain ⟨starts, -, h⟩ := map_eq_ok.mp h
    rw [← (Prod.mk.inj h).1]
    exact rolled_activeTradingDays _

theorem markActiveTradingDay_le : a.activeTradingDays ≤ a.markActiveTradingDay.activeTradingDays := by
  unfold Account.markActiveTradingDay
  split
  · exact le_rfl
  · exact Nat.le_succ _

theorem Transition.activeTradingDays_le (h : Transition env a ev b) :
    a.activeTradingDays ≤ b.activeTradingDays := by
  by_cases hquiet : ev.isQuiet = true
  · exact (h.quiet_reading hquiet Account.activeTradingDays fun _ => rfl).ge
  cases h with
  | tradeFilled => exact markActiveTradingDay_le (a := a.applyRealizedPnl _ _ _ _)
  | tick | tickEstimated => exact le_rfl
  | dayRollover h =>
      obtain ⟨dayStart, -, rfl⟩ := rolloverDay_ok.mp h
      exact rollover_activeTradingDays
  | payoutApprove h =>
      obtain ⟨-, rfl⟩ := recordPayout_eq h
      exact le_rfl
  | _ => exact absurd rfl hquiet

/-- On an account that has not traded, an event that trades counts the day. -/
theorem Account.Idle.counted (h : a.Idle phase) (htr : Transition env a ev b) (hev : ev.trades = true) :
    0 < b.activeTradingDays := by
  cases htr with
  | tradeFilled =>
      simp [Account.markActiveTradingDay, Account.applyRealizedPnl, h.not_counted]
  | dayRollover hday =>
      obtain rfl : _ = true := hev
      obtain ⟨dayStart, -, rfl⟩ := rolloverDay_ok.mp hday
      simp [Account.closeTradedDay, Account.openNextDay, h.not_counted]
  | _ => cases hev

namespace Passage

theorem applied_activeTradingDays (s : Passage p env a ev r) :
    a.activeTradingDays ≤ s.applied.account.activeTradingDays := by
  obtain ⟨trades, htr⟩ := applyEvent_transition s.apply_eq
  exact (route_activeTradingDays s.route_eq).trans htr.activeTradingDays_le

theorem moved_of_rank (s : Passage p env a ev r) (hrank : phase.rank ≤ a.plan.phase.rank)
    (hp : (s.marked p).promotable = true) : r.account.Moved phase := by
  rcases s.account_phase with ⟨hp', -⟩ | ⟨-, hphase, -, hplan⟩
  · rw [hp] at hp'; cases hp'
  · refine .inl (lt_of_le_of_lt hrank ?_)
    rw [hplan]
    change _ < (nextPhaseFor a.plan.phase).rank
    rw [rank_nextPhaseFor hphase]
    exact Nat.lt_succ_self _

theorem moved_of_days (s : Passage p env a ev r) (hphase : a.plan.phase = phase)
    (hdays : 0 < s.applied.account.activeTradingDays) : r.account.Moved phase := by
  cases hp : (s.marked p).promotable with
  | true => exact s.moved_of_rank (by rw [hphase]) hp
  | false =>
      refine .inr ⟨by rw [s.account_plan_of_not_promotable hp, hphase], ?_⟩
      have hbooks : r.account.activeTradingDays = s.applied.account.activeTradingDays :=
        congrArg Books.activeTradingDays (s.books_eq hp)
      rw [hbooks]
      exact hdays

theorem moved (s : Passage p env a ev r) (h : a.Moved phase) : r.account.Moved phase := by
  rcases h with hrank | ⟨hphase, hdays⟩
  · cases hp : (s.marked p).promotable with
    | true => exact s.moved_of_rank hrank.le hp
    | false => exact .inl (by rw [s.account_plan_of_not_promotable hp]; exact hrank)
  · exact s.moved_of_days hphase (hdays.trans_le s.applied_activeTradingDays)

/-- A trade or a promotion moves an account that was idle. -/
theorem moved_of_idle (s : Passage p env a ev r) (h : a.Idle phase) (hs : s.keepsBooks p = false) :
    r.account.Moved phase := by
  cases hp : (s.marked p).promotable with
  | true => exact s.moved_of_rank (by rw [h.phase_eq]) hp
  | false =>
      have hev : ev.trades = true := by simpa [Evaluated.keepsBooks, hp] using hs
      obtain ⟨hrouted, -⟩ := h.route s.route_eq
      obtain ⟨trades, htr⟩ := applyEvent_transition s.apply_eq
      have htrades : ({ s.routed with todayTrades := trades } : Account).Idle phase :=
        hrouted.congr rfl rfl rfl rfl
      exact s.moved_of_days h.phase_eq (htrades.counted htr hev)

end Passage

/-! ## A whole run -/

/-- As long as a run is quiet, replay has the books of the account; after that the account has moved and
the replayed one has not. -/
structure BooksAgree (phase : ChallengePhase) (quiet : Bool) (a acc : Account) : Prop where
  unmoved : acc.Unmoved phase
  idle : quiet = true → a.Idle phase ∧ acc.books = a.books
  moved : quiet = false → a.Moved phase

theorem BooksAgree.books_iff {quiet : Bool} (h : BooksAgree phase quiet a acc) :
    acc.books = a.books ↔ quiet = true := by
  cases quiet with
  | true => simpa using (h.idle rfl).2
  | false => simpa using (h.moved rfl).books_ne h.unmoved

theorem Passage.reproduces_books {quiet : Bool} (s : Passage p env a ev r) (hev : ev.isStart = false)
    (htick : ev.isTick = false) (hacc : BooksAgree phase quiet a acc) :
    Reproduces (replayEvent id) (BooksAgree phase (quiet && s.keepsBooks p)) acc r.account r.events := by
  obtain ⟨final, hfinal, hunmoved, hbooks⟩ :=
    replay_books (s.events_isOf_not_start hev) hacc.unmoved
  refine ⟨final, hfinal, hunmoved, fun hquiet => ?_, fun hbusy => ?_⟩
  · obtain ⟨hq, hs⟩ := Bool.and_eq_true_iff.mp hquiet
    obtain ⟨hidle, hsame⟩ := hacc.idle hq
    obtain ⟨hidle', hthrough⟩ := s.idle hidle htick hs
    exact ⟨hidle', by rw [hbooks, hsame, hthrough]⟩
  · cases hq : quiet with
    | false => exact s.moved (hacc.moved hq)
    | true =>
        rw [hq, Bool.true_and] at hbusy
        exact s.moved_of_idle (hacc.idle hq).1 hbusy

theorem Passage.reproduces_first_books {tenantId' : TenantId}
    (s : Passage p env (.new id tenantId plan) (.accountStarted t) r)
    (hacc : (Account.new id tenantId' plan).start t = .ok acc) :
    Reproduces (replayEvent id) (BooksAgree plan.phase (s.keepsBooks p)) acc r.account s.decisionLog := by
  obtain ⟨-, _, -, hstarted⟩ := Account.start_eq hacc
  obtain ⟨⟨trades, hstart⟩, -⟩ := s.first
  obtain ⟨-, _, -, happlied⟩ := Account.start_eq hstart
  have hunmoved : acc.Unmoved plan.phase := by
    rw [hstarted]
    exact ⟨rfl, rfl, rfl⟩
  obtain ⟨final, hfinal, hunmoved', hbooks⟩ := replay_books s.decisionLog_isOf hunmoved
  refine ⟨final, hfinal, hunmoved', fun hs => ?_, s.moved_of_idle new_idle⟩
  have hidle : s.applied.account.Idle plan.phase := by
    have hnew : (Account.new id tenantId plan).Idle plan.phase := new_idle
    rw [happlied]
    exact hnew.congr rfl rfl rfl rfl
  refine ⟨s.account_idle hidle hs, ?_⟩
  rw [hbooks, s.decisionLog_booksThrough, s.books_eq (s.keepsBooks_iff.mp hs).2, happlied, hstarted]
  rfl

/-- One call of a run without broker ticks, with the events so far and whether the books have been kept
all along. -/
inductive BooksStep : Account × List DomainEvent × Bool → Account × List DomainEvent × Bool → Prop
  | step {p env a ev r past quiet} (s : Evaluated env a ev) :
      Pipeline.process p env a ev = .ok r → ev.isTick = false →
        BooksStep (a, past, quiet) (r.account, past ++ r.events, quiet && s.keepsBooks p)

theorem BooksStep.recorded {x y : Account × List DomainEvent × Bool}
    (h : Recorded (BooksAgree plan.phase x.2.2) id tenantId plan x.1 x.2.1) (hstep : BooksStep x y) :
    Recorded (BooksAgree plan.phase y.2.2) id tenantId plan y.1 y.2.1 := by
  cases hstep with
  | step s hp htick =>
      obtain ⟨pass⟩ := Pipeline.process_passage hp
      obtain rfl := s.subsingleton pass.toEvaluated
      have hev := pass.not_start h.started
      exact h.extend pass fun acc hacc => pass.reproduces_books hev htick hacc

/-- In a run without broker ticks from the start of a new account, the replayed account has the books of
the account exactly if nothing was traded, no rollover claimed a traded day and no phase was passed. -/
theorem replayed_books_iff {quiet : Bool}
    (h : p.process env (.new id tenantId plan) (.accountStarted t) = .ok r)
    (s : Evaluated env (.new id tenantId plan) (.accountStarted t))
    (hrun : Relation.ReflTransGen BooksStep (r.account, r.events, s.keepsBooks p) (a, log, quiet))
    (replayTenant : TenantId) :
    ((InMemoryEventStore.empty.appendAll log).replay id replayTenant).map Account.books = .ok a.books ↔
      quiet = true := by
  obtain ⟨pass⟩ := Pipeline.process_passage h
  obtain rfl := s.subsingleton pass.toEvaluated
  have hfirst : Recorded (BooksAgree plan.phase (pass.keepsBooks p)) id replayTenant plan r.account
      r.events :=
    .first pass fun acc hacc => pass.reproduces_first_books hacc
  have hrecorded := invariant_of_run
    (fun x => Recorded (BooksAgree plan.phase x.2.2) id replayTenant plan x.1 x.2.1)
    (fun _ _ hx hstep => hstep.recorded hx) hrun hfirst
  obtain ⟨acc, hacc, hagree⟩ := hrecorded.replay
  rw [hacc, Except.map, Except.ok.injEq]
  exact hagree.books_iff

theorem replayed_books_rolled :
    ∃ (r r' : PipelineResult),
      (Pipeline.ofPlan calmPlan).process (.at 0) (.new ⟨1⟩ ⟨1⟩ calmPlan) (.accountStarted 0) = .ok r ∧
        (Pipeline.ofPlan calmPlan).process (.at 1) r.account (.dayRollover false) = .ok r' ∧
        r'.account.tradingDayIndex = 1 ∧
        ((InMemoryEventStore.empty.appendAll (r.events ++ r'.events)).replay ⟨1⟩ ⟨2⟩).map Account.books =
          .ok r'.account.books := by
  have hrun :
      (do
        let r ← (Pipeline.ofPlan calmPlan).process (.at 0) (.new ⟨1⟩ ⟨1⟩ calmPlan) (.accountStarted 0)
        let r' ← (Pipeline.ofPlan calmPlan).process (.at 1) r.account (.dayRollover false)
        pure (r.result.decision.kind, r.account.targetReachedAt, r'.result.decision.kind,
          r'.account.tradingDayIndex)) =
        .ok (.warn, none, .warn, 1) := by
    decide +kernel
  obtain ⟨r, h, hrun⟩ := bind_eq_ok.mp hrun
  obtain ⟨r', h', hrun⟩ := bind_eq_ok.mp hrun
  have hfacts := pure_eq_ok.mp hrun
  simp only [Prod.mk.injEq] at hfacts
  obtain ⟨hkind, htarget, hkind', hindex⟩ := hfacts
  obtain ⟨pass⟩ := Pipeline.process_passage h
  obtain ⟨pass'⟩ := Pipeline.process_passage h'
  have hquiet : pass.keepsBooks (Pipeline.ofPlan calmPlan) = true :=
    pass.keepsBooks_iff.mpr ⟨rfl, pass.not_promotable_of_no_target (by rw [hkind]; decide) rfl⟩
  have hquiet' : pass'.keepsBooks (Pipeline.ofPlan calmPlan) = true :=
    pass'.keepsBooks_iff.mpr ⟨rfl, pass'.not_promotable_of_no_target (by rw [hkind']; decide) htarget⟩
  have hstep : BooksStep (r.account, r.events, pass.keepsBooks (Pipeline.ofPlan calmPlan))
      (r'.account, r.events ++ r'.events,
        pass.keepsBooks (Pipeline.ofPlan calmPlan) && pass'.keepsBooks (Pipeline.ofPlan calmPlan)) :=
    .step pass'.toEvaluated h' rfl
  exact ⟨r, r', h, h', hindex,
    (replayed_books_iff h pass.toEvaluated (.single hstep) ⟨2⟩).mpr (by rw [hquiet, hquiet']; rfl)⟩

/-- A fill that earns 100 counts the day and moves the equity of the account. Replay moves the balance
alone. -/
theorem replayed_books_fill :
    (do
      let r ← (Pipeline.ofPlan calmPlan).process (.at 0) (.new ⟨1⟩ ⟨1⟩ calmPlan) (.accountStarted 0)
      let r' ← (Pipeline.ofPlan calmPlan).process (.at 1) r.account (.tradeFilled (closingFill 100 1))
      let acc ← (InMemoryEventStore.empty.appendAll (r.events ++ r'.events)).replay ⟨1⟩ ⟨1⟩
      pure ((r'.account.balance, r'.account.equity, r'.account.activeTradingDays),
        (acc.balance, acc.equity, acc.activeTradingDays))) =
      .ok ((10100, 10100, 1), (10100, 10000, 0)) := by
  decide +kernel

end Propfirm
