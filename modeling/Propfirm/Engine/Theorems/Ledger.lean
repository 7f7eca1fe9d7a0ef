import Propfirm.Engine.Theorems.Fills
import Propfirm.Engine.Theorems.Ticks
import Propfirm.Events.Lemmas
import Propfirm.Lib.Ledger

/-!
# The ledger of an account

Three kinds of calls touch the money of an account: fills, broker ticks and approved payouts.
-/

namespace Propfirm

open Fallible

variable {p : Pipeline} {env : Env} {a b : Account} {ev : PipelineEvent} {r : PipelineResult}
  {evs : List DomainEvent} {calls : List Processed}

/-! ## What a call posts -/

/-- The amounts paid out by these events, each less the fee that is refunded with it. -/
def payouts (evs : List DomainEvent) : List Money :=
  evs.filterMap fun e =>
    match e.kind with
    | .payoutApproved amount feeRefund => some (amount - feeRefund)
    | _ => none

namespace PipelineEvent

def brokerBalance : PipelineEvent → Option Money
  | .tick _ _ balance => some balance
  | _ => none

/-- A reading of the trade that an event fills. -/
def ofFill (f : Trade → Money) : PipelineEvent → Money
  | .tradeFilled trade => f trade
  | _ => 0

end PipelineEvent

namespace Processed

def brokerBalance (c : Processed) : Option Money := c.ev.brokerBalance
def net (c : Processed) : Money := c.ev.ofFill Trade.netPnl
def commission (c : Processed) : Money := c.ev.ofFill Trade.commission
def swap (c : Processed) : Money := c.ev.ofFill Trade.swap
def paidOut (c : Processed) : Money := (payouts c.result.events).sum

end Processed

/-! ## Money through one event -/

/-- The balance of an account and its totals. -/
structure Cash where
  balance : Money
  totalRealizedPnl : Money
  totalCommissions : Money
  totalSwaps : Money

def Account.cash (a : Account) : Cash :=
  ⟨a.balance, a.totalRealizedPnl, a.totalCommissions, a.totalSwaps⟩

def Cash.after (c : Cash) (ev : PipelineEvent) (paid : Money) : Cash where
  balance := ev.brokerBalance.getD (c.balance + (ev.ofFill Trade.netPnl - paid))
  totalRealizedPnl := c.totalRealizedPnl + ev.ofFill Trade.netPnl
  totalCommissions := c.totalCommissions + ev.ofFill Trade.commission
  totalSwaps := c.totalSwaps + ev.ofFill Trade.swap

/-- An event that carries no money leaves the account's alone. -/
theorem Cash.after_eq {c : Cash} (hbalance : ev.brokerBalance = none) (hfill : ∀ f, ev.ofFill f = 0) :
    c.after ev 0 = c := by
  simp [Cash.after, hbalance, hfill]

theorem Effect.cash (h : Effect env a ev b evs) : b.cash = a.cash.after ev (payouts evs).sum := by
  cases h with
  | accountStarted h =>
      obtain ⟨-, dayStart, -, rfl⟩ := Account.start_eq h
      exact (Cash.after_eq rfl fun _ => rfl).symm
  | tradeFilled h =>
      refine (eq_of_outsideDays markActiveTradingDay_outsideDays Account.cash fun _ => rfl).trans ?_
      simp [Account.applyRealizedPnl, Account.cash, Cash.after, payouts, PipelineEvent.brokerBalance,
        PipelineEvent.ofFill, h]
  | tick h =>
      simp [Account.updateEquity, Account.updateBalance, Account.cash, Cash.after,
        PipelineEvent.brokerBalance, PipelineEvent.ofFill]
  | dayRollover h =>
      refine (eq_of_outsideDays (rolloverDay_outsideDays h) Account.cash fun _ => rfl).trans ?_
      exact (Cash.after_eq rfl fun _ => rfl).symm
  | overrideBreach h =>
      obtain ⟨-, rfl⟩ := Account.clearBreach_eq h
      exact (Cash.after_eq rfl fun _ => rfl).symm
  | payoutRequest hq h =>
      obtain ⟨-, rfl⟩ := Account.markPayoutPending_ok h
      split <;> exact (Cash.after_eq rfl fun _ => rfl).symm
  | payoutApprove hq h =>
      obtain ⟨-, rfl⟩ := recordPayout_eq h
      simp [Account.cash, Cash.after, payouts, PipelineEvent.brokerBalance, PipelineEvent.ofFill,
        sub_add_eq_add_sub, add_sub_assoc]
  | _ => exact (Cash.after_eq rfl fun _ => rfl).symm

/-! ## Money through one call -/

theorem payouts_append (xs ys : List DomainEvent) : payouts (xs ++ ys) = payouts xs ++ payouts ys :=
  List.filterMap_append

theorem payouts_of_not_booked (h : ∀ e ∈ evs, e.kind.isBooked = false) : payouts evs = [] := by
  rw [payouts, List.filterMap_eq_nil_iff]
  intro e he
  have hkind := h e he
  cases hk : e.kind with
  | payoutApproved amount feeRefund => rw [hk] at hkind; cases hkind
  | _ => rfl

theorem route_payouts (h : route env a ev = .ok (b, evs)) : payouts evs = [] := by
  rcases route_events h with ⟨-, rfl⟩ | ⟨ts, rfl⟩ <;> rfl

namespace Passage

theorem payouts_eq (s : Passage p env a ev r) : payouts r.events = payouts s.applied.events := by
  have hdecision : payouts s.decisionLog = [] :=
    payouts_of_not_booked fun e he => (s.decisionLog_isDecision e he).not_booked
  rw [s.events_split, payouts_append, payouts_append, route_payouts s.route_eq, hdecision,
    List.nil_append, List.append_nil]

theorem cash (s : Passage p env a ev r) :
    r.account.cash = a.cash.after ev (payouts r.events).sum := by
  obtain ⟨trades, heffect⟩ := applyEvent_effect s.apply_eq
  have hrouted : s.routed.cash = a.cash :=
    s.routed_reading Account.cash fun _ => rfl
  have happlied := heffect.cash
  rw [s.applied_reading Account.cash (fun _ _ _ _ _ _ => rfl) (fun _ _ => rfl) fun _ _ _ _ => rfl,
    happlied, s.payouts_eq]
  exact congrArg (fun c : Cash => c.after ev _) hrouted

end Passage

theorem Processed.cash (c : Processed) : c.after.cash = c.before.cash.after c.ev c.paidOut := by
  obtain ⟨s⟩ := c.passage
  exact s.cash

/-! ## Money through a run -/

theorem Account.Fresh.cash (h : a.Fresh) : a.cash = ⟨a.initialBalance, 0, 0, 0⟩ := by
  rcases h with ⟨id, tenantId, plan, rfl⟩ | ⟨id, tenantId, plan, at_, h⟩
  · rfl
  · obtain ⟨-, dayStart, -, rfl⟩ := Account.start_eq h
    rfl

/-- After any run of a new account the totals are the sums over all fills. The balance is that of the
last broker tick, or the initial one, with the fills since and without the payouts since. -/
theorem ledger_balances (ha : a.Fresh) (h : Run a calls b) :
    b.totalRealizedPnl = (calls.map Processed.net).sum ∧
      b.totalCommissions = (calls.map Processed.commission).sum ∧
      b.totalSwaps = (calls.map Processed.swap).sum ∧
      b.balance =
        (calls.findSome? Processed.brokerBalance).getD a.initialBalance +
            ((sinceSet Processed.brokerBalance calls).map Processed.net).sum -
          ((sinceSet Processed.brokerBalance calls).map Processed.paidOut).sum := by
  have hpnl := h.sum Account.totalRealizedPnl Processed.net fun c =>
    congrArg Cash.totalRealizedPnl c.cash
  have hcommissions := h.sum Account.totalCommissions Processed.commission fun c =>
    congrArg Cash.totalCommissions c.cash
  have hswaps := h.sum Account.totalSwaps Processed.swap fun c => congrArg Cash.totalSwaps c.cash
  have hbalance := h.balance Account.balance Processed.brokerBalance (fun c => c.net - c.paidOut)
    fun c => congrArg Cash.balance c.cash
  rw [show a.totalRealizedPnl = 0 from congrArg Cash.totalRealizedPnl ha.cash, zero_add] at hpnl
  rw [show a.totalCommissions = 0 from congrArg Cash.totalCommissions ha.cash, zero_add] at hcommissions
  rw [show a.totalSwaps = 0 from congrArg Cash.totalSwaps ha.cash, zero_add] at hswaps
  rw [show a.balance = a.initialBalance from congrArg Cash.balance ha.cash, sum_map_sub,
    ← add_sub_assoc] at hbalance
  exact ⟨hpnl, hcommissions, hswaps, hbalance⟩

/-- A loss before a broker tick is in the total and no longer in the balance; one after it is in both. -/
theorem ledger_balances_tick :
    ∃ (a b : Account) (calls : List Processed),
      a.Fresh ∧ Run a calls b ∧
        calls.map Processed.ev =
          [.tradeFilled (closingFill (-50) 2), .tick (tickAt 1) 10100 9900,
            .tradeFilled (closingFill (-100) 1)] ∧
        b.totalRealizedPnl = -150 ∧ b.balance = 9850 := by
  have hrun :
      (do
        let a ← (Account.new ⟨1⟩ ⟨1⟩ promptPlan).start 0
        let r ← (Pipeline.ofPlan promptPlan).process (.at 1) a (.tradeFilled (closingFill (-100) 1))
        let r' ← (Pipeline.ofPlan promptPlan).process (.at (Duration.seconds 1)) r.account
          (.tick (tickAt 1) 10100 9900)
        let r'' ← (Pipeline.ofPlan promptPlan).process (.at (Duration.seconds 1)) r'.account
          (.tradeFilled (closingFill (-50) 2))
        pure (payouts r''.events)) = .ok [] := by
    decide +kernel
  obtain ⟨a, hstart, hrun⟩ := bind_eq_ok.mp hrun
  obtain ⟨r, h, hrun⟩ := bind_eq_ok.mp hrun
  obtain ⟨r', h', hrun⟩ := bind_eq_ok.mp hrun
  obtain ⟨r'', h'', hrun⟩ := bind_eq_ok.mp hrun
  have hpayouts := pure_eq_ok.mp hrun
  have hfresh : a.Fresh := .inr ⟨_, _, _, _, hstart⟩
  have hcalls : Run a [.of h'', .of h', .of h] r''.account :=
    .cons (Processed.of h'') (.cons (Processed.of h') (.cons (Processed.of h) .nil))
  obtain ⟨hpnl, -, -, hbalance⟩ := ledger_balances hfresh hcalls
  refine ⟨a, r''.account, _, hfresh, hcalls, rfl, hpnl.trans ?_, hbalance.trans ?_⟩
  · change (closingFill (-50) 2).netPnl + (0 + ((closingFill (-100) 1).netPnl + 0)) = -150
    decide +kernel
  · change 9900 + ((closingFill (-50) 2).netPnl + 0) - ((payouts r''.events).sum + 0) = 9850
    rw [hpayouts]
    decide +kernel

end Propfirm
