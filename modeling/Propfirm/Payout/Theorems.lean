import Propfirm.Engine.Theorems.Fills
import Propfirm.Engine.Theorems.Promotion
import Propfirm.Lib.Watermark
import Propfirm.Payout.Lemmas

/-!
# Payouts over a run
-/

namespace Propfirm

open Fallible Watermark

variable {a a₀ : Account} {config : PayoutConfig}

/-! ## The log of a run -/

structure Approval where
  quote : PayoutQuote
  paidAt : Timestamp

/-- The approvals of a run in order, and the change of the balance that they did not cause, up to now
and up to the last of them. -/
structure PayoutLog where
  approvals : List Approval
  earned : Money
  earnedAtApproval : Money

namespace PayoutLog

def empty : PayoutLog := ⟨[], 0, 0⟩

def basis (log : PayoutLog) : Money := (log.approvals.map fun x => x.quote.profitBasis).sum

def cash (log : PayoutLog) : Money := (log.approvals.map fun x => x.quote.amount - x.quote.feeRefund).sum

def approve (log : PayoutLog) (x : Approval) : PayoutLog :=
  ⟨log.approvals ++ [x], log.earned, log.earned⟩

def earn (log : PayoutLog) (change : Money) : PayoutLog := { log with earned := log.earned + change }

end PayoutLog

/-- One call of a run with its log. -/
inductive PayoutStep : Account × PayoutLog → Account × PayoutLog → Prop
  | approve {p env a r log label quote} :
      Pipeline.process p env a .payoutApprove = .ok r →
        acceptedQuote a env.branchNow label = .ok quote →
          PayoutStep (a, log) (r.account, log.approve ⟨quote, env.branchNow⟩)
  | other {p env a ev r log} :
      Pipeline.process p env a ev = .ok r → ev ≠ .payoutApprove →
        PayoutStep (a, log) (r.account, log.earn (r.account.balance - a.balance))

/-! ## Profit is paid once -/

def payoutLedger : Account × PayoutLog → Ledger Money
  | (a, log) =>
      { balance := a.balance
        mark := a.balanceAtLastPayout
        earned := log.earned
        earnedAtPayment := log.earnedAtApproval
        basis := log.basis
        paid := log.cash }

/-- The `n`-th approval keeps to the terms. -/
structure Approval.Sound (config : PayoutConfig) (n : ℕ) (x : Approval) : Prop where
  basis_pos : 0 < x.quote.profitBasis
  minimum_le : config.minimumPayout ≤ x.quote.amount
  share_eq : x.quote.traderShare = config.traderShareFor n
  refund_eq : n ≠ 0 → x.quote.feeRefund = 0

theorem Accepted.sound {now quote} (h : Accepted a now config quote) :
    Approval.Sound config a.payoutCount ⟨quote, now⟩ where
  basis_pos := h.basis_pos
  minimum_le := h.minimum_le
  share_eq := h.share_eq
  refund_eq := fun hn => by simp [h.refund_eq, hn]

theorem traderShareFor_nonneg (h : ∀ tier ∈ config.tiers, 0 ≤ tier.traderShare) (n : ℕ) :
    0 ≤ config.traderShareFor n := by
  unfold PayoutConfig.traderShareFor
  cases htier : config.tiers[min n (config.tiers.length - 1)]? with
  | none => exact le_rfl
  | some tier => exact h tier (List.mem_of_getElem? htier)

/-- The `n`-th payout is paid from the tier of its number, or the last one. -/
theorem exists_tier (h : config.tiers ≠ []) (n : ℕ) :
    ∃ tier, config.tiers[min n (config.tiers.length - 1)]? = some tier ∧
      config.traderShareFor n = tier.traderShare := by
  have hlt : min n (config.tiers.length - 1) < config.tiers.length := by
    have := List.length_pos_of_ne_nil h
    omega
  refine ⟨config.tiers[min n (config.tiers.length - 1)], List.getElem?_eq_getElem hlt, ?_⟩
  simp [PayoutConfig.traderShareFor, List.getElem?_eq_getElem hlt]

theorem getElem?_append_singleton_some {α : Type} {xs : List α} {x y : α} {n : ℕ}
    (h : (xs ++ [y])[n]? = some x) : xs[n]? = some x ∨ n = xs.length ∧ x = y := by
  rcases lt_trichotomy n xs.length with hlt | rfl | hgt
  · rw [List.getElem?_append_left hlt] at h
    exact .inl h
  · rw [List.getElem?_concat_length] at h
    exact .inr ⟨rfl, (Option.some.inj h).symm⟩
  · rw [List.getElem?_eq_none (by simp; omega)] at h
    cases h

/-- The book of the account is that of the log, and every approval in it was sound. -/
structure PayoutsSound (config : PayoutConfig) (start : Money) (x : Account × PayoutLog) : Prop where
  config_eq : x.1.payoutBook.terms.payoutConfig = some config
  count_eq : x.1.payoutBook.payoutCount = x.2.approvals.length
  last_eq : ∀ y : Approval, x.2.approvals.getLast? = some y → x.1.payoutBook.lastPayoutAt = some y.paidAt
  balanced : (payoutLedger x).Balanced start
  sound : ∀ (n : ℕ) (y : Approval), x.2.approvals[n]? = some y → y.Sound config n
  gaps : ∀ (n : ℕ) (y z : Approval) (gap : Duration),
    x.2.approvals[n]? = some y → x.2.approvals[n + 1]? = some z →
    config.cycle.minGap = some gap → y.paidAt + gap ≤ z.paidAt

theorem payoutLedger_earn {p : Pipeline} {env : Env} {ev : PipelineEvent} {r : PipelineResult}
    {log : PayoutLog} (s : Passage p env a ev r) (hev : ev ≠ .payoutApprove) :
    payoutLedger (r.account, log.earn (r.account.balance - a.balance)) =
      (payoutLedger (a, log)).earn (r.account.balance - a.balance) := by
  have hmark : r.account.balanceAtLastPayout = a.balanceAtLastPayout :=
    congrArg PayoutBook.balanceAtLastPayout (s.account_payoutBook hev)
  simp only [payoutLedger, Ledger.earn, hmark, add_sub_cancel]
  rfl

theorem payoutLedger_pay {p : Pipeline} {env : Env} {r : PipelineResult} {label : String}
    {quote : PayoutQuote} (log : PayoutLog) (s : Passage p env a .payoutApprove r)
    (hq : acceptedQuote a env.branchNow label = .ok quote)
    (hacc : Accepted a env.branchNow config quote) :
    payoutLedger (r.account, log.approve ⟨quote, env.branchNow⟩) =
      (payoutLedger (a, log)).pay quote.traderShare := by
  obtain ⟨hbalance, hbook⟩ := s.approved hq
  have hmark : r.account.balanceAtLastPayout = a.balance :=
    congrArg PayoutBook.balanceAtLastPayout hbook
  have hgain : (payoutLedger (a, log)).gain = quote.profitBasis := hacc.basis_eq.symm
  have hcash : quote.amount - quote.feeRefund = quote.profitBasis * quote.traderShare := by
    rw [hacc.amount_eq, add_sub_cancel_right]
  simp only [Ledger.pay, hgain, ← hcash]
  simp only [payoutLedger, hbalance, hmark, PayoutLog.approve, PayoutLog.basis, PayoutLog.cash,
    List.map_append, List.map_cons, List.map_nil, List.sum_append, List.sum_singleton, Ledger.mk.injEq,
    and_true]
  ring

theorem PayoutStep.sound {start : Money} {x y} (htiers : ∀ tier ∈ config.tiers, 0 ≤ tier.traderShare)
    (h : PayoutsSound config start x) (hstep : PayoutStep x y) : PayoutsSound config start y := by
  cases hstep with
  | other hp hev =>
      obtain ⟨s⟩ := Pipeline.process_passage hp
      have hbook := s.account_payoutBook hev
      exact
        { config_eq := by rw [hbook]; exact h.config_eq
          count_eq := by rw [hbook]; exact h.count_eq
          last_eq := by rw [hbook]; exact h.last_eq
          balanced := by rw [payoutLedger_earn s hev]; exact h.balanced.earn _
          sound := h.sound
          gaps := h.gaps }
  | approve hp hq =>
      rename_i p env a r log label quote
      obtain ⟨s⟩ := Pipeline.process_passage hp
      obtain ⟨config', hacc⟩ := acceptedQuote_accepted hq
      obtain rfl : config' = config := Option.some.inj (hacc.config_eq.symm.trans h.config_eq)
      obtain ⟨-, hbook⟩ := s.approved hq
      have hcount : a.payoutCount = log.approvals.length := h.count_eq
      refine
        { config_eq := by rw [hbook]; exact h.config_eq
          count_eq := by rw [hbook]; simpa [PayoutLog.approve] using h.count_eq
          last_eq := ?last
          balanced := ?balanced
          sound := ?sound
          gaps := ?gaps }
      case last =>
        intro y hy
        simp only [PayoutLog.approve, List.getLast?_append, List.getLast?_singleton, Option.some_or,
          Option.some.injEq] at hy
        rw [hbook, ← hy]
      case balanced =>
        rw [payoutLedger_pay log s hq hacc]
        have hgain : 0 ≤ (payoutLedger (a, log)).gain := by
          change 0 ≤ a.balance - a.balanceAtLastPayout
          rw [← hacc.basis_eq]
          exact hacc.basis_pos.le
        exact h.balanced.pay hgain (hacc.share_eq ▸ traderShareFor_nonneg htiers _)
      case sound =>
        intro n y hy
        rcases getElem?_append_singleton_some hy with hy | ⟨rfl, rfl⟩
        · exact h.sound n y hy
        · rw [← hcount]; exact hacc.sound
      case gaps =>
        intro n y z gap hy hz hgap
        rcases getElem?_append_singleton_some hz with hz | ⟨hn, rfl⟩
        · have hlt : n < log.approvals.length := by
            have := (List.getElem?_eq_some_iff.mp hz).1
            omega
          rw [PayoutLog.approve, List.getElem?_append_left hlt] at hy
          exact h.gaps n y z gap hy hz hgap
        · -- the one before the new approval was the last
          rw [PayoutLog.approve, List.getElem?_append_left (by omega)] at hy
          have hlast : log.approvals.getLast? = some y := by
            rw [List.getLast?_eq_getElem?, ← hn]
            exact hy
          exact hacc.gap_le gap y.paidAt hgap (h.last_eq y hlast)

/-- No profit is paid twice: in a run that starts without payouts at the initial balance, the bases of
all payouts are covered by what the balance gained otherwise, and every approval keeps to the tiers,
the minimum, the single refund and the cycle. -/
theorem profit_paid_once {log : PayoutLog} (hbalance : a₀.balance = a₀.initialBalance)
    (hmark : a₀.balanceAtLastPayout = a₀.initialBalance) (hcount : a₀.payoutCount = 0)
    (hconfig : a₀.plan.payoutConfig = some config) (hne : config.tiers ≠ [])
    (htiers : ∀ tier ∈ config.tiers, 0 ≤ tier.traderShare)
    (hrun : Relation.ReflTransGen PayoutStep (a₀, .empty) (a, log)) :
    a.balance = a₀.initialBalance + log.earned - log.cash ∧
      log.basis ≤ log.earnedAtApproval ∧
      (∀ (n : ℕ) (x : Approval), log.approvals[n]? = some x →
        0 < x.quote.profitBasis ∧ config.minimumPayout ≤ x.quote.amount ∧
          ∃ tier, config.tiers[min n (config.tiers.length - 1)]? = some tier ∧
            x.quote.traderShare = tier.traderShare) ∧
      (∀ (m n : ℕ) (x y : Approval), log.approvals[m]? = some x → log.approvals[n]? = some y →
        x.quote.feeRefund ≠ 0 → y.quote.feeRefund ≠ 0 → m = n) ∧
      (∀ (n : ℕ) (x y : Approval) (gap : Duration), log.approvals[n]? = some x →
        log.approvals[n + 1]? = some y → config.cycle.minGap = some gap → x.paidAt + gap ≤ y.paidAt) := by
  have hopened : payoutLedger (a₀, .empty) = .opened a₀.initialBalance := by
    simp only [payoutLedger, hbalance, hmark]
    rfl
  have hstart : PayoutsSound config a₀.initialBalance (a₀, .empty) :=
    { config_eq := hconfig
      count_eq := hcount
      last_eq := nofun
      balanced := by rw [hopened]; exact .opened _
      sound := fun _ _ h => by simp [PayoutLog.empty] at h
      gaps := fun _ _ _ _ h => by simp [PayoutLog.empty] at h }
  have hsound := invariant_of_run (PayoutsSound config a₀.initialBalance)
    (fun _ _ h hs => hs.sound htiers h) hrun hstart
  refine ⟨hsound.balanced.balance_eq, hsound.balanced.basis_le, ?_, ?_, hsound.gaps⟩
  · intro n x hx
    have h := hsound.sound n x hx
    rw [h.share_eq]
    exact ⟨h.basis_pos, h.minimum_le, exists_tier hne n⟩
  · intro m n x y hx hy hrefund hrefund'
    have hm : m = 0 := by
      by_contra hm
      exact hrefund ((hsound.sound m x hx).refund_eq hm)
    have hn : n = 0 := by
      by_contra hn
      exact hrefund' ((hsound.sound n y hy).refund_eq hn)
    rw [hm, hn]

def fundedAccount (plan : ChallengePlan) : Account :=
  { Account.new ⟨1⟩ ⟨1⟩ plan with
    status := .funded
    startedAt := some 0
    currentTradingDayStart := some 0 }

theorem profit_paid_once_twice :
    ∃ (a : Account) (log : PayoutLog),
      Relation.ReflTransGen PayoutStep (fundedAccount (.default ⟨1⟩ 0), .empty) (a, log) ∧
        log.approvals.length = 2 ∧ log.basis ≤ log.earnedAtApproval := by
  have hrun :
      (do
        let p := Pipeline.ofPlan (.default ⟨1⟩ 0)
        let r₁ ← p.process (.at (Duration.seconds 1)) (fundedAccount (.default ⟨1⟩ 0))
          (.tick (tickAt 1) 12000 12000)
        let _ ← acceptedQuote r₁.account (Duration.seconds 2) ""
        let r₂ ← p.process (.at (Duration.seconds 2)) r₁.account .payoutApprove
        let r₃ ← p.process (.at (Duration.seconds 3)) r₂.account (.tick (tickAt 3) 15000 15000)
        let _ ← acceptedQuote r₃.account (Duration.seconds 4) ""
        let _ ← p.process (.at (Duration.seconds 4)) r₃.account .payoutApprove
        pure ()) = .ok () := by
    decide +kernel
  obtain ⟨r₁, h₁, hrun⟩ := bind_eq_ok.mp hrun
  obtain ⟨q₁, hq₁, hrun⟩ := bind_eq_ok.mp hrun
  obtain ⟨r₂, h₂, hrun⟩ := bind_eq_ok.mp hrun
  obtain ⟨r₃, h₃, hrun⟩ := bind_eq_ok.mp hrun
  obtain ⟨q₂, hq₂, hrun⟩ := bind_eq_ok.mp hrun
  obtain ⟨r₄, h₄, -⟩ := bind_eq_ok.mp hrun
  have hsteps : Relation.ReflTransGen PayoutStep (fundedAccount (.default ⟨1⟩ 0), .empty) _ :=
    .tail (.tail (.tail (.single (.other h₁ nofun)) (.approve h₂ hq₁)) (.other h₃ nofun))
      (.approve h₄ hq₂)
  have htiers : ∀ tier ∈ PayoutConfig.default.tiers, 0 ≤ tier.traderShare := by decide +kernel
  exact ⟨_, _, hsteps, rfl, (profit_paid_once rfl rfl rfl rfl (by decide) htiers hsteps).2.1⟩

/-! ## The next basis -/

def PipelineEvent.realized : PipelineEvent → Money
  | .tradeFilled trade => trade.netPnl
  | _ => 0

/-- One call that changes the balance by a realized result, or not at all. -/
inductive ResultStep : Account × Money → Account × Money → Prop
  | step {p env a ev r total} :
      Pipeline.process p env a ev = .ok r → ev ≠ .payoutApprove →
        (∀ tick equity balance, ev = .tick tick equity balance → balance = a.balance) →
          ResultStep (a, total) (r.account, total + ev.realized)

theorem balanceAfter_eq_realized {ev : PipelineEvent} {balance : Money}
    (h : ∀ tick equity brokerBalance, ev = .tick tick equity brokerBalance → brokerBalance = balance) :
    ev.balanceAfter balance = balance + ev.realized := by
  cases ev with
  | tick tick equity brokerBalance =>
      simp [PipelineEvent.balanceAfter, PipelineEvent.realized, h tick equity brokerBalance rfl]
  | _ => simp [PipelineEvent.balanceAfter, PipelineEvent.realized]

theorem ResultStep.frame {x y} (h : ResultStep x y) :
    y.1.balance - y.2 = x.1.balance - x.2 ∧ y.1.payoutBook = x.1.payoutBook := by
  cases h with
  | step hp hev htick =>
      obtain ⟨s⟩ := Pipeline.process_passage hp
      refine ⟨?_, s.account_payoutBook hev⟩
      rw [s.account_balance hev, balanceAfter_eq_realized htick]
      ring

/-- After a payout, results that sum to `total` count from the balance before the cash left: the next
basis is their positive part exactly when nothing was paid out, or nothing was won that could have
made up for it. -/
theorem next_basis_iff {p : Pipeline} {env : Env} {r : PipelineResult} {label : String}
    {quote : PayoutQuote} {b : Account} {total : Money} (h : p.process env a .payoutApprove = .ok r)
    (hq : acceptedQuote a env.branchNow label = .ok quote)
    (hrun : Relation.ReflTransGen ResultStep (r.account, 0) (b, total)) (config : PayoutConfig)
    (now : Timestamp) :
    (quotePayout b config b.lastPayoutAt (some b.balanceAtLastPayout) b.refundUsed now).profitBasis =
        max total 0 ↔
      quote.traderShare = 0 ∨ total ≤ 0 ∧ total ≤ quote.profitBasis * quote.traderShare := by
  obtain ⟨s⟩ := Pipeline.process_passage h
  obtain ⟨terms, hacc⟩ := acceptedQuote_accepted hq
  have hledger := payoutLedger_pay .empty s hq hacc
  have hframe : b.balance - total = r.account.balance - 0 ∧ b.payoutBook = r.account.payoutBook :=
    invariant_of_run (fun x => x.1.balance - x.2 = r.account.balance - 0 ∧
        x.1.payoutBook = r.account.payoutBook)
      (fun _ _ hx hs => ⟨hs.frame.1.trans hx.1, hs.frame.2.trans hx.2⟩) hrun ⟨rfl, rfl⟩
  have hgain : b.balance - b.balanceAtLastPayout = total - quote.profitBasis * quote.traderShare := by
    have hpaid := Ledger.gain_pay_earn (payoutLedger (a, .empty)) quote.traderShare total
    rw [← hledger, show (payoutLedger (a, .empty)).gain = quote.profitBasis from hacc.basis_eq.symm]
      at hpaid
    have hmark : b.balanceAtLastPayout = r.account.balanceAtLastPayout :=
      congrArg PayoutBook.balanceAtLastPayout hframe.2
    rw [← hpaid, hmark]
    change _ = r.account.balance + total - r.account.balanceAtLastPayout
    linarith [hframe.1]
  have hbasis : (quotePayout b config b.lastPayoutAt (some b.balanceAtLastPayout) b.refundUsed
      now).profitBasis = max (total - quote.profitBasis * quote.traderShare) 0 := by
    rw [← hgain]; rfl
  rw [hbasis, max_sub_eq_iff, mul_eq_zero]
  simp [hacc.basis_pos.ne']

def profitableAccount (plan : ChallengePlan) : Account :=
  { fundedAccount plan with balance := 12000, equity := 12000 }

theorem next_basis_after_loss :
    ∃ (r r' : PipelineResult),
      (Pipeline.ofPlan (.default ⟨1⟩ 0)).process (.at 1) (profitableAccount (.default ⟨1⟩ 0))
          .payoutApprove = .ok r ∧
        (Pipeline.ofPlan (.default ⟨1⟩ 0)).process (.at 2) r.account
          (.tradeFilled (closingFill (-100) 2)) = .ok r' ∧
        (quotePayout r'.account .default r'.account.lastPayoutAt
          (some r'.account.balanceAtLastPayout) r'.account.refundUsed 3).profitBasis = max (-100) 0 := by
  have hrun :
      (do
        let quote ← acceptedQuote (profitableAccount (.default ⟨1⟩ 0)) 1 ""
        let r ← (Pipeline.ofPlan (.default ⟨1⟩ 0)).process (.at 1) (profitableAccount (.default ⟨1⟩ 0))
          .payoutApprove
        let _ ← (Pipeline.ofPlan (.default ⟨1⟩ 0)).process (.at 2) r.account
          (.tradeFilled (closingFill (-100) 2))
        pure (quote.profitBasis * quote.traderShare)) = .ok 1600 := by
    decide +kernel
  obtain ⟨quote, hq, hrun⟩ := bind_eq_ok.mp hrun
  obtain ⟨r, h, hrun⟩ := bind_eq_ok.mp hrun
  obtain ⟨r', h', hrun⟩ := bind_eq_ok.mp hrun
  have hcash := pure_eq_ok.mp hrun
  have hstep : ResultStep (r.account, 0)
      (r'.account, 0 + (PipelineEvent.tradeFilled (closingFill (-100) 2)).realized) :=
    .step h' nofun nofun
  have htotal : 0 + (PipelineEvent.tradeFilled (closingFill (-100) 2)).realized = -100 := by
    decide +kernel
  rw [htotal] at hstep
  refine ⟨r, r', h, h', (next_basis_iff h hq (.single hstep) .default 3).mpr (.inr ⟨by decide +kernel, ?_⟩)⟩
  rw [hcash]
  decide +kernel

/-- Of a profit of 2000 the trader is paid 1600. The next 1000 they earn do not count. -/
theorem next_basis_lost :
    (do
      let quote ← acceptedQuote (profitableAccount (.default ⟨1⟩ 0)) 1 ""
      let r ← (Pipeline.ofPlan (.default ⟨1⟩ 0)).process (.at 1) (profitableAccount (.default ⟨1⟩ 0))
        .payoutApprove
      let r' ← (Pipeline.ofPlan (.default ⟨1⟩ 0)).process (.at 2) r.account
        (.tradeFilled (closingFill 1000 2))
      pure (quote.amount, r.account.balance, r'.account.balance,
        (quotePayout r'.account .default r'.account.lastPayoutAt
          (some r'.account.balanceAtLastPayout) r'.account.refundUsed 3).profitBasis)) =
      .ok (1600, 10400, 11400, 0) := by
  decide +kernel

/-! ## The payout policy -/

/-- A payout that was approved: the plan it was made under, and the results of the days that the
account had completed. -/
structure PaidPayout where
  plan : ChallengePlan
  days : List Money
  quote : PayoutQuote

/-- Enough of the completed days won enough, and a fee is refunded only on a refundable plan. -/
def PaidPayout.MeetsPolicy (x : PaidPayout) : Prop :=
  (∀ config qualifying, x.plan.payoutConfig = some config → config.qualifyingDays = some qualifying →
      qualifying.minDays ≤ (x.days.filter fun pnl => decide (qualifying.minPnlPerDay ≤ pnl)).length) ∧
    (0 < x.quote.feeRefund → x.plan.refundable = true)

/-- The plan asks for no qualifying days, and there is no refund to withhold. -/
def Account.PolicyIdle (a : Account) : Prop :=
  (∀ config qualifying, a.plan.payoutConfig = some config → config.qualifyingDays = some qualifying →
      qualifying.minDays = 0) ∧
    (a.plan.refundable = true ∨ a.plan.refundFeeAmount ≤ 0 ∨ a.payoutCount ≠ 0 ∨ a.refundUsed = true)

/-- An approval looks at neither: it meets the policy after every history of days exactly when the
policy has nothing to ask. -/
theorem meetsPolicy_iff {now : Timestamp} {label : String} {quote : PayoutQuote}
    (hq : acceptedQuote a now label = .ok quote) :
    (∀ days, PaidPayout.MeetsPolicy ⟨a.plan, days, quote⟩) ↔ a.PolicyIdle := by
  obtain ⟨config, hacc⟩ := acceptedQuote_accepted hq
  have hrefund : (0 < quote.feeRefund → a.plan.refundable = true) ↔
      (a.plan.refundable = true ∨ a.plan.refundFeeAmount ≤ 0 ∨ a.payoutCount ≠ 0 ∨
        a.refundUsed = true) := by
    rw [hacc.refund_eq]
    by_cases hfirst : a.payoutCount = 0 ∧ ¬a.refundUsed = true
    · rw [if_pos hfirst, imp_iff_or_not, not_lt]
      simp [hfirst.1, hfirst.2]
    · rw [if_neg hfirst]
      rw [not_and_or, not_not] at hfirst
      exact iff_of_true (fun h => absurd h (lt_irrefl 0)) (.inr (.inr hfirst))
  constructor
  · intro h
    refine ⟨fun config' qualifying hconfig hdays => ?_, hrefund.mp (h []).2⟩
    exact Nat.le_zero.mp ((h []).1 config' qualifying hconfig hdays)
  · rintro ⟨hidle, hfee⟩ days
    refine ⟨fun config' qualifying hconfig hdays => ?_, hrefund.mpr hfee⟩
    rw [hidle config' qualifying hconfig hdays]
    exact Nat.zero_le _

/-- The results of the days that a call completes: those the event is caught up with, all but the
first without trades, and the one an explicit rollover ends. -/
def Evaluated.completedDays {env : Env} {ev : PipelineEvent} (s : Evaluated env a ev) : List Money :=
  let caughtUp := s.routed.tradingDayIndex - a.tradingDayIndex
  (if caughtUp = 0 then [] else a.todayRealizedPnl :: List.replicate (caughtUp - 1) 0) ++
    match ev with
    | .dayRollover _ => [s.routed.todayRealizedPnl]
    | _ => []

/-- One call of a run whose approvals are made where the policy has nothing to ask, with the results
of the completed days and the approved payouts. -/
inductive PolicyStep :
    Account × List Money × List PaidPayout → Account × List Money × List PaidPayout → Prop
  | approve {p env a r days paid label quote} (s : Evaluated env a .payoutApprove) :
      Pipeline.process p env a .payoutApprove = .ok r →
        acceptedQuote a env.branchNow label = .ok quote → a.PolicyIdle →
          PolicyStep (a, days, paid)
            (r.account, days ++ s.completedDays, paid ++ [⟨a.plan, days ++ s.completedDays, quote⟩])
  | other {p env a ev r days paid} (s : Evaluated env a ev) :
      Pipeline.process p env a ev = .ok r → ev ≠ .payoutApprove →
        PolicyStep (a, days, paid) (r.account, days ++ s.completedDays, paid)

theorem PolicyStep.meetsPolicy {x y} (h : ∀ z ∈ x.2.2, PaidPayout.MeetsPolicy z)
    (hstep : PolicyStep x y) : ∀ z ∈ y.2.2, PaidPayout.MeetsPolicy z := by
  cases hstep with
  | other s hp hev => exact h
  | approve s hp hq hidle =>
      intro z hz
      rcases List.mem_append.mp hz with hz | hz
      · exact h z hz
      · rw [List.mem_singleton.mp hz]
        exact (meetsPolicy_iff hq).mpr hidle _

/-- In a run whose approvals are all made where the policy has nothing to ask, every approved payout
meets it. -/
theorem payout_policy_met {days : List Money} {paid : List PaidPayout}
    (hrun : Relation.ReflTransGen PolicyStep (a₀, [], []) (a, days, paid)) :
    ∀ x ∈ paid, x.MeetsPolicy := by
  have hstart : ∀ z ∈ ([] : List PaidPayout), z.MeetsPolicy := by simp
  exact invariant_of_run (fun x => ∀ z ∈ x.2.2, PaidPayout.MeetsPolicy z)
    (fun _ _ h hs => hs.meetsPolicy h) hrun hstart

theorem payout_policy_met_default :
    ∃ (a : Account) (days : List Money) (paid : List PaidPayout),
      Relation.ReflTransGen PolicyStep (profitableAccount (.default ⟨1⟩ 0), [], []) (a, days, paid) ∧
        paid.length = 1 ∧ ∀ x ∈ paid, x.MeetsPolicy := by
  have hrun :
      (do
        let _ ← acceptedQuote (profitableAccount (.default ⟨1⟩ 0)) 1 ""
        let _ ← (Pipeline.ofPlan (.default ⟨1⟩ 0)).process (.at 1) (profitableAccount (.default ⟨1⟩ 0))
          .payoutApprove
        pure ()) = .ok () := by
    decide +kernel
  obtain ⟨quote, hq, hrun⟩ := bind_eq_ok.mp hrun
  obtain ⟨r, h, -⟩ := bind_eq_ok.mp hrun
  obtain ⟨pass⟩ := Pipeline.process_passage h
  have hidle : (profitableAccount (.default ⟨1⟩ 0)).PolicyIdle := by
    refine ⟨fun config qualifying hconfig hdays => ?_, .inl rfl⟩
    cases hconfig
    cases hdays
  have hstep : PolicyStep (profitableAccount (.default ⟨1⟩ 0), [], []) _ :=
    .approve pass.toEvaluated h hq hidle
  exact ⟨_, _, _, .single hstep, rfl, payout_policy_met (.single hstep)⟩

/-- A plan that asks for five days of at least 150 and refunds no fee. -/
def strictPlan : ChallengePlan :=
  { ChallengePlan.default ⟨1⟩ 0 with
    refundable := false
    refundFeeAmount := 50
    payoutConfig := some { PayoutConfig.default with qualifyingDays := some ⟨5, 150⟩ } }

/-- On its first day, the account is paid and the fee refunded. -/
theorem payout_policy_ignored :
    strictPlan.refundable = false ∧
    (do
      let quote ← acceptedQuote (profitableAccount strictPlan) 1 ""
      let r ← (Pipeline.ofPlan strictPlan).process (.at 1) (profitableAccount strictPlan) .payoutApprove
      pure (quote.feeRefund, r.account.payoutCount, r.account.tradingDayIndex)) = .ok (50, 1, 0) := by
  decide +kernel

end Propfirm
