import Propfirm.Engine.Lemmas.Status
import Mathlib.Tactic.Ring

/-!
# What events do to the balance and to the payout book
-/

namespace Propfirm

open Fallible

variable {p : Pipeline} {env : Env} {a b : Account} {ev : PipelineEvent} {r : PipelineResult}
  {now : Timestamp} {label : String} {quote : PayoutQuote}

/-! ## Quotes -/

/-- A quote for the account that is not refused. -/
structure Accepted (a : Account) (now : Timestamp) (config : PayoutConfig) (quote : PayoutQuote) :
    Prop where
  config_eq : a.plan.payoutConfig = some config
  basis_eq : quote.profitBasis = a.balance - a.balanceAtLastPayout
  basis_pos : 0 < quote.profitBasis
  share_eq : quote.traderShare = config.traderShareFor a.payoutCount
  refund_eq : quote.feeRefund =
    if a.payoutCount = 0 ∧ ¬a.refundUsed = true then a.plan.refundFeeAmount else 0
  amount_eq : quote.amount = quote.profitBasis * quote.traderShare + quote.feeRefund
  minimum_le : config.minimumPayout ≤ quote.amount
  gap_le : ∀ gap last, config.cycle.minGap = some gap → a.lastPayoutAt = some last → last + gap ≤ now

theorem acceptedQuote_ok :
    acceptedQuote a now label = .ok quote ↔
      ∃ config, a.plan.payoutConfig = some config ∧
        quotePayout a config a.lastPayoutAt (some a.balanceAtLastPayout) a.refundUsed now = quote ∧
        quote.rejected = none := by
  unfold acceptedQuote
  cases a.plan.payoutConfig with
  | none => simp [raise]
  | some config =>
      simp only [Option.some.injEq, exists_eq_left']
      split
      · rename_i rejected hrejected
        simp only [raise, reduceCtorEq, false_iff, not_and]
        rintro rfl
        simp [hrejected]
      · rename_i hrejected
        rw [Except.ok.injEq]
        exact ⟨fun h => ⟨h, h ▸ hrejected⟩, fun h => h.1⟩

theorem acceptedQuote_accepted (h : acceptedQuote a now label = .ok quote) :
    ∃ config, Accepted a now config quote := by
  obtain ⟨config, hconfig, hquote, hrejected⟩ := acceptedQuote_ok.mp h
  have hnot {e : PayoutError} : quote.rejected ≠ some e := by
    rw [hrejected]
    exact (Option.some_ne_none e).symm
  have hbasis : quote.profitBasis = max (a.balance - a.balanceAtLastPayout) 0 := by rw [← hquote]; rfl
  -- none of the three grounds for a refusal, in the order of the code
  have hpos : 0 < quote.profitBasis := by
    by_contra hle
    subst hquote
    exact hnot (if_pos (not_lt.mp hle))
  have hminimum : config.minimumPayout ≤ quote.amount := by
    by_contra hlt
    subst hquote
    exact hnot ((if_neg (not_le.mpr hpos)).trans (if_pos (not_le.mp hlt)))
  have hgap : ∀ gap last, config.cycle.minGap = some gap → a.lastPayoutAt = some last →
      last + gap ≤ now := by
    intro gap last hgap hlast
    by_contra hlt
    subst hquote
    refine hnot (e := .cycleNotReached (last + gap))
      ((if_neg (not_le.mpr hpos)).trans ((if_neg (not_lt.mpr hminimum)).trans ?_))
    rw [hgap, hlast]
    exact if_pos (not_le.mp hlt)
  refine ⟨config, ⟨hconfig, ?_, hpos, ?_, ?_, ?_, hminimum, hgap⟩⟩
  · rw [hbasis, lt_max_iff] at hpos
    rw [hbasis, max_eq_left (hpos.resolve_right (lt_irrefl 0)).le]
  · rw [← hquote]; rfl
  · rw [← hquote]; rfl
  · rw [← hquote]; rfl

/-! ## The balance -/

/-- The balance an event leaves, a payout apart. -/
def PipelineEvent.balanceAfter (balance : Money) : PipelineEvent → Money
  | .tradeFilled trade => balance + trade.netPnl
  | .tick _ _ brokerBalance => brokerBalance
  | _ => balance

theorem Effect.balance {evs} (h : Effect env a ev b evs) (hev : ev ≠ .payoutApprove) :
    b.balance = ev.balanceAfter a.balance := by
  by_cases hquiet : ev.isQuiet = true
  · have hkept : ev.balanceAfter a.balance = a.balance := by
      cases ev <;> first | rfl | cases hquiet
    exact (h.transition.quiet_reading hquiet Account.balance fun _ => rfl).trans hkept.symm
  cases h with
  | tradeFilled h =>
      have hmark (x : Account) : x.markActiveTradingDay.balance = x.balance :=
        eq_of_outsideDays markActiveTradingDay_outsideDays Account.balance fun _ => rfl
      rw [hmark, PipelineEvent.balanceAfter, ← h]
      rfl
  | tick h => rfl
  | tickEstimated h => rfl
  | dayRollover h => exact eq_of_outsideDays (rolloverDay_outsideDays h) Account.balance fun _ => rfl
  | payoutApprove hq h => exact absurd rfl hev
  | _ => exact absurd rfl hquiet

/-! ## The book -/

/-- What payouts read and write, apart from the balance and the status. -/
structure PayoutBook where
  /-- The plan, whatever its phase. -/
  terms : ChallengePlan
  payoutCount : ℕ
  balanceAtLastPayout : Money
  lastPayoutAt : Option Timestamp
  refundUsed : Bool

def Account.payoutBook (a : Account) : PayoutBook where
  terms := a.plan.withPhase .phase1
  payoutCount := a.payoutCount
  balanceAtLastPayout := a.balanceAtLastPayout
  lastPayoutAt := a.lastPayoutAt
  refundUsed := a.refundUsed

/-- Only an approval writes the book. -/
theorem Effect.payoutBook {evs} (h : Effect env a ev b evs) (hev : ev ≠ .payoutApprove) :
    b.payoutBook = a.payoutBook := by
  by_cases hquiet : ev.isQuiet = true
  · exact h.transition.quiet_reading hquiet Account.payoutBook fun _ => rfl
  cases h with
  | tradeFilled h =>
      exact eq_of_outsideDays markActiveTradingDay_outsideDays Account.payoutBook fun _ => rfl
  | tick h => rfl
  | tickEstimated h => rfl
  | dayRollover h => exact eq_of_outsideDays (rolloverDay_outsideDays h) Account.payoutBook fun _ => rfl
  | payoutApprove hq h => exact absurd rfl hev
  | _ => exact absurd rfl hquiet

/-- An approval pays the quote of the account it finds. -/
theorem Effect.approved {evs} (h : Effect env a .payoutApprove b evs)
    (hq : acceptedQuote a env.branchNow label = .ok quote) :
    b.balance = a.balance - quote.amount + quote.feeRefund ∧
      b.payoutBook =
        { a.payoutBook with
          payoutCount := a.payoutBook.payoutCount + 1
          balanceAtLastPayout := a.balance
          lastPayoutAt := some env.branchNow
          refundUsed := a.payoutBook.refundUsed || decide (0 < quote.feeRefund) } := by
  cases h with
  | payoutApprove hq' h =>
      obtain ⟨config, hconfig, rfl, -⟩ := acceptedQuote_ok.mp hq
      obtain ⟨config', hconfig', rfl, -⟩ := acceptedQuote_ok.mp hq'
      obtain rfl := Option.some.inj (hconfig.symm.trans hconfig')
      obtain ⟨-, rfl⟩ := recordPayout_eq h
      exact ⟨rfl, rfl⟩

/-! ## Calls -/

/-- What payouts read is the same before and after the day is caught up. -/
theorem route_payout {evs} (h : route env a ev = .ok (b, evs)) (trades : List Trade) :
    ({ b with todayTrades := trades }.balance, { b with todayTrades := trades }.payoutBook,
        acceptedQuote { b with todayTrades := trades }) =
      (a.balance, a.payoutBook, acceptedQuote a) :=
  eq_of_outsideDays (route_outsideDays h) (fun x => (x.balance, x.payoutBook, acceptedQuote x))
    fun _ => rfl

namespace Passage

theorem account_balance_eq (s : Passage p env a ev r) : r.account.balance = s.applied.account.balance :=
  s.applied_reading Account.balance (fun _ _ _ _ _ _ => rfl) (fun _ _ => rfl) fun _ _ _ _ => rfl

theorem account_payoutBook_eq (s : Passage p env a ev r) :
    r.account.payoutBook = s.applied.account.payoutBook :=
  s.applied_reading Account.payoutBook (fun _ _ _ _ _ _ => rfl) (fun _ _ => rfl) fun _ _ _ _ => rfl

theorem account_balance (s : Passage p env a ev r) (hev : ev ≠ .payoutApprove) :
    r.account.balance = ev.balanceAfter a.balance := by
  obtain ⟨trades, heffect⟩ := applyEvent_effect s.apply_eq
  rw [s.account_balance_eq, heffect.balance hev, (Prod.mk.inj (route_payout s.route_eq trades)).1]

theorem account_payoutBook (s : Passage p env a ev r) (hev : ev ≠ .payoutApprove) :
    r.account.payoutBook = a.payoutBook := by
  obtain ⟨trades, heffect⟩ := applyEvent_effect s.apply_eq
  obtain ⟨-, hread⟩ := Prod.mk.inj (route_payout s.route_eq trades)
  rw [s.account_payoutBook_eq, heffect.payoutBook hev, (Prod.mk.inj hread).1]

theorem approved (s : Passage p env a .payoutApprove r)
    (hq : acceptedQuote a env.branchNow label = .ok quote) :
    r.account.balance = a.balance - quote.amount + quote.feeRefund ∧
      r.account.payoutBook =
        { a.payoutBook with
          payoutCount := a.payoutBook.payoutCount + 1
          balanceAtLastPayout := a.balance
          lastPayoutAt := some env.branchNow
          refundUsed := a.payoutBook.refundUsed || decide (0 < quote.feeRefund) } := by
  obtain ⟨trades, heffect⟩ := applyEvent_effect s.apply_eq
  obtain ⟨hbalance, hread⟩ := Prod.mk.inj (route_payout s.route_eq trades)
  obtain ⟨hbook, hquote⟩ := Prod.mk.inj hread
  rw [← hquote] at hq
  rw [s.account_balance_eq, s.account_payoutBook_eq, ← hbalance, ← hbook]
  exact heffect.approved hq

end Passage

end Propfirm
