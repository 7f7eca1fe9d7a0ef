import Propfirm.Core.Account

/-!
# Payouts
-/

namespace Propfirm

inductive PayoutError where
  | belowMinimum (minimum : Money)
  | cycleNotReached (nextAllowedAt : Timestamp)
  | noProfit
deriving DecidableEq

def PayoutError.debug : PayoutError → Text
  | .belowMinimum minimum => [.lit "BelowMinimum(minimum = ", .dec minimum, .lit ")"]
  | .cycleNotReached next => [.lit "CycleNotReached(next_allowed_at = ", .time next, .lit ")"]
  | .noProfit => [.lit "NoProfit"]

structure PayoutQuote where
  profitBasis : Money
  traderShare : Decimal
  feeRefund : Money
  amount : Money
  rejected : Option PayoutError
deriving DecidableEq

/-- What a payout at `now` would pay, and why it is refused if it is. -/
def quotePayout (a : Account) (config : PayoutConfig) (lastPayoutAt : Option Timestamp)
    (balanceAtLastPayout : Option Money) (refundUsed : Bool) (now : Timestamp) : PayoutQuote :=
  let reference := balanceAtLastPayout.getD a.initialBalance
  let profitBasis := max (a.balance - reference) 0
  let traderShare := config.traderShareFor a.payoutCount
  let feeRefund := if a.payoutCount = 0 ∧ ¬refundUsed then a.plan.refundFeeAmount else 0
  let amount := profitBasis * traderShare + feeRefund
  let rejected :=
    if profitBasis ≤ 0 then some .noProfit
    else if amount < config.minimumPayout then some (.belowMinimum config.minimumPayout)
    else
      match config.cycle.minGap, lastPayoutAt with
      | some gap, some last => if now < last + gap then some (.cycleNotReached (last + gap)) else none
      | _, _ => none
  { profitBasis, traderShare, feeRefund, amount, rejected }

/-- Books a payout; a pending one returns the account to funded. -/
def recordPayout (a : Account) (amount feeRefund : Money) (paidAt : Timestamp) : Outcome Account :=
  if a.status = .funded ∨ a.status = .payoutPending then
    .ok
      { a with
        payoutCount := a.payoutCount + 1
        balanceAtLastPayout := a.balance
        lastPayoutAt := some paidAt
        balance := a.balance - amount + feeRefund
        status := if a.status = .payoutPending then .funded else a.status }
  else
    raise (.invalidState
      [.lit "payouts are only available to funded accounts (status = ", .lit a.status.debug,
        .lit ")"])

end Propfirm
