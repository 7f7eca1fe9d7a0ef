import Propfirm.Api.Lemmas.Evaluate
import Propfirm.Engine.Lemmas.Aside
import Propfirm.Pure.Lemmas.Agreement

/-!
# One decision on two paths

The endpoint and the pipeline share the rules and `applyDecision`, and feed them accounts that differ
only in figures a decision leaves alone.
-/

namespace Propfirm

open Fallible

variable {a : Account} {d d' : Decision} {t : Timestamp} {actorId actorId' : String}

/-! ## What a decision leaves alone -/

/-- The account with another intraday peak, other trades of the day and another last tick. -/
def Account.withTape (a : Account) (peak : Money) (trades : List Trade) (last : Option Timestamp) :
    Account :=
  { a with intradayPeakEquity := peak, todayTrades := trades, lastTickTs := last }

theorem Account.withTape_eq (peak : Money) (trades : List Trade) (last : Option Timestamp) :
    a.withTape peak trades last =
      a.setAside
        { a.aside with intradayPeakEquity := peak, todayTrades := trades, lastTickTs := last } :=
  rfl

/-- A decision neither reads nor writes the intraday peak, the trades and the last tick. -/
theorem applyDecision_withTape (peak : Money) (trades : List Trade) (last : Option Timestamp) :
    applyDecision (a.withTape peak trades last) d t actorId =
      (applyDecision a d t actorId).map fun x => (x.1.withTape peak trades last, x.2) := by
  rw [Account.withTape_eq, applyDecision_setAside]
  cases h : applyDecision a d t actorId with
  | error f => rfl
  | ok x =>
      have haside : x.1.aside = a.aside := applyDecision_aside h
      simp only [Except.map, Account.withTape_eq, haside]

theorem applyDecision_tape {b : Account} {evs : List DomainEvent}
    (h : applyDecision a d t actorId = .ok (b, evs)) :
    b.intradayPeakEquity = a.intradayPeakEquity ∧ b.lastTickTs = a.lastTickTs := by
  have haside := applyDecision_aside h
  exact ⟨congrArg Aside.intradayPeakEquity haside, congrArg Aside.lastTickTs haside⟩

/-- What becomes of the account depends on the kind of the decision alone. -/
theorem applyDecision_congr (h : d.kind = d'.kind) :
    (applyDecision a d t actorId).map Prod.fst = (applyDecision a d' t actorId').map Prod.fst := by
  have htarget : d.accountStatusTarget = d'.accountStatusTarget := by
    simp only [Decision.accountStatusTarget, h]
  simp only [applyDecision, applyTargetHit, h]
  generalize (if d'.kind = .targetHit then _ else _ : Account × List DomainEvent) = marked
  simp only [bind, Except.bind]
  cases applyPromotion marked.1 t with
  | error f => rfl
  | ok x =>
      simp only [applyTermination, htarget]
      cases d'.accountStatusTarget <;> rfl

end Propfirm
