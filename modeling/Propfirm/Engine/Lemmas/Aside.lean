import Propfirm.Engine.Lemmas.Passage

/-!
# What a decision leaves aside
-/

namespace Propfirm

open Fallible

variable {a b : Account} {d : Decision} {t : Timestamp} {actorId : String} {evs : List DomainEvent}

/-- The part of an account that no decision reads or writes. -/
structure Aside where
  estimatedEquity : Money
  estimatedBalance : Money
  intradayPeakEquity : Money
  lastTickTs : Option Timestamp
  todayTrades : List Trade

namespace Account

def aside (a : Account) : Aside where
  estimatedEquity := a.estimatedEquity
  estimatedBalance := a.estimatedBalance
  intradayPeakEquity := a.intradayPeakEquity
  lastTickTs := a.lastTickTs
  todayTrades := a.todayTrades

def setAside (a : Account) (x : Aside) : Account :=
  { a with
    estimatedEquity := x.estimatedEquity
    estimatedBalance := x.estimatedBalance
    intradayPeakEquity := x.intradayPeakEquity
    lastTickTs := x.lastTickTs
    todayTrades := x.todayTrades }

end Account

section

variable (x : Aside)

theorem applyTargetHit_setAside :
    applyTargetHit (a.setAside x) d t = ((applyTargetHit a d t).1.setAside x, (applyTargetHit a d t).2) := by
  unfold applyTargetHit Account.markTargetReached
  repeat' split
  all_goals first | rfl | simp_all [Account.setAside]

theorem applyPromotion_setAside :
    applyPromotion (a.setAside x) t = (applyPromotion a t).map fun y => (y.1.setAside x, y.2) := by
  cases hp : a.promotable with
  | false =>
      have hp' : (a.setAside x).promotable = false := hp
      simp only [applyPromotion, hp, hp', Bool.false_eq_true, if_false]
      rfl
  | true =>
      have hp' : (a.setAside x).promotable = true := hp
      simp only [applyPromotion, hp, hp', if_true, upgradeOrFail, Account.upgradePhase]
      simp only [Account.setAside]
      cases a.plan.phase <;> rfl

theorem applyTermination_setAside :
    applyTermination (a.setAside x) d t actorId =
      ((applyTermination a d t actorId).1.setAside x, (applyTermination a d t actorId).2) := by
  unfold applyTermination
  cases d.accountStatusTarget <;> rfl

theorem applyDecision_setAside :
    applyDecision (a.setAside x) d t actorId =
      (applyDecision a d t actorId).map fun y => (y.1.setAside x, y.2) := by
  simp only [applyDecision, applyTargetHit_setAside, applyPromotion_setAside]
  cases applyPromotion (applyTargetHit a d t).1 t with
  | error f => rfl
  | ok y =>
      simp only [Except.map, bind, Except.bind, applyTermination_setAside]
      rfl

end

theorem applyDecision_aside (h : applyDecision a d t actorId = .ok (b, evs)) : b.aside = a.aside := by
  have hsame : applyDecision a d t actorId =
      (applyDecision a d t actorId).map fun y => (y.1.setAside a.aside, y.2) :=
    applyDecision_setAside a.aside
  rw [h] at hsame
  have hb : b = b.setAside a.aside := congrArg Prod.fst (Except.ok.inj hsame)
  rw [hb]
  rfl

end Propfirm
