import Propfirm.Engine.Theorems.Ledger
import Propfirm.Engine.Theorems.OpenPositions
import Propfirm.Payout.Lemmas

/-!
# Estimates and exits

An account is valued in two ways: an estimated tick marks what is open to a quote, and exits realize what they
report.
-/

namespace Propfirm

open Fallible

variable {p : Pipeline} {env : Env} {a b d : Account} {ev : PipelineEvent} {r : PipelineResult} {tick : Tick}
  {calls exits : List Processed}

/-! ## Exits -/

theorem PipelineEvent.balanceAfter_eq_net {balance : Money} (h : ev.brokerBalance = none) :
    ev.balanceAfter balance = balance + ev.ofFill Trade.netPnl := by
  cases ev with
  | tick => cases h
  | tradeFilled => rfl
  | _ => exact (add_zero balance).symm

theorem Run.balance_of_fills (h : Run a calls b)
    (hmoney : ∀ c ∈ calls, c.ev.brokerBalance = none ∧ c.ev ≠ .payoutApprove) :
    b.balance = a.balance + (calls.map Processed.net).sum := by
  induction h with
  | nil => simp
  | cons c _ ih =>
      rw [List.forall_mem_cons] at hmoney
      obtain ⟨s⟩ := c.passage
      have hstep : c.after.balance = c.before.balance + c.net :=
        (s.account_balance hmoney.1.2).trans (PipelineEvent.balanceAfter_eq_net hmoney.1.1)
      rw [hstep, ih hmoney.2, List.map_cons, List.sum_cons, add_assoc, add_comm c.net]

/-- A fill that is booked under no identifier is refused. -/
theorem Processed.net_of_slot (c : Processed) (h : c.slot = none) : c.net = 0 := by
  obtain ⟨p, env, a, ev, r, hprocess⟩ := c
  cases ev with
  | tradeFilled trade =>
      obtain ⟨s⟩ := Pipeline.process_passage hprocess
      obtain ⟨position, hposition, -⟩ := s.tradeFill_eq
      have hslot : trade.slot env.positionId = none := h
      rw [(fillPosition_slot hposition).1] at hslot
      cases hslot
  | _ => rfl

/-! ## Estimates -/

theorem Passage.estimated (s : Passage p env a (.tickEstimated tick) r) :
    r.account.estimatedEquity = equityAfterTick a.balance a.openPositions tick.quote := by
  obtain ⟨trades, heffect⟩ := applyEvent_effect s.apply_eq
  have hrouted : (s.routed.balance, s.routed.openPositions) = (a.balance, a.openPositions) :=
    s.routed_reading (fun x => (x.balance, x.openPositions)) fun _ => rfl
  obtain ⟨hbalance, hpositions⟩ := Prod.mk.inj hrouted
  rw [s.applied_reading Account.estimatedEquity (fun _ _ _ _ _ _ => rfl) (fun _ _ => rfl) fun _ _ _ _ => rfl,
    ← hbalance, ← hpositions]
  generalize s.applied.events = evs at heffect
  generalize s.applied.account = after at heffect
  cases heffect with
  | tickEstimated hequity => exact hequity

theorem Processed.estimated (c : Processed) (hev : c.ev = .tickEstimated tick) :
    c.after.estimatedEquity = equityAfterTick c.after.balance c.after.openPositions tick.quote := by
  obtain ⟨p, env, a, ev, r, hprocess⟩ := c
  obtain rfl : ev = .tickEstimated tick := hev
  obtain ⟨s⟩ := Pipeline.process_passage hprocess
  have hbalance : r.account.balance = a.balance := s.account_balance fun h => by cases h
  have hpositions : r.account.openPositions = a.openPositions := s.openPositions_eq fun _ h => by cases h
  change r.account.estimatedEquity = equityAfterTick r.account.balance r.account.openPositions tick.quote
  rw [hbalance, hpositions]
  exact s.estimated

/-- The estimate is what closing everything would leave: once every open position was exited for what the quote
of the estimate makes of it, in any order and among any other events that carry no money, the balance is the
estimated equity. -/
theorem estimate_is_exit_value {c : Processed} (h : Run a (c :: calls) b) (ha : a.openPositions = [])
    (hev : c.ev = .tickEstimated tick) (hexits : Run b exits d)
    (honce : (exits.filterMap Processed.slot).Perm (b.openPositions.map Position.id))
    (hopens : ∀ e ∈ exits, e.entry = none)
    (hmoney : ∀ e ∈ exits, e.ev.brokerBalance = none ∧ e.ev ≠ .payoutApprove)
    (hvalue : ∀ e ∈ exits, ∀ x ∈ b.openPositions, e.slot = some x.id → e.net = x.unrealizedPnl tick.quote) :
    d.openPositions = [] ∧ d.balance = b.estimatedEquity := by
  have hopen := openPositions_isOpen h ha
  have hestimated : b.estimatedEquity = equityAfterTick b.balance b.openPositions tick.quote := by
    cases h with
    | cons _ _ => exact c.estimated hev
  constructor
  · refine Processed.slots.empties hexits (fun x hx => ?_) hopens
    exact List.mem_filterMap.mp (honce.symm.subset (List.mem_map_of_mem hx))
  · have hsum : (exits.map Processed.net).sum = (b.openPositions.map (·.unrealizedPnl tick.quote)).sum :=
      sum_of_settled honce hvalue fun e _ => e.net_of_slot
    rw [Run.balance_of_fills hexits hmoney, hestimated, equityAfterTick, List.filter_eq_self.mpr hopen, hsum]

/-- Two lots bought at 1 are worth 10010 at a bid of 6, and closing them there leaves that. -/
theorem estimate_is_exit_value_of_entry :
    ∃ a b d calls exits, Run a calls b ∧ Run b exits d ∧ b.openPositions.map Position.id = [⟨1⟩] ∧
      b.estimatedEquity = 10010 ∧ d.openPositions = [] ∧ d.balance = 10010 := by
  have hrun :
      (do
        let p := Pipeline.ofPlan (.default ⟨1⟩ 0)
        let a ← (Account.new ⟨1⟩ ⟨1⟩ (.default ⟨1⟩ 0)).start 0
        let r₁ ← p.process ((Env.at 1).drawing 1) a (.tradeFilled (openingFill .buy .entry 2 1))
        let r₂ ← p.process (.at 2) r₁.account (.tickEstimated ⟨⟨"EURUSD"⟩, ⟨6, 6, 2⟩⟩)
        let _ ← p.process (.at 3) r₂.account (.tradeFilled (closingFill 10 3))
        pure (a.openPositions,
          r₂.account.openPositions.map fun x : Position => (x.id, x.unrealizedPnl ⟨6, 6, 2⟩),
          r₂.account.estimatedEquity)) = .ok ([], [(⟨1⟩, 10)], 10010) := by
    decide +kernel
  obtain ⟨a, -, hrun⟩ := bind_eq_ok.mp hrun
  obtain ⟨r₁, h₁, hrun⟩ := bind_eq_ok.mp hrun
  obtain ⟨r₂, h₂, hrun⟩ := bind_eq_ok.mp hrun
  obtain ⟨r₃, h₃, hrun⟩ := bind_eq_ok.mp hrun
  obtain ⟨hempty, hfacts⟩ := Prod.mk.inj (pure_eq_ok.mp hrun)
  obtain ⟨hpositions, hestimated⟩ := Prod.mk.inj hfacts
  have hids : r₂.account.openPositions.map Position.id = [⟨1⟩] := by
    simpa using congrArg (List.map Prod.fst) hpositions
  have hbefore : Run a [.of h₂, .of h₁] r₂.account := .cons (Processed.of h₂) (.cons (Processed.of h₁) .nil)
  have hafter : Run r₂.account [.of h₃] r₃.account := .cons (Processed.of h₃) .nil
  have hnet : (Processed.of h₃).net = 10 := by
    change (closingFill 10 3).netPnl = 10
    decide +kernel
  have hvalue : ∀ e ∈ [Processed.of h₃], ∀ x ∈ r₂.account.openPositions, e.slot = some x.id →
      e.net = x.unrealizedPnl ⟨6, 6, 2⟩ := by
    rw [List.forall_mem_singleton]
    intro x hx _
    have hmem : (x.id, x.unrealizedPnl ⟨6, 6, 2⟩) ∈ [((⟨1⟩ : PositionId), (10 : Money))] := by
      rw [← hpositions]
      exact List.mem_map_of_mem hx
    rw [hnet, (Prod.mk.inj (List.mem_singleton.mp hmem)).2]
  have hmoney : ∀ e ∈ [Processed.of h₃], e.ev.brokerBalance = none ∧ e.ev ≠ .payoutApprove := by
    rw [List.forall_mem_singleton]
    exact ⟨rfl, fun h => by cases h⟩
  have hopens : ∀ e ∈ [Processed.of h₃], e.entry = none := by
    rw [List.forall_mem_singleton]
    rfl
  have hsettled := estimate_is_exit_value hbefore hempty rfl hafter (by rw [hids]; rfl) hopens hmoney hvalue
  exact ⟨a, r₂.account, r₃.account, _, _, hbefore, hafter, hids, hestimated, hsettled.1,
    hsettled.2.trans hestimated⟩

end Propfirm
