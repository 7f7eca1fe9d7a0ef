import Propfirm.Engine.Theorems.Faults
import Propfirm.Engine.Theorems.Floors
import Propfirm.Engine.Theorems.Volume
import Propfirm.Rules.Lemmas.Registry

/-!
# Caps on the open volume and the number of positions

Both caps are checked when an order is submitted, against the book of that moment. Between the order
and its fill the book only shrinks, so the room that the order found is still there.
-/

namespace Propfirm

open Fallible

variable {p : Pipeline} {env : Env} {a b : Account} {ev : PipelineEvent} {r : PipelineResult}
  {trade : Trade} {order : Order} {calls earlier : List Processed} {c : Processed}

/-! ## Caps -/

/-- The open volume; every instrument the pipeline knows has lots of one unit. -/
def Account.openLots (a : Account) : Lots := Book.volume a.book

structure Account.WithinCaps (a : Account) : Prop where
  lots_le : ∀ maxLots, a.plan.maxTotalLots = some maxLots → a.openLots ≤ maxLots
  count_le : ∀ maxCount, a.plan.maxOpenPositions = some maxCount → a.book.length ≤ maxCount

/-- There is room for one more position of this quantity. -/
structure Account.HasRoom (a : Account) (quantity : Quantity) : Prop where
  lots_le : ∀ maxLots, a.plan.maxTotalLots = some maxLots → a.openLots + quantity ≤ maxLots
  count_lt : ∀ maxCount, a.plan.maxOpenPositions = some maxCount → a.book.length < maxCount

/-- The event fills an entry or a reversal. -/
def PipelineEvent.opens : PipelineEvent → Bool
  | .tradeFilled trade => decide (trade.tradeSide ≠ .exit)
  | _ => false

/-- The call accepted an order for the fill. -/
def Processed.Clears (c : Processed) (trade : Trade) : Prop :=
  ∃ order, c.ev = .orderSubmitted order ∧ (order.kind = .open ∨ order.kind = .reverse) ∧
    order.symbol = trade.symbol ∧ order.quantity = trade.quantity ∧
    c.result.result.decision.isTerminating = false

/-- The latest of these calls that opens a position, or accepts an order for the fill, accepts one. -/
def Clearing (earlier : List Processed) (trade : Trade) : Prop :=
  ∃ between order rest, earlier = between ++ order :: rest ∧ order.Clears trade ∧
    ∀ c ∈ between, c.ev.opens = false

/-- Every fill of positive quantity on these sides has an order that was accepted for it. -/
def Cleared (sides : TradeSide → Prop) : List Processed → Prop
  | [] => True
  | c :: earlier =>
      (∀ trade, c.ev = .tradeFilled trade → sides trade.tradeSide → 0 < trade.quantity →
        Clearing earlier trade) ∧ Cleared sides earlier

/-! ## What calls leave alone -/

theorem Processed.maxTotalLots_eq (c : Processed) :
    c.after.plan.maxTotalLots = c.before.plan.maxTotalLots :=
  congrArg (fun terms => terms.2.maxTotalLots) c.after_terms

theorem Processed.maxOpenPositions_eq (c : Processed) :
    c.after.plan.maxOpenPositions = c.before.plan.maxOpenPositions :=
  congrArg (fun terms => terms.2.maxOpenPositions) c.after_terms

/-- A call that opens nothing at most drops positions. -/
theorem Processed.book_sublist (c : Processed)
    (h : ∀ trade, c.ev = .tradeFilled trade → trade.tradeSide ≠ .exit → ¬0 < trade.quantity) :
    c.after.book.Sublist c.before.book := by
  obtain ⟨p, env, a, ev, r, hprocess⟩ := c
  obtain ⟨s⟩ := Pipeline.process_passage hprocess
  cases ev with
  | tradeFilled trade =>
      by_cases hside : trade.tradeSide = .exit
      · obtain ⟨info, -, hbook⟩ := s.book_exit hside
        change r.account.book.Sublist a.book
        rw [hbook]
        exact List.filter_sublist
      · change r.account.book.Sublist a.book
        rw [s.book_opened hside, opened_of_not_pos (h trade rfl hside), List.append_nil]
        exact List.filter_sublist
  | _ =>
      change r.account.book.Sublist a.book
      rw [Account.book, s.openPositions_eq (by simp)]
      exact .refl _

theorem openLots_le (h : b.book.Sublist a.book) : b.openLots ≤ a.openLots :=
  Book.volume_le_of_sublist h fun _ hx => (book_pos hx).le

theorem Processed.withinCaps (c : Processed)
    (hopens : ∀ trade, c.ev = .tradeFilled trade → trade.tradeSide ≠ .exit → ¬0 < trade.quantity)
    (h : c.before.WithinCaps) : c.after.WithinCaps := by
  have hsub := c.book_sublist hopens
  constructor
  · intro maxLots hmax
    rw [c.maxTotalLots_eq] at hmax
    exact (openLots_le hsub).trans (h.lots_le maxLots hmax)
  · intro maxCount hmax
    rw [c.maxOpenPositions_eq] at hmax
    exact hsub.length_le.trans (h.count_le maxCount hmax)

theorem Processed.hasRoom (c : Processed) {quantity : Quantity} (hopens : c.ev.opens = false)
    (h : c.before.HasRoom quantity) : c.after.HasRoom quantity := by
  have hsub : c.after.book.Sublist c.before.book := by
    refine c.book_sublist fun trade hev hside => ?_
    rw [hev] at hopens
    exact absurd hside (of_decide_eq_false hopens)
  constructor
  · intro maxLots hmax
    rw [c.maxTotalLots_eq] at hmax
    exact (add_le_add_left (openLots_le hsub) quantity).trans (h.lots_le maxLots hmax)
  · intro maxCount hmax
    rw [c.maxOpenPositions_eq] at hmax
    exact hsub.length_le.trans_lt (h.count_lt maxCount hmax)

/-- A fill takes no more than the room for one position. -/
theorem Processed.withinCaps_of_hasRoom (c : Processed) (hev : c.ev = .tradeFilled trade)
    (hside : trade.tradeSide ≠ .exit) (hpos : 0 < trade.quantity) (h : c.before.HasRoom trade.quantity) :
    c.after.WithinCaps := by
  have hcaps := c.maxTotalLots_eq
  have hcounts := c.maxOpenPositions_eq
  obtain ⟨p, env, a, ev, r, hprocess⟩ := c
  obtain rfl : ev = .tradeFilled trade := hev
  obtain ⟨s⟩ := Pipeline.process_passage hprocess
  have hbook : r.account.book = Book.without env.positionId a.book ++
      [⟨env.positionId, trade.symbol, .fromOrder trade.side, trade.quantity⟩] := by
    rw [s.book_opened hside, opened_of_pos hpos]
  have hsub : (Book.without env.positionId a.book).Sublist a.book := List.filter_sublist
  constructor
  · intro maxLots hmax
    have hlots : r.account.openLots ≤ a.openLots + trade.quantity := by
      rw [Account.openLots, hbook, Book.volume_append]
      refine add_le_add (Book.volume_le_of_sublist hsub fun _ hx => (book_pos hx).le) ?_
      simp [Book.volume]
    exact hlots.trans (h.lots_le maxLots (hcaps.symm.trans hmax))
  · intro maxCount hmax
    have hlength : r.account.book.length ≤ a.book.length + 1 := by
      rw [hbook, List.length_append]
      exact Nat.add_le_add_right hsub.length_le 1
    exact hlength.trans (h.count_lt maxCount (hcounts.symm.trans hmax))

/-! ## Orders -/

theorem Evaluated.ctx_openPositions (s : Evaluated env a ev) : s.ctx.openPositions = a.openPositions := by
  have hrouted : s.routed.openPositions = a.openPositions :=
    s.routed_reading Account.openPositions fun _ => rfl
  obtain ⟨dayStart, -, hbranch⟩ := bind_eq_ok.mp s.apply_eq
  rw [ctx, buildContext_openPositions, (applyBranch_lists hbranch).1]
  exact hrouted

theorem unitsToLots_new (symbol : Symbol) (units : Quantity) :
    (InstrumentRegistry.new.get symbol).unitsToLots units = .ok units := by
  change Decimal.div units 1 = .ok units
  simp [Decimal.div]

theorem MaxTotalLotsRule.openLots_new (acc : Lots) (xs : List Position) :
    openLots .new acc xs = .ok (acc + (xs.map Position.openQuantity).sum) := by
  induction xs generalizing acc with
  | nil => simp [openLots]
  | cons x xs ih =>
      simp only [openLots, unitsToLots_new, bind, Except.bind, ih, List.map_cons, List.sum_cons, add_assoc]

theorem openLots_eq :
    a.openLots = ((a.openPositions.filter Position.isOpen).map Position.openQuantity).sum := by
  rw [Account.openLots, Book.volume, Account.book, List.map_map]
  rfl

/-- A rule of a registry that runs and calls for the end of the account gets it. -/
theorem Evaluated.isTerminating_of_judge (s : Evaluated env a ev) {rule : StdRule} {v : Verdict Finding}
    (hmem : rule.toRule ∈ p.registry.rules) (hruns : rule.toRule.runsIn s.ctx = true)
    (hv : rule.judge s.ctx = .ok v) (hkind : v.decisionKind.Terminates) :
    (s.decision p).isTerminating = true := by
  have hbreaches : rule.toRule.Breaches s.ctx := StdRule.breaches_iff.mpr ⟨v, hv, hkind⟩
  have hreport : rule.toRule.report s.ctx env.reportNow ∈ s.reports p :=
    RuleRegistry.mem_evaluate.mpr ⟨rule.toRule, hmem, hruns, rfl⟩
  exact (Decision.isTerminating_iff _).mpr ⟨_, hreport, Rule.verdict_terminates.mpr (.inl hbreaches)⟩

/-- An order that exceeds the cap on lots ends the account. -/
theorem Evaluated.lots_le_of_order (s : Evaluated env a (.orderSubmitted order))
    (hregistry : p.registry.IsDefault) (hpass : (s.decision p).isTerminating = false) {maxLots : Lots}
    (hmax : a.plan.maxTotalLots = some maxLots) : a.openLots + order.quantity ≤ maxLots := by
  by_contra hlt
  have hmem : (maxTotalLotsRule none).toRule ∈ p.registry.rules :=
    hregistry.mem (by simp [defaultRules]) fun _ => rfl
  have hruns : (maxTotalLotsRule none).toRule.runsIn s.ctx = true := by
    simp [Rule.runsIn, StdRule.toRule, maxTotalLotsRule, MaxTotalLotsRule.isEnabled, packValueEnabled,
      s.ctx_plan, hmax, s.order_kind, EvaluationScope.appliesTo]
  have hjudge : ∃ f, (maxTotalLotsRule none).judge s.ctx = .ok (.fail f) := by
    have hpending : s.ctx.pendingOrder = some order := rfl
    have hinstruments : s.ctx.instruments = .new := buildContext_instruments _
    change ∃ f, MaxTotalLotsRule.judge none s.ctx = _
    simp only [MaxTotalLotsRule.judge, packValue, s.ctx_plan, hmax, hpending, hinstruments,
      s.ctx_openPositions, MaxTotalLotsRule.openLots_new, unitsToLots_new, bind, Except.bind, zero_add,
      ← openLots_eq, if_pos (not_le.mp hlt)]
    exact ⟨_, rfl⟩
  obtain ⟨f, hf⟩ := hjudge
  rw [s.isTerminating_of_judge hmem hruns hf (.inl rfl)] at hpass
  cases hpass

/-- An order that exceeds the cap on positions ends the account, unless it is to close one. -/
theorem Evaluated.count_lt_of_order (s : Evaluated env a (.orderSubmitted order))
    (hregistry : p.registry.IsDefault) (hpass : (s.decision p).isTerminating = false)
    (hkind : order.kind = .open ∨ order.kind = .reverse) {maxCount : ℕ}
    (hmax : a.plan.maxOpenPositions = some maxCount) : a.book.length < maxCount := by
  by_contra hle
  have hmem : (maxOpenPositionsRule none).toRule ∈ p.registry.rules :=
    hregistry.mem (by simp [defaultRules]) fun _ => rfl
  have hruns : (maxOpenPositionsRule none).toRule.runsIn s.ctx = true := by
    simp [Rule.runsIn, StdRule.toRule, maxOpenPositionsRule, MaxOpenPositionsRule.isEnabled,
      packValueEnabled, s.ctx_plan, hmax, s.order_kind, EvaluationScope.appliesTo]
  have hlength : a.book.length = (a.openPositions.filter Position.isOpen).length := List.length_map _
  have hjudge : ∃ f, (maxOpenPositionsRule none).judge s.ctx = .ok (.fail f) := by
    have hpending : s.ctx.pendingOrder = some order := rfl
    have hover : maxCount < a.book.length + 1 := Nat.lt_succ_of_le (not_lt.mp hle)
    change ∃ f, MaxOpenPositionsRule.judge none s.ctx = _
    simp only [MaxOpenPositionsRule.judge, judgeCountCap, MaxOpenPositionsRule.effectiveMax, packCount,
      s.ctx_plan, hmax, hpending, s.ctx_openPositions, ← hlength, bind, Except.bind]
    rcases hkind with hkind | hkind <;> simp only [hkind, if_pos hover] <;> exact ⟨_, rfl⟩
  obtain ⟨f, hf⟩ := hjudge
  rw [s.isTerminating_of_judge hmem hruns hf (.inl rfl)] at hpass
  cases hpass

theorem Processed.Clears.hasRoom (h : c.Clears trade) (hregistry : c.pipeline.registry.IsDefault) :
    c.after.HasRoom trade.quantity := by
  obtain ⟨order, hev, hkind, -, hquantity, hpass⟩ := h
  refine c.hasRoom (by rw [hev]; rfl) ?_
  obtain ⟨p, env, a, ev, r, hprocess⟩ := c
  obtain rfl : ev = .orderSubmitted order := hev
  obtain ⟨s⟩ := Pipeline.process_passage hprocess
  have hdecision : (s.decision p).isTerminating = false := by
    have hresult : r.result.decision = s.decision p := by rw [s.result_eq]
    rw [← hresult]
    exact hpass
  constructor
  · intro maxLots hmax
    rw [← hquantity]
    exact s.lots_le_of_order hregistry hdecision hmax
  · intro maxCount hmax
    exact s.count_lt_of_order hregistry hdecision hkind hmax

/-! ## Runs -/

/-- The room that an accepted order found is still there when it is filled. -/
theorem Clearing.hasRoom (h : Clearing earlier trade) (hrun : Run a earlier b)
    (hregistry : ∀ c ∈ earlier, c.pipeline.registry.IsDefault) : b.HasRoom trade.quantity := by
  obtain ⟨between, order, rest, rfl, hclears, hbetween⟩ := h
  obtain ⟨m, hrest, hlater⟩ := hrun.split
  cases hrest
  have hroom : order.after.HasRoom trade.quantity := hclears.hasRoom (hregistry order (by simp))
  exact hlater.invariant (fun x => x.HasRoom trade.quantity) (fun c hc hbefore => c.hasRoom hc hbefore)
    hbetween hroom

theorem Run.withinCaps (ha : a.WithinCaps) (h : Run a calls b)
    (hregistry : ∀ c ∈ calls, c.pipeline.registry.IsDefault) (hcleared : Cleared (· ≠ .exit) calls) :
    b.WithinCaps := by
  induction h with
  | nil => exact ha
  | cons c hrun ih =>
      rw [List.forall_mem_cons] at hregistry
      by_cases hopens : ∃ trade, c.ev = .tradeFilled trade ∧ trade.tradeSide ≠ .exit ∧ 0 < trade.quantity
      · obtain ⟨trade, hev, hside, hpos⟩ := hopens
        have hclearing := hcleared.1 trade hev hside hpos
        exact c.withinCaps_of_hasRoom hev hside hpos (hclearing.hasRoom hrun hregistry.2)
      · refine c.withinCaps (fun trade hev hside hpos => ?_) (ih hregistry.2 hcleared.2)
        exact hopens ⟨trade, hev, hside, hpos⟩

/-- From a book within the caps, no call ever leaves one beyond them, as long as every entry and every
reversal of positive quantity has an order that was accepted for it and nothing was opened since. -/
theorem caps_inductive (ha : a.WithinCaps) (h : Run a calls b)
    (hregistry : ∀ c ∈ calls, c.pipeline.registry.IsDefault) (hcleared : Cleared (· ≠ .exit) calls) :
    b.WithinCaps ∧ ∀ c ∈ calls, c.after.WithinCaps := by
  refine ⟨h.withinCaps ha hregistry hcleared, fun c hc => ?_⟩
  induction h with
  | nil => cases hc
  | cons i hrun ih =>
      rcases List.mem_cons.mp hc with rfl | hc
      · exact Run.withinCaps ha (.cons c hrun) hregistry hcleared
      · exact ih (List.forall_mem_cons.mp hregistry).2 hcleared.2 hc

def cappedPlan : ChallengePlan :=
  { ChallengePlan.default ⟨1⟩ 0 with maxTotalLots := some 1, maxOpenPositions := some 1 }

def openOrder (quantity : Quantity) (submittedAt : Timestamp) : Order where
  id := ⟨1⟩
  accountId := ⟨1⟩
  symbol := ⟨"EURUSD"⟩
  side := .buy
  kind := .open
  orderType := .market
  quantity
  stopLoss := some 1
  takeProfit := some 1
  submittedAt
  avgFillPrice := none

theorem Account.WithinCaps.of_start {at_ : Timestamp}
    (h : (Account.new ⟨1⟩ ⟨1⟩ cappedPlan).start at_ = .ok a) : a.WithinCaps := by
  obtain ⟨-, dayStart, -, rfl⟩ := Account.start_eq h
  constructor
  · intro maxLots hmax
    cases hmax
    change (0 : ℚ) ≤ 1
    decide +kernel
  · intro maxCount hmax
    exact Nat.zero_le _

theorem caps_inductive_entry :
    ∃ (a b : Account) (calls : List Processed),
      a.WithinCaps ∧ Run a calls b ∧
        calls.map Processed.ev =
          [.tradeFilled (openingFill .buy .entry 1 2), .orderSubmitted (openOrder 1 1)] ∧
        b.book = [⟨⟨0⟩, ⟨"EURUSD"⟩, .long, 1⟩] ∧ b.WithinCaps := by
  have hrun :
      (do
        let a ← (Account.new ⟨1⟩ ⟨1⟩ cappedPlan).start 0
        let r ← (Pipeline.ofPlan cappedPlan).process (.at 1) a (.orderSubmitted (openOrder 1 1))
        let r' ← (Pipeline.ofPlan cappedPlan).process (.at 2) r.account
          (.tradeFilled (openingFill .buy .entry 1 2))
        pure (r.result.decision.isTerminating, r'.account.book)) =
        .ok (false, [⟨⟨0⟩, ⟨"EURUSD"⟩, .long, 1⟩]) := by
    decide +kernel
  obtain ⟨a, hstart, hrun⟩ := bind_eq_ok.mp hrun
  obtain ⟨r, h, hrun⟩ := bind_eq_ok.mp hrun
  obtain ⟨r', h', hrun⟩ := bind_eq_ok.mp hrun
  obtain ⟨hpass, hbook⟩ := Prod.mk.inj (pure_eq_ok.mp hrun)
  have hcalls : Run a [.of h', .of h] r'.account := .cons (Processed.of h') (.cons (Processed.of h) .nil)
  have hregistry : ∀ c ∈ [Processed.of h', Processed.of h], c.pipeline.registry.IsDefault := by
    simp only [List.forall_mem_cons, List.not_mem_nil, false_imp_iff, implies_true, and_true]
    exact ⟨.inr ⟨_, rfl⟩, .inr ⟨_, rfl⟩⟩
  have hclears : (Processed.of h).Clears (openingFill .buy .entry 1 2) :=
    ⟨_, rfl, .inl rfl, rfl, rfl, hpass⟩
  have hcleared : Cleared (· ≠ .exit) [Processed.of h', Processed.of h] := by
    refine ⟨fun trade htrade _ _ => ?_, fun trade htrade => ?_, trivial⟩
    · cases htrade
      exact ⟨[], _, [], rfl, hclears, by simp⟩
    · cases htrade
  exact ⟨a, r'.account, _, .of_start hstart, hcalls, rfl, hbook,
    (caps_inductive (.of_start hstart) hcalls hregistry hcleared).1⟩

/-- A reversal that no order preceded opens what it likes: on an empty book it reverses nothing, and two lots
stand where the plan allows one. -/
theorem caps_broken_by_reversal :
    ∃ (a b : Account) (calls : List Processed),
      a.book = [] ∧ a.WithinCaps ∧ Run a calls b ∧ (∀ c ∈ calls, c.pipeline.registry.IsDefault) ∧
        Cleared (· = .entry) calls ∧ b.plan.maxTotalLots = some 1 ∧ b.openLots = 2 ∧ ¬b.WithinCaps := by
  have hrun :
      (do
        let a ← (Account.new ⟨1⟩ ⟨1⟩ cappedPlan).start 0
        let r ← (Pipeline.ofPlan cappedPlan).process (.at 1) a
          (.tradeFilled (openingFill .sell .reverse 2 1))
        pure (a.book, r.account.plan.maxTotalLots, r.account.openLots)) = .ok ([], some 1, 2) := by
    decide +kernel
  obtain ⟨a, hstart, hrun⟩ := bind_eq_ok.mp hrun
  obtain ⟨r, h, hrun⟩ := bind_eq_ok.mp hrun
  obtain ⟨hbook, hfacts⟩ := Prod.mk.inj (pure_eq_ok.mp hrun)
  obtain ⟨hmax, hlots⟩ := Prod.mk.inj hfacts
  have hcalls : Run a [.of h] r.account := .cons (Processed.of h) .nil
  refine ⟨a, r.account, _, hbook, .of_start hstart, hcalls, ?_, ?_, hmax, hlots, fun hwithin => ?_⟩
  · rw [List.forall_mem_singleton]
    exact .inr ⟨_, rfl⟩
  · refine ⟨fun trade htrade hside => ?_, trivial⟩
    cases htrade
    cases hside
  · have hle := hwithin.lots_le 1 hmax
    rw [hlots] at hle
    exact absurd hle (by decide +kernel)

end Propfirm
