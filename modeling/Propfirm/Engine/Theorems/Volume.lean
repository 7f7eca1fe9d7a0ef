import Propfirm.Engine.Lemmas.Positions
import Propfirm.Engine.Theorems.Fills

/-!
# Open volume through a fill

A fill should move the book by exactly its own volume. The pipeline opens a position of its own for
every entry and every reversal, and an exit always drops the whole position.
-/

namespace Propfirm

open Fallible

variable {p : Pipeline} {env : Env} {a : Account} {r : PipelineResult} {trade : Trade}
  {before after : PositionBook}

namespace Trade

/-- What a fill is meant to do to the book: an entry adds its quantity on its side, an exit takes its
quantity off the position it names, and a reversal closes the other side and opens its own. -/
def Conserves (trade : Trade) (before after : PositionBook) : Prop :=
  match trade.tradeSide with
  | .entry =>
      ∃ added : PositionBook, after = before ++ added ∧ Book.volume added = trade.quantity ∧
        ∀ h ∈ added, h.instrument = trade.symbol ∧ h.side = .fromOrder trade.side
  | .exit =>
      ∃ info, trade.exitInfo = some info ∧ after = Book.reduce info.positionId info.closedQuantity before
  | .reverse =>
      ∃ reversed : Holding PositionId Symbol PositionSide Quantity,
        after = Book.withoutOpposing trade.symbol (.fromOrder trade.side) before ++ [reversed] ∧
          reversed.instrument = trade.symbol ∧ reversed.side = .fromOrder trade.side

/-- The fills that leave nothing to net: an entry of no negative quantity, an exit of the whole
position, a reversal with nothing to close. -/
def NetsNothing (trade : Trade) (before : PositionBook) : Prop :=
  match trade.tradeSide with
  | .entry => 0 ≤ trade.quantity
  | .exit =>
      ∀ info, trade.exitInfo = some info →
        ∀ h ∈ before, h.id = info.positionId → h.quantity ≤ info.closedQuantity
  | .reverse =>
      0 < trade.quantity ∧
        ∀ h ∈ before, Book.opposes trade.symbol (.fromOrder trade.side) h = false

end Trade

/-! ## The three sides -/

theorem opened_of_pos {id : PositionId} (h : 0 < trade.quantity) :
    trade.opened id = [⟨id, trade.symbol, .fromOrder trade.side, trade.quantity⟩] := if_pos h

theorem opened_of_not_pos {id : PositionId} (h : ¬0 < trade.quantity) : trade.opened id = [] := if_neg h

theorem conserves_entry_iff {id : PositionId} (hside : trade.tradeSide = .entry) :
    trade.Conserves before (before ++ trade.opened id) ↔ 0 ≤ trade.quantity := by
  simp only [Trade.Conserves, hside, List.append_cancel_left_eq]
  by_cases hpos : 0 < trade.quantity
  · rw [opened_of_pos hpos]
    refine iff_of_true ⟨_, rfl, ?_, ?_⟩ hpos.le
    · simp [Book.volume]
    · simp
  · rw [opened_of_not_pos hpos]
    constructor
    · rintro ⟨added, rfl, hvolume, -⟩
      exact hvolume.le
    · intro hle
      exact ⟨[], rfl, le_antisymm hle (not_lt.mp hpos), by simp⟩

theorem conserves_reverse_iff {id : PositionId} (hside : trade.tradeSide = .reverse) :
    trade.Conserves before (before ++ trade.opened id) ↔
      0 < trade.quantity ∧
        ∀ h ∈ before, Book.opposes trade.symbol (.fromOrder trade.side) h = false := by
  simp only [Trade.Conserves, hside]
  by_cases hpos : 0 < trade.quantity
  · rw [opened_of_pos hpos]
    constructor
    · rintro ⟨reversed, heq, -, -⟩
      exact ⟨hpos, (Book.append_eq_reversed_iff.mp heq).2⟩
    · rintro ⟨-, hnone⟩
      exact ⟨_, Book.append_eq_reversed_iff.mpr ⟨rfl, hnone⟩, rfl, rfl⟩
  · rw [opened_of_not_pos hpos, List.append_nil]
    constructor
    · rintro ⟨reversed, heq, -, hown⟩
      exact absurd heq (Book.ne_reversed (by simp [Book.opposes, hown]))
    · rintro ⟨h, -⟩
      exact absurd h hpos

theorem conserves_exit_iff {info : TradeExit} (hside : trade.tradeSide = .exit)
    (hinfo : trade.exitInfo = some info) :
    trade.Conserves before (Book.without info.positionId before) ↔
      ∀ h ∈ before, h.id = info.positionId → h.quantity ≤ info.closedQuantity := by
  simp only [Trade.Conserves, hside, hinfo, Option.some.injEq, exists_eq_left']
  exact Book.without_eq_reduce_iff

/-! ## Fills -/

theorem book_without_fresh {id : PositionId} (h : ∀ x ∈ a.openPositions, x.id ≠ id) :
    Book.without id a.book = a.book := by
  refine List.filter_eq_self.mpr fun x hx => ?_
  obtain ⟨position, hposition, rfl⟩ := List.mem_map.mp hx
  exact decide_eq_true (h position (List.mem_filter.mp hposition).1)

/-- With a fresh identifier for what it opens, a fill moves the book by its own volume exactly when there
is nothing to net. -/
theorem fills_conserve_iff (h : p.process env a (.tradeFilled trade) = .ok r)
    (hfresh : ∀ x ∈ a.openPositions, x.id ≠ env.positionId) :
    trade.Conserves a.book r.account.book ↔ trade.NetsNothing a.book := by
  obtain ⟨s⟩ := Pipeline.process_passage h
  cases hside : trade.tradeSide with
  | entry =>
      rw [s.book_opened (by simp [hside]), book_without_fresh hfresh, conserves_entry_iff hside]
      simp only [Trade.NetsNothing, hside]
  | reverse =>
      rw [s.book_opened (by simp [hside]), book_without_fresh hfresh, conserves_reverse_iff hside]
      simp only [Trade.NetsNothing, hside]
  | exit =>
      obtain ⟨info, hinfo, hbook⟩ := s.book_exit hside
      rw [hbook, conserves_exit_iff hside hinfo]
      simp [Trade.NetsNothing, hside, hinfo]

def openingFill (side : OrderSide) (tradeSide : TradeSide) (quantity : Quantity) (executedAt : Timestamp) :
    Trade :=
  { closingFill 0 executedAt with side, tradeSide, quantity, exitInfo := none }

def Env.drawing (env : Env) (raw : ℕ) : Env := { env with positionId := ⟨raw⟩ }

theorem fills_conserve_whole_exit :
    ∃ (a : Account) (r : PipelineResult),
      (Pipeline.ofPlan lossLimitPlan).process (.at 2) a (.tradeFilled (closingFill 10 2)) = .ok r ∧
        a.book = [⟨⟨1⟩, ⟨"EURUSD"⟩, .long, 1⟩] ∧ (closingFill 10 2).Conserves a.book r.account.book := by
  have hrun :
      (do
        let a ← (Account.new ⟨1⟩ ⟨1⟩ lossLimitPlan).start 0
        let r ← (Pipeline.ofPlan lossLimitPlan).process ((Env.at 1).drawing 1) a
          (.tradeFilled (openingFill .buy .entry 1 1))
        let _ ← (Pipeline.ofPlan lossLimitPlan).process (.at 2) r.account (.tradeFilled (closingFill 10 2))
        pure (r.account.book, r.account.openPositions.map Position.id)) =
        .ok ([⟨⟨1⟩, ⟨"EURUSD"⟩, .long, 1⟩], [⟨1⟩]) := by
    decide +kernel
  obtain ⟨a, -, hrun⟩ := bind_eq_ok.mp hrun
  obtain ⟨r, -, hrun⟩ := bind_eq_ok.mp hrun
  obtain ⟨r', h', hrun⟩ := bind_eq_ok.mp hrun
  obtain ⟨hbook, hids⟩ := Prod.mk.inj (pure_eq_ok.mp hrun)
  have hfresh : ∀ x ∈ r.account.openPositions, x.id ≠ (Env.at 2).positionId := by
    intro x hx heq
    have hmem := List.mem_map_of_mem (f := Position.id) hx
    rw [hids, heq] at hmem
    exact absurd hmem (by decide)
  refine ⟨r.account, r', h', hbook, (fills_conserve_iff h' hfresh).mpr ?_⟩
  rintro info hinfo h hh -
  rw [hbook] at hh
  cases List.mem_singleton.mp hh
  cases hinfo
  decide +kernel

/-- An exit of one lot of two leaves nothing, and a reversal leaves the position it reverses. -/
theorem fills_lose_and_keep_volume :
    ∃ (a : Account) (exited reversed : PipelineResult),
      (Pipeline.ofPlan lossLimitPlan).process (.at 2) a (.tradeFilled (closingFill 10 2)) = .ok exited ∧
        (Pipeline.ofPlan lossLimitPlan).process (.at 2) a
            (.tradeFilled (openingFill .sell .reverse 2 2)) = .ok reversed ∧
        a.book = [⟨⟨1⟩, ⟨"EURUSD"⟩, .long, 2⟩] ∧
        exited.account.book = [] ∧ ¬(closingFill 10 2).Conserves a.book exited.account.book ∧
        reversed.account.book =
            [⟨⟨1⟩, ⟨"EURUSD"⟩, .long, 2⟩, ⟨⟨0⟩, ⟨"EURUSD"⟩, .short, 2⟩] ∧
        ¬(openingFill .sell .reverse 2 2).Conserves a.book reversed.account.book := by
  have hrun :
      (do
        let a ← (Account.new ⟨1⟩ ⟨1⟩ lossLimitPlan).start 0
        let r ← (Pipeline.ofPlan lossLimitPlan).process ((Env.at 1).drawing 1) a
          (.tradeFilled (openingFill .buy .entry 2 1))
        let exited ← (Pipeline.ofPlan lossLimitPlan).process (.at 2) r.account
          (.tradeFilled (closingFill 10 2))
        let reversed ← (Pipeline.ofPlan lossLimitPlan).process (.at 2) r.account
          (.tradeFilled (openingFill .sell .reverse 2 2))
        pure (r.account.book, exited.account.book, reversed.account.book)) =
        .ok ([⟨⟨1⟩, ⟨"EURUSD"⟩, .long, 2⟩], [],
          [⟨⟨1⟩, ⟨"EURUSD"⟩, .long, 2⟩, ⟨⟨0⟩, ⟨"EURUSD"⟩, .short, 2⟩]) := by
    decide +kernel
  obtain ⟨a, -, hrun⟩ := bind_eq_ok.mp hrun
  obtain ⟨r, -, hrun⟩ := bind_eq_ok.mp hrun
  obtain ⟨exited, hexited, hrun⟩ := bind_eq_ok.mp hrun
  obtain ⟨reversed, hreversed, hrun⟩ := bind_eq_ok.mp hrun
  have hfacts := pure_eq_ok.mp hrun
  simp only [Prod.mk.injEq] at hfacts
  obtain ⟨hbook, hbook', hbook''⟩ := hfacts
  refine ⟨r.account, exited, reversed, hexited, hreversed, hbook, hbook', ?_, hbook'', ?_⟩
  · rw [hbook, hbook']
    rintro ⟨info, hinfo, hreduce⟩
    cases hinfo
    revert hreduce
    decide +kernel
  · rw [hbook, hbook'']
    rintro ⟨opened, hreversed, -, -⟩
    exact absurd (congrArg List.length hreversed) (by simp [Book.withoutOpposing, Book.opposes, openingFill,
      closingFill, PositionSide.fromOrder])

end Propfirm
