import Propfirm.Engine.Lemmas.Passage
import Propfirm.Lib.Book

/-!
# What a call does to the open positions

Only a fill touches them, and only after the rules were evaluated.
-/

namespace Propfirm

open Fallible

variable {p : Pipeline} {env : Env} {a : Account} {ev : PipelineEvent} {r : PipelineResult}
  {trade : Trade}

abbrev PositionBook := List (Holding PositionId Symbol PositionSide Quantity)

def Position.holding (x : Position) : Holding PositionId Symbol PositionSide Quantity :=
  ⟨x.id, x.symbol, x.side, x.openQuantity⟩

def Account.book (a : Account) : PositionBook := (a.openPositions.filter Position.isOpen).map Position.holding

/-- What a fill that opens a position adds to the book. -/
def Trade.opened (trade : Trade) (id : PositionId) : PositionBook :=
  if 0 < trade.quantity then [⟨id, trade.symbol, .fromOrder trade.side, trade.quantity⟩] else []

theorem book_pos {h : Holding PositionId Symbol PositionSide Quantity} (hh : h ∈ a.book) :
    0 < h.quantity := by
  obtain ⟨x, hx, rfl⟩ := List.mem_map.mp hh
  have hopen := (List.mem_filter.mp hx).2
  simp only [Position.isOpen, Bool.and_eq_true, decide_eq_true_eq] at hopen
  exact hopen.2

/-! ## Stages -/

namespace Evaluated

theorem applied_openPositions (s : Evaluated env a ev) :
    s.applied.account.openPositions = a.openPositions :=
  s.event_reading Account.openPositions (fun _ => rfl) fun _ => rfl

theorem tradeFill_eq (s : Evaluated env a (.tradeFilled trade)) :
    ∃ position, fillPosition env.positionId a.openPositions trade = .ok position ∧
      s.applied.tradeFill = some (trade, position) := by
  have hrouted : s.routed.openPositions = a.openPositions :=
    s.routed_reading Account.openPositions fun _ => rfl
  obtain ⟨dayStart, -, h⟩ := bind_eq_ok.mp s.apply_eq
  obtain ⟨position, hposition, h⟩ := bind_eq_ok.mp h
  rw [← pure_eq_ok.mp h]
  exact ⟨position, hrouted ▸ hposition, rfl⟩

end Evaluated

theorem Passage.account_openPositions (s : Passage p env a ev r) :
    r.account.openPositions = s.filled.openPositions := by
  have hmarked : (s.marked p).openPositions = s.filled.openPositions :=
    applyTargetHit_reading Account.openPositions fun _ _ _ _ => rfl
  rw [s.account_reading Account.openPositions fun _ _ _ _ => rfl, ← hmarked]
  rcases applyPromotion_ok s.promotion_eq with ⟨-, heq, -⟩ | ⟨-, -, heq, -⟩ <;> rw [heq]
  rfl

theorem Passage.openPositions_eq (s : Passage p env a ev r) (hev : ∀ trade, ev ≠ .tradeFilled trade) :
    r.account.openPositions = a.openPositions := by
  rw [s.account_openPositions, s.filled_eq hev, s.applied_openPositions]

/-! ## Fills -/

theorem filter_isOpen_without (xs : List Position) (id : PositionId) :
    ((xs.filter fun x => x.id != id).filter Position.isOpen).map Position.holding =
      Book.without id ((xs.filter Position.isOpen).map Position.holding) := by
  rw [List.filter_comm, Book.without, List.filter_map]
  congr 1
  refine List.filter_congr fun x _ => ?_
  by_cases h : x.id = id <;> simp [Position.holding, h]

/-- The book after a fill: whatever has the identifier of the filled position is replaced by it. -/
theorem Passage.book_fill (s : Passage p env a (.tradeFilled trade) r) :
    ∃ position, fillPosition env.positionId a.openPositions trade = .ok position ∧
      r.account.book =
        Book.without position.id a.book ++ if position.isOpen then [position.holding] else [] := by
  obtain ⟨position, hposition, hfill⟩ := s.tradeFill_eq
  refine ⟨position, hposition, ?_⟩
  rw [Account.book, s.account_openPositions, Evaluated.filled, hfill]
  simp only [consumeFill, s.applied_openPositions]
  cases hopen : position.isOpen with
  | true =>
      rw [if_pos rfl, if_pos rfl, List.filter_append, List.map_append, filter_isOpen_without, Account.book]
      simp [hopen]
  | false =>
      rw [if_neg Bool.false_ne_true, if_neg Bool.false_ne_true, List.append_nil, filter_isOpen_without,
        Account.book]

theorem Passage.book_opened (s : Passage p env a (.tradeFilled trade) r) (hside : trade.tradeSide ≠ .exit) :
    r.account.book = Book.without env.positionId a.book ++ trade.opened env.positionId := by
  obtain ⟨position, hposition, hbook⟩ := s.book_fill
  obtain rfl : Position.open env.positionId trade.accountId trade.symbol (.fromOrder trade.side) trade.price
      trade.quantity trade.executedAt trade.commission = position := by
    unfold fillPosition at hposition
    cases hcase : trade.tradeSide with
    | exit => exact absurd hcase hside
    | entry => rw [hcase] at hposition; exact Except.ok.inj hposition
    | reverse => rw [hcase] at hposition; exact Except.ok.inj hposition
  rw [hbook, Trade.opened]
  by_cases hpos : 0 < trade.quantity <;> simp [Position.open, Position.isOpen, Position.holding, hpos]

/-- An exit drops whatever has the identifier it names. -/
theorem Passage.book_exit (s : Passage p env a (.tradeFilled trade) r) (hside : trade.tradeSide = .exit) :
    ∃ info, trade.exitInfo = some info ∧ r.account.book = Book.without info.positionId a.book := by
  obtain ⟨position, hposition, hbook⟩ := s.book_fill
  unfold fillPosition at hposition
  rw [hside] at hposition
  dsimp only at hposition
  cases hinfo : trade.exitInfo with
  | none => rw [hinfo] at hposition; cases hposition
  | some info =>
      rw [hinfo] at hposition
      dsimp only at hposition
      refine ⟨info, rfl, ?_⟩
      rw [hbook]
      split at hposition
      · rename_i pos hfound
        have hid : pos.id = info.positionId := by simpa using List.find?_some hfound
        rw [← Except.ok.inj hposition]
        simp [Position.isOpen, hid]
      · rw [← Except.ok.inj hposition]
        simp [Position.isOpen]

end Propfirm
