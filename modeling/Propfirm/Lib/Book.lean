import Mathlib.Algebra.Order.BigOperators.Group.List

/-!
# Books of holdings

A book lists what is held: an amount of an instrument, on one side, under an identifier. Only what is
held counts, so every quantity of a book is meant to be positive.
-/

namespace Propfirm

structure Holding (ι κ δ Q : Type) where
  id : ι
  instrument : κ
  side : δ
  quantity : Q
deriving DecidableEq

namespace Book

variable {ι κ δ Q : Type} {book added : List (Holding ι κ δ Q)}

/-! ## Closing -/

section Closing

variable [DecidableEq ι] [AddCommGroup Q] [LinearOrder Q] {id : ι} {amount : Q}

/-- Takes an amount off what is held under an identifier; what is left of it stays, if anything is. -/
def reduce (id : ι) (amount : Q) (book : List (Holding ι κ δ Q)) : List (Holding ι κ δ Q) :=
  book.filterMap fun h =>
    if h.id = id then
      if amount < h.quantity then some { h with quantity := h.quantity - amount } else none
    else some h

def without (id : ι) (book : List (Holding ι κ δ Q)) : List (Holding ι κ δ Q) :=
  book.filter fun h => decide (h.id ≠ id)

/-- Dropping a holding is a reduction exactly when nothing of it should be left. -/
theorem without_eq_reduce_iff :
    without id book = reduce id amount book ↔ ∀ h ∈ book, h.id = id → h.quantity ≤ amount := by
  constructor
  · intro heq h hmem hid
    by_contra hlt
    have hleft : { h with quantity := h.quantity - amount } ∈ without id book := by
      rw [heq]
      exact List.mem_filterMap.mpr ⟨h, hmem, by rw [if_pos hid, if_pos (not_le.mp hlt)]⟩
    exact of_decide_eq_true (List.mem_filter.mp hleft).2 hid
  · intro hall
    rw [without, reduce, ← List.filterMap_eq_filter]
    refine List.filterMap_congr fun h hmem => ?_
    by_cases hid : h.id = id
    · simp [hid, not_lt.mpr (hall h hmem hid)]
    · simp [hid]

end Closing

/-! ## Reversing -/

section Reversing

variable [DecidableEq κ] [DecidableEq δ] {instrument : κ} {side : δ} {opened reversed : Holding ι κ δ Q}

/-- The instrument is held on the other side. -/
def opposes (instrument : κ) (side : δ) (h : Holding ι κ δ Q) : Bool :=
  decide (h.instrument = instrument) && decide (h.side ≠ side)

def withoutOpposing (instrument : κ) (side : δ) (book : List (Holding ι κ δ Q)) :
    List (Holding ι κ δ Q) :=
  book.filter fun h => !opposes instrument side h

theorem withoutOpposing_eq_self :
    withoutOpposing instrument side book = book ↔ ∀ h ∈ book, opposes instrument side h = false := by
  simp [withoutOpposing, List.filter_eq_self]

/-- Opening the other side without closing anything is a reversal exactly when nothing was opposed. -/
theorem append_eq_reversed_iff :
    book ++ [opened] = withoutOpposing instrument side book ++ [reversed] ↔
      opened = reversed ∧ ∀ h ∈ book, opposes instrument side h = false := by
  rw [← withoutOpposing_eq_self]
  constructor
  · intro h
    obtain ⟨hbook, hlast⟩ := List.append_inj' h rfl
    exact ⟨List.singleton_injective hlast, hbook.symm⟩
  · rintro ⟨rfl, h⟩
    rw [h]

/-- A book is never the result of opening something in it. -/
theorem ne_reversed (h : opposes instrument side reversed = false) :
    book ≠ withoutOpposing instrument side book ++ [reversed] := by
  intro heq
  have hagain := congrArg (withoutOpposing instrument side) heq
  -- nothing that remains is opposed, so closing once more would change nothing
  rw [withoutOpposing, withoutOpposing, List.filter_append, List.filter_filter] at hagain
  have hlength := congrArg List.length hagain
  simp [h] at hlength

end Reversing

/-! ## Volume -/

section Volume

variable [AddCommGroup Q]

def volume (book : List (Holding ι κ δ Q)) : Q := (book.map Holding.quantity).sum

theorem volume_append : volume (book ++ added) = volume book + volume added := by
  simp [volume]

/-- A book that lost holdings has no more volume than before. -/
theorem volume_le_of_sublist [LinearOrder Q] [IsOrderedAddMonoid Q] (h : added.Sublist book)
    (hpos : ∀ x ∈ book, 0 ≤ x.quantity) :
    volume added ≤ volume book := by
  refine (h.map Holding.quantity).sum_le_sum fun q hq => ?_
  obtain ⟨x, hx, rfl⟩ := List.mem_map.mp hq
  exact hpos x hx

end Volume

end Book

end Propfirm
