import Mathlib.Algebra.BigOperators.Group.Finset.Basic
import Mathlib.Data.Finset.Card
import Mathlib.Order.Bounds.Basic

/-!
# Entries by day, and the tally of the days that are over

A diary lists amounts with the day of each. While the days go by, a tally of the days that are over is
kept by entering the net amount of each day when it ends.
-/

namespace Propfirm.Diary

variable {D K : Type} [LinearOrder D] {es : List (D × K)} {today later d : D} {x : K}

def days (es : List (D × K)) : Finset D := (es.map Prod.fst).toFinset

/-- The days with entries that are over. -/
def closed (es : List (D × K)) (today : D) : Finset D := (days es).filter (· < today)

theorem days_append : days (es ++ [(d, x)]) = insert d (days es) := by
  ext e
  simp [days]

theorem closed_append : closed (es ++ [(today, x)]) today = closed es today := by
  rw [closed, days_append, Finset.filter_insert, if_neg (lt_irrefl today)]
  rfl

/-- At the end of a day it joins the days that are over, if it has entries. -/
theorem closed_turn (hle : ∀ e ∈ days es, e ≤ today) (hlt : today < later) :
    closed es later = if today ∈ days es then insert today (closed es today) else closed es today := by
  ext e
  have hbefore : e ∈ days es → (e < later ↔ e = today ∨ e < today) := fun he =>
    ⟨fun _ => (hle e he).eq_or_lt, fun h => h.elim (fun h => h ▸ hlt) fun h => h.trans hlt⟩
  split
  · rename_i hmem
    rw [Finset.mem_insert, closed, closed, Finset.mem_filter, Finset.mem_filter]
    constructor
    · rintro ⟨he, h⟩
      exact ((hbefore he).mp h).imp id fun h => ⟨he, h⟩
    · rintro (rfl | ⟨he, h⟩)
      · exact ⟨hmem, hlt⟩
      · exact ⟨he, h.trans hlt⟩
  · rename_i hmem
    rw [closed, closed, Finset.mem_filter, Finset.mem_filter]
    refine and_congr_right fun he => (hbefore he).trans (or_iff_right ?_)
    rintro rfl
    exact hmem he

variable [AddCommMonoid K]

def net (es : List (D × K)) (d : D) : K := ((es.filter fun e => e.1 = d).map Prod.snd).sum

theorem net_append_self : net (es ++ [(d, x)]) d = net es d + x := by
  simp [net]

theorem net_append_of_ne {e : D} (h : d ≠ e) : net (es ++ [(d, x)]) e = net es e := by
  simp [net, h]

theorem net_of_notMem (h : d ∉ days es) : net es d = 0 := by
  have hnil : (es.filter fun e => e.1 = d) = [] := by
    simp only [List.filter_eq_nil_iff, decide_eq_true_eq]
    rintro e he rfl
    exact h (List.mem_toFinset.mpr (List.mem_map_of_mem he))
  rw [net, hnil]
  rfl

theorem net_append_of_closed (h : d ∈ closed es today) : net (es ++ [(today, x)]) d = net es d :=
  net_append_of_ne (Finset.mem_filter.mp h).2.ne'

/-! ## Tallies -/

structure Tally (K : Type) where
  best : K
  worst : K
  gains : K
  winners : ℕ

variable [LinearOrder K]

def Tally.zero : Tally K := ⟨0, 0, 0, 0⟩

/-- Enters the net amount of a day. -/
def Tally.enter (t : Tally K) (x : K) : Tally K where
  best := max t.best x
  worst := min t.worst x
  gains := t.gains + max x 0
  winners := t.winners + if 0 < x then 1 else 0

/-- The best and the worst day, none counting as a day of zero, the sum of the gains and the number of
the days with one. -/
structure Tally.Over (t : Tally K) (es : List (D × K)) (today : D) : Prop where
  best : IsGreatest (insert 0 (Set.image (net es) (closed es today))) t.best
  worst : IsLeast (insert 0 (Set.image (net es) (closed es today))) t.worst
  gains : t.gains = ∑ d ∈ closed es today with 0 < net es d, net es d
  winners : t.winners = {d ∈ closed es today | 0 < net es d}.card

namespace Tally

variable {t : Tally K}

theorem zero_over : (zero : Tally K).Over ([] : List (D × K)) today where
  best := by simp [zero, closed, days]
  worst := by simp [zero, closed, days]
  gains := by simp [zero, closed, days]
  winners := by simp [zero, closed, days]

theorem Over.best_nonneg (h : t.Over es today) : 0 ≤ t.best := h.best.2 (Set.mem_insert _ _)

theorem Over.worst_nonpos (h : t.Over es today) : t.worst ≤ 0 := h.worst.2 (Set.mem_insert _ _)

theorem Over.enter_zero (h : t.Over es today) : t.enter 0 = t := by
  simp [enter, max_eq_left h.best_nonneg, min_eq_left h.worst_nonpos]

/-- What is entered today changes nothing about the days that are over. -/
theorem Over.append (h : t.Over es today) : t.Over (es ++ [(today, x)]) today := by
  have himage : Set.image (net (es ++ [(today, x)])) (closed es today) =
      Set.image (net es) (closed es today) :=
    Set.image_congr fun d hd => net_append_of_closed hd
  have hfilter : {d ∈ closed es today | 0 < net (es ++ [(today, x)]) d} =
      {d ∈ closed es today | 0 < net es d} :=
    Finset.filter_congr fun d hd => by rw [net_append_of_closed hd]
  constructor
  · rw [closed_append, himage]; exact h.best
  · rw [closed_append, himage]; exact h.worst
  · rw [closed_append, hfilter, h.gains]
    exact Finset.sum_congr rfl fun d hd => (net_append_of_closed (Finset.mem_filter.mp hd).1).symm
  · rw [closed_append, hfilter, h.winners]

/-- When the day is over its net amount is entered. -/
theorem Over.turn (h : t.Over es today) (hle : ∀ e ∈ days es, e ≤ today) (hlt : today < later) :
    (t.enter (net es today)).Over es later := by
  by_cases hmem : today ∈ days es
  · have hclosed : closed es later = insert today (closed es today) := by
      rw [closed_turn hle hlt, if_pos hmem]
    have hnot : today ∉ closed es today := fun h => lt_irrefl _ (Finset.mem_filter.mp h).2
    have himage : insert 0 (Set.image (net es) (closed es later)) =
        insert (net es today) (insert 0 (Set.image (net es) (closed es today))) := by
      rw [hclosed, Finset.coe_insert, Set.image_insert_eq, Set.insert_comm]
    constructor
    · rw [himage, enter, max_comm]
      exact h.best.insert _
    · rw [himage, enter, min_comm]
      exact h.worst.insert _
    · rw [hclosed, Finset.filter_insert, enter, h.gains]
      split
      · rename_i hpos
        rw [Finset.sum_insert fun h => hnot (Finset.mem_filter.mp h).1, max_eq_left hpos.le, add_comm]
      · rename_i hpos
        rw [max_eq_right (not_lt.mp hpos), add_zero]
    · rw [hclosed, Finset.filter_insert, enter, h.winners]
      split
      · rename_i hpos
        rw [Finset.card_insert_of_notMem fun h => hnot (Finset.mem_filter.mp h).1]
      · rw [add_zero]
  · have hclosed : closed es later = closed es today := by rw [closed_turn hle hlt, if_neg hmem]
    rw [net_of_notMem hmem, h.enter_zero]
    exact ⟨hclosed ▸ h.best, hclosed ▸ h.worst, hclosed ▸ h.gains, hclosed ▸ h.winners⟩

end Tally

end Propfirm.Diary
