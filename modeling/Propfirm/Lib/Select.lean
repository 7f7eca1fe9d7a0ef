import Mathlib.Data.List.Induction
import Mathlib.Order.Bounds.Basic
import Mathlib.Order.Lattice

/-!
# Selecting the last entry of greatest key
-/

namespace Propfirm.Select

/-! ## Folds -/

section Later

variable {κ ν μ : Type} [LinearOrder κ]

/-- Of two entries the one of greater key; the later one on a tie. -/
def later (best y : κ × ν) : κ × ν := if best.1 ≤ y.1 then y else best

theorem later_fst (best y : κ × ν) : (later best y).1 = max best.1 y.1 := by
  unfold later
  split
  · rename_i h; exact (max_eq_right h).symm
  · rename_i h; exact (max_eq_left (le_of_not_ge h)).symm

/-- The key of the selected entry is the greatest key, whatever the entries carry. -/
theorem foldl_later_fst (x : κ × ν) (xs : List (κ × ν)) :
    (xs.foldl later x).1 = (xs.map Prod.fst).foldl max x.1 := by
  induction xs generalizing x with
  | nil => rfl
  | cons y ys ih => simp [ih, later_fst]

theorem later_map (f : ν → μ) (best y : κ × ν) :
    later (Prod.map id f best) (Prod.map id f y) = Prod.map id f (later best y) := by
  unfold later
  by_cases h : best.1 ≤ y.1 <;> simp [h]

/-- What the entries carry has no part in the selection. -/
theorem foldl_later_map (f : ν → μ) (x : κ × ν) (xs : List (κ × ν)) :
    (xs.map (Prod.map id f)).foldl later (Prod.map id f x) = Prod.map id f (xs.foldl later x) := by
  induction xs generalizing x with
  | nil => rfl
  | cons y ys ih => rw [List.map_cons, List.foldl_cons, List.foldl_cons, later_map, ih]

/-- Nothing before the selected entry has a greater key, and everything after it has a smaller one. -/
theorem foldl_later_split (x : κ × ν) (xs : List (κ × ν)) :
    ∃ before after, x :: xs = before ++ xs.foldl later x :: after ∧
      (∀ y ∈ before, y.1 ≤ (xs.foldl later x).1) ∧ ∀ y ∈ after, y.1 < (xs.foldl later x).1 := by
  induction xs using List.reverseRecOn with
  | nil => exact ⟨[], [], rfl, by simp, by simp⟩
  | append_singleton xs z ih =>
      obtain ⟨before, after, hsplit, hbefore, hafter⟩ := ih
      rw [List.foldl_append, List.foldl_cons, List.foldl_nil]
      by_cases h : (xs.foldl later x).1 ≤ z.1
      · rw [later, if_pos h]
        refine ⟨x :: xs, [], rfl, fun y hy => ?_, by simp⟩
        rw [hsplit] at hy
        rcases List.mem_append.mp hy with hy | hy
        · exact (hbefore y hy).trans h
        · rcases List.mem_cons.mp hy with rfl | hy
          · exact h
          · exact (hafter y hy).le.trans h
      · rw [later, if_neg h]
        refine ⟨before, after ++ [z], ?_, hbefore, fun y hy => ?_⟩
        · rw [← List.cons_append, hsplit, List.append_assoc, List.cons_append]
        · rcases List.mem_append.mp hy with hy | hy
          · exact hafter y hy
          · rw [List.mem_singleton.mp hy]
            exact not_le.mp h

end Later

/-! ## Searches -/

section Search

variable {α : Type} {rank : α → ℕ} {p : α → Bool} {l : List α} {x y : α}

/-- In a list of falling rank the search stops at the greatest rank. -/
theorem rank_le_of_find? (hl : l.Pairwise fun a b => rank b ≤ rank a) (hx : l.find? p = some x)
    (hy : y ∈ l) (hp : p y = true) : rank y ≤ rank x := by
  induction l with
  | nil => cases hy
  | cons z zs ih =>
      obtain ⟨hz, hzs⟩ := List.pairwise_cons.mp hl
      by_cases hpz : p z = true
      · rw [List.find?_cons_of_pos hpz] at hx
        cases hx
        rcases List.mem_cons.mp hy with rfl | hy
        · exact le_rfl
        · exact hz y hy
      · rw [List.find?_cons_of_neg hpz] at hx
        rcases List.mem_cons.mp hy with rfl | hy
        · exact absurd hp hpz
        · exact ih hzs hx hy

end Search

end Propfirm.Select
