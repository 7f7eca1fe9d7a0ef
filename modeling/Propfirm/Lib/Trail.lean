import Mathlib.Data.List.Basic

/-!
# Announced changes of state

A log lists changes of state as pairs. It is right for a system that went from one state to another
when the changes lead from the first to the second.
-/

namespace Propfirm.Trail

variable {σ : Type} {s t u v : σ} {xs ys : List (σ × σ)}

/-- Each change starts where the one before it ended, and is one. -/
def Leads : σ → List (σ × σ) → σ → Prop
  | s, [], t => s = t
  | s, (u, v) :: rest, t => u = s ∧ u ≠ v ∧ Leads v rest t

@[simp] theorem leads_nil : Leads s [] t ↔ s = t := Iff.rfl

@[simp] theorem leads_cons : Leads s ((u, v) :: xs) t ↔ u = s ∧ u ≠ v ∧ Leads v xs t := Iff.rfl

theorem leads_append : Leads s (xs ++ ys) t ↔ ∃ u, Leads s xs u ∧ Leads u ys t := by
  induction xs generalizing s with
  | nil => simp
  | cons x xs ih =>
      obtain ⟨u, v⟩ := x
      simp only [List.cons_append, leads_cons, ih]
      constructor
      · rintro ⟨hu, hne, w, hxs, hys⟩
        exact ⟨w, ⟨hu, hne, hxs⟩, hys⟩
      · rintro ⟨w, ⟨hu, hne, hxs⟩, hys⟩
        exact ⟨hu, hne, w, hxs, hys⟩

theorem Leads.eq_of_mem (h : Leads s xs t) (hone : xs.length ≤ 1) {c : σ × σ} (hc : c ∈ xs) :
    c = (s, t) := by
  match xs, hone with
  | [(u, v)], _ =>
      obtain ⟨rfl, -, rfl⟩ := h
      exact List.mem_singleton.mp hc

/-- The steps from each state of a history to the next. -/
def moves (history : List σ) : List (σ × σ) := history.zip history.tail

@[simp] theorem moves_cons_cons {history : List σ} :
    moves (s :: t :: history) = (s, t) :: moves (t :: history) := rfl

end Propfirm.Trail
