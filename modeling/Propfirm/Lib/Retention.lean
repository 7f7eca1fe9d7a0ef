import Mathlib.Data.List.Basic

/-!
# Logs that forget

Each step drops the entries it does not keep and adds its own at the end. Steps are listed latest first.
-/

namespace Propfirm

namespace Retention

variable {α ι : Type} {keeps : ι → α → Bool} {adds : ι → List α} {init : List α}
  {steps later earlier : List ι} {x : α}

/-- All that was added. -/
def added (adds : ι → List α) : List ι → List α
  | [] => []
  | i :: earlier => added adds earlier ++ adds i

/-- What is left. -/
def retained (keeps : ι → α → Bool) (adds : ι → List α) (init : List α) : List ι → List α
  | [] => init
  | i :: earlier => (retained keeps adds init earlier).filter (keeps i) ++ adds i

theorem retained_append :
    retained keeps adds init (later ++ earlier) =
      retained keeps adds (retained keeps adds init earlier) later := by
  induction later with
  | nil => rfl
  | cons i later ih => rw [List.cons_append, retained, ih, retained]

/-- An entry that every step keeps is still there, and after it only what was added since. -/
theorem retained_split (adds : ι → List α) (h : ∀ i ∈ steps, keeps i x = true) (xs : List α) :
    ∃ before after, retained keeps adds (xs ++ [x]) steps = before ++ x :: after ∧
      after.Sublist (added adds steps) := by
  induction steps with
  | nil => exact ⟨xs, [], rfl, .refl _⟩
  | cons i earlier ih =>
      rw [List.forall_mem_cons] at h
      obtain ⟨before, after, heq, hafter⟩ := ih h.2
      refine ⟨before.filter (keeps i), after.filter (keeps i) ++ adds i, ?_,
        (List.filter_sublist.trans hafter).append (.refl _)⟩
      rw [retained, heq, List.filter_append, List.filter_cons_of_pos h.1, List.append_assoc,
        List.cons_append]

/-- Steps that keep the entries in question lose none of those added on the way. -/
theorem countP_added_le (adds : ι → List α) (init : List α) {p : α → Bool}
    (h : ∀ i ∈ steps, ∀ x, p x = true → keeps i x = true) :
    (added adds steps).countP p ≤ (retained keeps adds init steps).countP p := by
  induction steps with
  | nil => exact Nat.zero_le _
  | cons i earlier ih =>
      rw [List.forall_mem_cons] at h
      have hkept (xs : List α) : (xs.filter (keeps i)).countP p = xs.countP p := by
        rw [List.countP_filter]
        exact List.countP_congr fun x _ => by
          rw [Bool.and_eq_true]
          exact and_iff_left_of_imp (h.1 x)
      rw [added, retained, List.countP_append, List.countP_append, hkept]
      exact Nat.add_le_add_right (ih h.2) _

end Retention

end Propfirm
