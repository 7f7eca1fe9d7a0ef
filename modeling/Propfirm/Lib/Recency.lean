import Mathlib.Data.List.DropRight
import Mathlib.Data.List.Perm.Subperm

/-!
# Keys in the order of their latest entry

Entering a key moves it to the end of the list. A list that is too long loses keys from its front.
-/

namespace Propfirm.Recency

variable {κ : Type} [DecidableEq κ] {k k' : κ} {history order before after : List κ}

/-- What a history holds after the last occurrence of a key. -/
def since (k : κ) (history : List κ) : List κ := history.rtakeWhile fun x => x ≠ k

theorem since_append_self : since k (history ++ [k]) = [] :=
  List.rtakeWhile_concat_neg _ _ _ (by simp)

theorem since_append_of_ne (h : k' ≠ k) : since k (history ++ [k']) = since k history ++ [k'] :=
  List.rtakeWhile_concat_pos _ _ _ (by simpa using h)

theorem since_append_of_notMem (h : k ∉ after) : since k (history ++ k :: after) = after := by
  induction after using List.reverseRecOn with
  | nil => exact since_append_self
  | append_singleton after x ih =>
      rw [List.mem_append, List.mem_singleton, not_or] at h
      rw [← List.cons_append, ← List.append_assoc, since_append_of_ne (Ne.symm h.2), ih h.1]

theorem since_suffix : since k (history ++ k :: after) <:+ after := by
  induction after using List.reverseRecOn with
  | nil => simp [since_append_self]
  | append_singleton after x ih =>
      rw [← List.cons_append, ← List.append_assoc]
      by_cases hx : x = k
      · rw [hx, since_append_self]
        exact List.nil_suffix
      · rw [since_append_of_ne hx]
        obtain ⟨front, hfront⟩ := ih
        exact ⟨front, by rw [← List.append_assoc, hfront]⟩

theorem notMem_since : k ∉ since k history := by
  intro h
  simpa using List.mem_rtakeWhile_imp h

/-- Each key of the list stands before those entered since it was. -/
def Ordered (history order : List κ) : Prop := order.Pairwise fun k k' => k' ∈ since k history

namespace Ordered

theorem nil : Ordered history ([] : List κ) := List.Pairwise.nil

theorem sublist (h : Ordered history order) (hsub : after.Sublist order) : Ordered history after :=
  List.Pairwise.sublist hsub h

theorem nodup (h : Ordered history order) : order.Nodup := by
  refine List.Pairwise.imp (fun {a b} hab => ?_) h
  rintro rfl
  exact notMem_since hab

theorem enter (h : Ordered history order) :
    Ordered (history ++ [k]) (order.filter (fun x => x ≠ k) ++ [k]) := by
  have hne : ∀ x ∈ order.filter (fun x => x ≠ k), k ≠ x := by
    intro x hx
    exact Ne.symm (by simpa using (List.mem_filter.mp hx).2)
  refine List.pairwise_append.mpr ⟨?_, List.pairwise_singleton _ _, ?_⟩
  · refine List.Pairwise.imp_of_mem (fun {a b} ha _ hab => ?_) (h.sublist List.filter_sublist)
    rw [since_append_of_ne (hne a ha)]
    exact List.mem_append_left _ hab
  · intro x hx y hy
    rw [List.mem_singleton.mp hy, since_append_of_ne (hne x hx)]
    exact List.mem_append_right _ (List.mem_singleton_self k)

theorem mem_since_of_take (h : Ordered history order) {n : ℕ} (hk : k ∈ order.take n)
    (hk' : k' ∈ order.drop n) : k' ∈ since k history := by
  rw [← List.take_append_drop n order] at h
  exact (List.pairwise_append.mp h).2.2 k hk k' hk'

/-- A key lost to a bound has seen that many keys come in. -/
theorem le_length_since (h : Ordered history order) {bound : ℕ}
    (hk : k ∈ order.take (order.length - bound)) : bound ≤ (since k history).length := by
  have hsub : order.drop (order.length - bound) ⊆ since k history := fun _ => h.mem_since_of_take hk
  have hnodup : (order.drop (order.length - bound)).Nodup := h.nodup.sublist (List.drop_sublist _ _)
  have hle := (hnodup.subperm hsub).length_le
  have hpos : order.length - bound ≠ 0 := by
    intro hzero
    rw [hzero, List.take_zero] at hk
    exact absurd hk List.not_mem_nil
  rw [List.length_drop] at hle
  omega

end Ordered

end Propfirm.Recency
