import Mathlib.Algebra.Order.BigOperators.Group.Multiset
import Mathlib.Data.Finmap

/-!
# Amounts by key

A sheet holds one amount for each of finitely many keys. What is added under a key goes on top of the amount
there, or opens it.
-/

namespace Propfirm.Amounts

variable {κ K : Type} [DecidableEq κ]

abbrev Sheet (κ K : Type) := Finmap fun _ : κ => K

namespace Sheet

def amounts (s : Sheet κ K) : Multiset K := s.entries.map Sigma.snd

variable {s : Sheet κ K} {k k' : κ} {x y : K}

/-- What the other keys hold. -/
def others (s : Sheet κ K) (k : κ) : Multiset K := amounts (s.erase k)

theorem amounts_insert (s : Sheet κ K) (k : κ) (x : K) : amounts (s.insert k x) = x ::ₘ s.others k := by
  have hfresh : s.insert k x = (s.erase k).insert k x := by
    refine Finmap.ext_lookup fun j => ?_
    by_cases hj : j = k
    · subst hj
      rw [Finmap.lookup_insert, Finmap.lookup_insert]
    · rw [Finmap.lookup_insert_of_ne _ hj, Finmap.lookup_insert_of_ne _ hj, Finmap.lookup_erase_ne hj]
  rw [hfresh, amounts, Finmap.entries_insert_of_notMem Finmap.notMem_erase_self, Multiset.map_cons]
  rfl

theorem insert_lookup (h : s.lookup k = some x) : s.insert k x = s := by
  refine Finmap.ext_lookup fun j => ?_
  by_cases hj : j = k
  · subst hj
    rw [Finmap.lookup_insert, h]
  · rw [Finmap.lookup_insert_of_ne _ hj]

theorem amounts_of_lookup (h : s.lookup k = some x) : s.amounts = x ::ₘ s.others k := by
  conv_lhs => rw [← insert_lookup h]
  exact amounts_insert s k x

theorem amounts_of_not_mem (h : s.lookup k = none) : s.amounts = s.others k := by
  have herase : s.erase k = s := by
    refine Finmap.ext_lookup fun j => ?_
    by_cases hj : j = k
    · subst hj
      rw [Finmap.lookup_erase, h]
    · rw [Finmap.lookup_erase_ne hj]
  rw [others, herase]

section Add

variable [AddCommMonoid K]

def add (s : Sheet κ K) (k : κ) (x : K) : Sheet κ K := s.insert k ((s.lookup k).getD 0 + x)

def total (s : Sheet κ K) : K := s.amounts.sum

theorem total_split (s : Sheet κ K) (k : κ) : s.total = (s.lookup k).getD 0 + (s.others k).sum := by
  cases h : s.lookup k with
  | none => rw [total, amounts_of_not_mem h, Option.getD_none, zero_add]
  | some x => rw [total, amounts_of_lookup h, Multiset.sum_cons, Option.getD_some]

theorem total_add (s : Sheet κ K) (k : κ) (x : K) : (s.add k x).total = s.total + x := by
  rw [total, add, amounts_insert, Multiset.sum_cons, total_split s k, add_right_comm]

theorem lookup_add (s : Sheet κ K) (k j : κ) (x : K) :
    (s.add k x).lookup j = if j = k then some ((s.lookup k).getD 0 + x) else s.lookup j := by
  split
  · rename_i hj
    subst hj
    exact Finmap.lookup_insert s
  · rename_i hj
    exact Finmap.lookup_insert_of_ne s hj

/-- The order in which amounts are added does not matter. -/
theorem add_swap (s : Sheet κ K) (k k' : κ) (x x' : K) : (s.add k x).add k' x' = (s.add k' x').add k x := by
  refine Finmap.ext_lookup fun j => ?_
  by_cases hk : k = k'
  · subst hk
    by_cases hj : j = k
    · simp only [lookup_add, hj, if_true, Option.getD_some, add_right_comm]
    · simp only [lookup_add, if_neg hj]
  · simp only [lookup_add, if_neg hk, if_neg (Ne.symm hk)]
    by_cases hj : j = k
    · simp [hj, hk]
    · simp [hj]

end Add

section Order

variable [AddCommMonoid K] [PartialOrder K] [IsOrderedAddMonoid K]

theorem amounts_add_nonneg (hs : ∀ a ∈ s.amounts, 0 ≤ a) (hx : 0 ≤ x) : ∀ a ∈ (s.add k x).amounts, 0 ≤ a := by
  intro a ha
  rw [add, amounts_insert, Multiset.mem_cons] at ha
  cases h : s.lookup k with
  | none =>
      rw [amounts_of_not_mem h] at hs
      rw [h, Option.getD_none, zero_add] at ha
      exact ha.elim (fun heq => heq ▸ hx) (hs a)
  | some y =>
      rw [amounts_of_lookup h] at hs
      have hy := hs y (Multiset.mem_cons_self _ _)
      rw [h, Option.getD_some] at ha
      exact ha.elim (fun heq => heq ▸ add_nonneg hy hx) fun hmem => hs a (Multiset.mem_cons_of_mem hmem)

omit [DecidableEq κ] in
theorem le_total_of_mem (hs : ∀ a ∈ s.amounts, 0 ≤ a) (hx : x ∈ s.amounts) : x ≤ s.total :=
  Multiset.single_le_sum hs x hx

end Order

end Sheet

end Propfirm.Amounts
