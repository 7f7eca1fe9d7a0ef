import Mathlib.Algebra.BigOperators.Group.List.Basic
import Propfirm.Lib.Path

/-!
# Running totals along a path

A total that every step moves by an amount of its own is the sum of the amounts. A balance that some
steps set anew is what the last of these set, with the amounts of the steps since.
-/

namespace Propfirm

variable {σ ι M : Type} [AddCommGroup M] {source target : ι → σ} {s t : σ} {steps : List ι}

theorem Path.sum (f : σ → M) (amount : ι → M) (hstep : ∀ i, f (target i) = f (source i) + amount i)
    (h : Path source target s steps t) : f t = f s + (steps.map amount).sum := by
  induction h with
  | nil => simp
  | cons i _ ih => rw [hstep, ih, List.map_cons, List.sum_cons, add_assoc, add_comm (amount i)]

/-- The steps since the last that set the balance; the latest come first. -/
def sinceSet (set : ι → Option M) (steps : List ι) : List ι := steps.takeWhile fun i => (set i).isNone

theorem Path.balance (f : σ → M) (set : ι → Option M) (amount : ι → M)
    (hstep : ∀ i, f (target i) = (set i).getD (f (source i) + amount i))
    (h : Path source target s steps t) :
    f t = (steps.findSome? set).getD (f s) + ((sinceSet set steps).map amount).sum := by
  induction h with
  | nil => simp [sinceSet]
  | cons i _ ih =>
      rw [hstep]
      cases hset : set i with
      | none =>
          simp only [sinceSet, hset, List.takeWhile_cons, Option.isNone_none, if_true,
            List.findSome?_cons, Option.getD_none, List.map_cons, List.sum_cons]
          rw [ih, sinceSet, add_assoc, add_comm (amount i)]
      | some b => simp [sinceSet, hset]

theorem sum_map_sub (f g : ι → M) (l : List ι) :
    (l.map fun i => f i - g i).sum = (l.map f).sum - (l.map g).sum := by
  induction l with
  | nil => simp
  | cons i l ih => simp only [List.map_cons, List.sum_cons, ih, add_sub_add_comm]

end Propfirm
