import Mathlib.Algebra.BigOperators.Group.List.Basic
import Mathlib.Data.List.Nodup
import Propfirm.Lib.Path

/-!
# Tables that steps write to

A step may name a key. What the table holds under it goes out, and what the step enters, if anything, comes
in at the end.
-/

namespace Propfirm

variable {α κ σ ι : Type} [DecidableEq κ] {key : α → κ} {source target : ι → σ} {table : σ → List α}

structure Slots (key : α → κ) (source target : ι → σ) (table : σ → List α) where
  slot : ι → Option κ
  entry : ι → Option α
  slot_of_entry : ∀ i x, entry i = some x → slot i = some (key x)
  table_eq : ∀ i, table (target i) =
    (table (source i)).filter (fun x => decide (slot i ≠ some (key x))) ++ (entry i).toList

namespace Slots

variable (w : Slots key source target table) {s t : σ} {steps : List ι} {i : ι} {x : α}

/-- A step entered the item, and no later one names its key. The steps are latest first. -/
def Stands (steps : List ι) (x : α) : Prop :=
  ∃ later i earlier, steps = later ++ i :: earlier ∧ w.entry i = some x ∧
    ∀ j ∈ later, w.slot j ≠ some (key x)

theorem not_stands_nil : ¬w.Stands [] x := by
  rintro ⟨later, i, earlier, h, -⟩
  cases later <;> cases h

theorem stands_cons :
    w.Stands (i :: steps) x ↔ (w.Stands steps x ∧ w.slot i ≠ some (key x)) ∨ w.entry i = some x := by
  constructor
  · rintro ⟨later, j, earlier, h, hentry, hlater⟩
    cases later with
    | nil =>
        obtain ⟨rfl, rfl⟩ := List.cons.inj h
        exact .inr hentry
    | cons k later =>
        obtain ⟨rfl, rfl⟩ := List.cons.inj h
        rw [List.forall_mem_cons] at hlater
        exact .inl ⟨⟨later, j, earlier, rfl, hentry, hlater.2⟩, hlater.1⟩
  · rintro (⟨⟨later, j, earlier, rfl, hentry, hlater⟩, hslot⟩ | hentry)
    · exact ⟨i :: later, j, earlier, rfl, hentry, List.forall_mem_cons.mpr ⟨hslot, hlater⟩⟩
    · exact ⟨[], i, steps, rfl, hentry, fun j hj => by cases hj⟩

theorem mem_target :
    x ∈ table (target i) ↔ (x ∈ table (source i) ∧ w.slot i ≠ some (key x)) ∨ w.entry i = some x := by
  rw [w.table_eq, List.mem_append, List.mem_filter, decide_eq_true_eq, Option.mem_toList]

/-- What a table holds after steps: what they left of it, and what stands of what they entered. -/
theorem mem_iff (h : Path source target s steps t) :
    x ∈ table t ↔ (x ∈ table s ∧ ∀ i ∈ steps, w.slot i ≠ some (key x)) ∨ w.Stands steps x := by
  induction h with
  | nil => simp [w.not_stands_nil]
  | cons i _ ih =>
      rw [w.mem_target, w.stands_cons, ih, List.forall_mem_cons, or_and_right, and_assoc, or_assoc]
      simp only [and_comm]

theorem mem_iff_of_empty (h : Path source target s steps t) (hs : table s = []) :
    x ∈ table t ↔ w.Stands steps x := by
  rw [w.mem_iff h, hs]
  simp

/-- Steps that enter nothing and name every key of the table empty it. -/
theorem empties (h : Path source target s steps t)
    (hnamed : ∀ x ∈ table s, ∃ i ∈ steps, w.slot i = some (key x))
    (hentry : ∀ i ∈ steps, w.entry i = none) : table t = [] := by
  rw [List.eq_nil_iff_forall_not_mem]
  intro x hx
  rcases (w.mem_iff h).mp hx with ⟨hx, hkept⟩ | ⟨later, i, earlier, rfl, hentered, -⟩
  · obtain ⟨i, hi, hslot⟩ := hnamed x hx
    exact hkept i hi hslot
  · rw [hentry i (by simp)] at hentered
    cases hentered

include w

theorem nodup_target (h : ((table (source i)).map key).Nodup) : ((table (target i)).map key).Nodup := by
  have hkept : (((table (source i)).filter fun x => decide (w.slot i ≠ some (key x))).map key).Nodup :=
    h.sublist (List.filter_sublist.map key)
  rw [w.table_eq, List.map_append]
  cases hentry : w.entry i with
  | none => simpa using hkept
  | some x =>
      -- what is left of the table has other keys than the one that the entry is put under
      refine List.nodup_append.mpr ⟨hkept, List.nodup_singleton _, fun k hk k' hk' => ?_⟩
      obtain ⟨y, hy, rfl⟩ := List.mem_map.mp hk
      have hother := of_decide_eq_true (List.mem_filter.mp hy).2
      obtain rfl : k' = key x := by simpa using hk'
      intro heq
      rw [w.slot_of_entry i x hentry, heq] at hother
      exact hother rfl

theorem nodup (h : Path source target s steps t) (hs : table s = []) : ((table t).map key).Nodup :=
  h.invariant (P := fun _ => True) (fun u => ((table u).map key).Nodup) (fun _ _ hu => w.nodup_target hu)
    (fun _ _ => trivial) (by rw [hs]; exact List.nodup_nil)

end Slots

omit [DecidableEq κ] in
/-- Steps that name the keys of the items once each, with the value of the item they name, and that are worth
nothing otherwise, sum up to the values of the items. -/
theorem sum_of_settled {M : Type} [AddCommMonoid M] {slot : ι → Option κ} {amount : ι → M} {value : α → M}
    {steps : List ι} {items : List α} (honce : (steps.filterMap slot).Perm (items.map key))
    (hvalue : ∀ i ∈ steps, ∀ x ∈ items, slot i = some (key x) → amount i = value x)
    (hother : ∀ i ∈ steps, slot i = none → amount i = 0) : (steps.map amount).sum = (items.map value).sum := by
  induction steps generalizing items with
  | nil =>
      have hitems : items = [] := by simpa using honce.symm.eq_nil
      simp [hitems]
  | cons i steps ih =>
      rw [List.forall_mem_cons] at hvalue hother
      rw [List.map_cons, List.sum_cons]
      cases hslot : slot i with
      | none =>
          rw [List.filterMap_cons_none hslot] at honce
          rw [hother.1 hslot, zero_add, ih honce hvalue.2 hother.2]
      | some k =>
          rw [List.filterMap_cons_some hslot] at honce
          obtain ⟨x, hx, rfl⟩ := List.mem_map.mp (honce.subset List.mem_cons_self)
          obtain ⟨before, after, rfl⟩ := List.append_of_mem hx
          -- the other steps settle the items around the one that this step names
          have hrest : (steps.filterMap slot).Perm ((before ++ after).map key) := by
            refine List.Perm.cons_inv (a := key x) (honce.trans ?_)
            simp [List.perm_middle]
          have hvalue' : ∀ j ∈ steps, ∀ y ∈ before ++ after, slot j = some (key y) → amount j = value y :=
            fun j hj y hy => hvalue.2 j hj y (by simp only [List.mem_append, List.mem_cons] at hy ⊢; tauto)
          rw [ih hrest hvalue' hother.2, hvalue.1 x hx hslot, (List.perm_middle.map value).sum_eq,
            List.map_cons, List.sum_cons]

end Propfirm
