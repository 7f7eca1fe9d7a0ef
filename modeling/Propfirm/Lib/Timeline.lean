import Mathlib.Data.List.Sort
import Mathlib.Data.List.Nodup

/-!
# Items in order of time

Each item of a list has a time. With distinct times the sorted list is determined by the items, and what
stands at its end by the items alone, whatever order they came in.
-/

namespace Propfirm.Timeline

variable {α κ : Type} [LinearOrder κ] {key : α → κ} {l l' : List α} {p : α → Bool} {x : α}

def chronological (key : α → κ) (l : List α) : List α := l.insertionSort fun a b => key a ≤ key b

theorem chronological_perm (key : α → κ) (l : List α) : (chronological key l).Perm l :=
  List.perm_insertionSort _ l

theorem chronological_pairwise (key : α → κ) (l : List α) :
    (chronological key l).Pairwise fun a b => key a ≤ key b := by
  have : Std.Total fun a b : α => key a ≤ key b := ⟨fun a b => le_total (key a) (key b)⟩
  have : IsTrans α fun a b => key a ≤ key b := ⟨fun _ _ _ => le_trans⟩
  exact List.pairwise_insertionSort _ l

theorem chronological_congr (h : l.Perm l') (hdistinct : (l.map key).Nodup) :
    chronological key l = chronological key l' := by
  have hperm : (chronological key l).Perm (chronological key l') :=
    (chronological_perm key l).trans (h.trans (chronological_perm key l').symm)
  refine hperm.eq_of_pairwise ?_ (chronological_pairwise key l) (chronological_pairwise key l')
  intro a b ha hb hab hba
  have ha' : a ∈ l := (chronological_perm key l).mem_iff.mp ha
  have hb' : b ∈ l := h.mem_iff.mpr ((chronological_perm key l').mem_iff.mp hb)
  exact List.inj_on_of_nodup_map hdistinct ha' hb' (hab.antisymm hba)

theorem chronological_map {f : α → α} (hf : ∀ x, key (f x) = key x) :
    chronological key (l.map f) = (chronological key l).map f := by
  refine (List.map_insertionSort (fun a b => key a ≤ key b) (fun a b => key a ≤ key b) f l ?_).symm
  intro a _ b _
  rw [hf, hf]

/-! ## The latest items in a row -/

/-- The latest items in a row that satisfy `p`, latest first. -/
def latestRun (key : α → κ) (p : α → Bool) (l : List α) : List α :=
  (chronological key l).reverse.takeWhile p

theorem latestRun_congr (h : l.Perm l') (hdistinct : (l.map key).Nodup) :
    latestRun key p l = latestRun key p l' := by
  rw [latestRun, latestRun, chronological_congr h hdistinct]

theorem reverse_chronological_pairwise (hdistinct : (l.map key).Nodup) :
    (chronological key l).reverse.Pairwise fun a b => key b < key a := by
  rw [List.pairwise_reverse]
  have hkeys : ((chronological key l).map key).Nodup :=
    ((chronological_perm key l).map key).nodup_iff.mpr hdistinct
  have hne : (chronological key l).Pairwise fun a b => key a ≠ key b := List.pairwise_map.mp hkeys
  exact ((chronological_pairwise key l).and hne).imp fun h => lt_of_le_of_ne h.1 h.2

theorem mem_takeWhile_of_descending (h : l.Pairwise fun a b => key b < key a) :
    x ∈ l.takeWhile p ↔ x ∈ l ∧ ∀ y ∈ l, key x ≤ key y → p y = true := by
  induction l with
  | nil => simp
  | cons a l ih =>
      obtain ⟨hlater, hrest⟩ := List.pairwise_cons.mp h
      rw [List.takeWhile_cons, List.forall_mem_cons, List.mem_cons]
      split
      · rename_i hp
        rw [List.mem_cons, ih hrest]
        constructor
        · rintro (rfl | ⟨hx, hall⟩)
          · exact ⟨.inl rfl, fun _ => hp, fun y hy hle => absurd (hlater y hy) hle.not_gt⟩
          · exact ⟨.inr hx, fun _ => hp, hall⟩
        · rintro ⟨rfl | hx, -, hall⟩
          · exact .inl rfl
          · exact .inr ⟨hx, hall⟩
      · rename_i hp
        -- the latest item is later than any other, and does not satisfy `p`
        refine iff_of_false List.not_mem_nil ?_
        rintro ⟨rfl | hx, ha, -⟩
        · exact hp (ha le_rfl)
        · exact hp (ha (hlater x hx).le)

theorem mem_latestRun (hdistinct : (l.map key).Nodup) :
    x ∈ latestRun key p l ↔ x ∈ l ∧ ∀ y ∈ l, key x ≤ key y → p y = true := by
  have hmem (y : α) : y ∈ (chronological key l).reverse ↔ y ∈ l := by
    rw [List.mem_reverse, (chronological_perm key l).mem_iff]
  rw [latestRun, mem_takeWhile_of_descending (reverse_chronological_pairwise hdistinct)]
  simp only [hmem]

theorem latestRun_nodup (hdistinct : (l.map key).Nodup) : (latestRun key p l).Nodup := by
  have hsorted : (chronological key l).Nodup :=
    (chronological_perm key l).nodup_iff.mpr (hdistinct.of_map key)
  exact (List.nodup_reverse.mpr hsorted).sublist (List.takeWhile_sublist _)

theorem getLast?_of_descending (h : l.Pairwise fun a b => key b < key a) :
    l.getLast? = some x ↔ x ∈ l ∧ ∀ y ∈ l, key x ≤ key y := by
  induction l with
  | nil => simp
  | cons a l ih =>
      obtain ⟨hlater, hrest⟩ := List.pairwise_cons.mp h
      cases l with
      | nil =>
          simp only [List.getLast?_singleton, Option.some.injEq, List.mem_singleton, forall_eq]
          exact ⟨fun heq => ⟨heq.symm, (congrArg key heq).ge⟩, fun hx => hx.1.symm⟩
      | cons b l =>
          rw [List.getLast?_cons_cons, ih hrest]
          constructor
          · rintro ⟨hx, hall⟩
            exact ⟨List.mem_cons_of_mem a hx, List.forall_mem_cons.mpr ⟨(hlater x hx).le, hall⟩⟩
          · rintro ⟨hx, hall⟩
            have hrun := (List.forall_mem_cons.mp hall).2
            rcases List.mem_cons.mp hx with rfl | hx
            · exact absurd (hlater b List.mem_cons_self) (hrun b List.mem_cons_self).not_gt
            · exact ⟨hx, hrun⟩

/-- The last of the run is its earliest. -/
theorem getLast?_latestRun (hdistinct : (l.map key).Nodup) :
    (latestRun key p l).getLast? = some x ↔
      x ∈ latestRun key p l ∧ ∀ y ∈ latestRun key p l, key x ≤ key y :=
  getLast?_of_descending ((reverse_chronological_pairwise hdistinct).sublist (List.takeWhile_sublist _))

/-! ## The largest -/

theorem le_foldl_max {b c : κ} {l : List κ} : c ≤ l.foldl max b ↔ c ≤ b ∨ ∃ x ∈ l, c ≤ x := by
  induction l generalizing b with
  | nil => simp
  | cons a l ih => simp [ih, or_assoc]

end Propfirm.Timeline
