import Mathlib.Data.List.Induction
import Mathlib.Order.Bounds.Basic
import Mathlib.Order.Lattice

/-!
# Curves and the highest value so far

A curve is a list of values in the order of time. One pass that keeps the highest value so far finds the
greatest difference between any value and a later one. Where the curve exceeds that value, a stretch ends and
the next one begins.
-/

namespace Propfirm.Curve

variable {K : Type}

/-! ## Greatest values -/

theorem foldl_max_isGreatest [LinearOrder K] (a : K) (xs : List K) :
    IsGreatest (insert a {x | x ∈ xs}) (xs.foldl max a) := by
  induction xs using List.reverseRecOn with
  | nil => simp
  | append_singleton xs z ih =>
      have hset : insert a {x | x ∈ xs ++ [z]} = insert a {x | x ∈ xs} ∪ {z} := by
        ext x
        simp only [Set.mem_insert_iff, Set.mem_ofPred_eq, Set.mem_union, Set.mem_singleton_iff,
          List.mem_append, List.mem_singleton, or_assoc]
      rw [hset, List.foldl_append]
      exact ih.union isGreatest_singleton

/-- The greatest element of a set, and zero for the empty one. -/
def IsMaximum [LE K] [Zero K] (S : Set K) (m : K) : Prop := IsGreatest S m ∨ S = ∅ ∧ m = 0

theorem isMaximum_of_insert [PartialOrder K] [Zero K] {S : Set K} {m : K} (hzero : S.Nonempty → 0 ∈ S)
    (h : IsGreatest (insert 0 S) m) : IsMaximum S m := by
  rcases S.eq_empty_or_nonempty with rfl | hne
  · exact .inr ⟨rfl, by simpa using h.1⟩
  · exact .inl (by rwa [Set.insert_eq_of_mem (hzero hne)] at h)

/-! ## Pairs of values -/

/-- The curve has the first value no later than the second. -/
def Before (xs : List K) (x y : K) : Prop := ∃ i j : ℕ, i ≤ j ∧ xs[i]? = some x ∧ xs[j]? = some y

variable {xs ys : List K} {x y z : K}

theorem Before.mem_left (h : Before xs x y) : x ∈ xs := by
  obtain ⟨i, -, -, hx, -⟩ := h
  exact List.mem_of_getElem? hx

theorem Before.mem_right (h : Before xs x y) : y ∈ xs := by
  obtain ⟨-, j, -, -, hy⟩ := h
  exact List.mem_of_getElem? hy

theorem Before.refl (h : x ∈ xs) : Before xs x x := by
  obtain ⟨i, hi⟩ := List.mem_iff_getElem?.mp h
  exact ⟨i, i, le_rfl, hi, hi⟩

theorem not_before_nil : ¬Before ([] : List K) x y := by
  intro h
  exact absurd h.mem_left List.not_mem_nil

/-- The last value comes after every other. -/
theorem before_append_singleton :
    Before (xs ++ [z]) x y ↔ Before xs x y ∨ x ∈ xs ++ [z] ∧ y = z := by
  constructor
  · rintro ⟨i, j, hij, hx, hy⟩
    rcases lt_or_ge j xs.length with hj | hj
    · rw [List.getElem?_append_left hj] at hy
      rw [List.getElem?_append_left (hij.trans_lt hj)] at hx
      exact .inl ⟨i, j, hij, hx, hy⟩
    · refine .inr ⟨List.mem_of_getElem? hx, ?_⟩
      rw [List.getElem?_append_right hj] at hy
      exact List.mem_singleton.mp (List.mem_of_getElem? hy)
  · rintro (⟨i, j, hij, hx, hy⟩ | ⟨hx, rfl⟩)
    · have hi := (List.getElem?_eq_some_iff.mp hx).1
      have hj := (List.getElem?_eq_some_iff.mp hy).1
      refine ⟨i, j, hij, ?_, ?_⟩
      · rwa [List.getElem?_append_left hi]
      · rwa [List.getElem?_append_left hj]
    · obtain ⟨i, hi⟩ := List.mem_iff_getElem?.mp hx
      have hlt := (List.getElem?_eq_some_iff.mp hi).1
      rw [List.length_append, List.length_singleton] at hlt
      exact ⟨i, xs.length, Nat.lt_succ_iff.mp hlt, hi, List.getElem?_concat_length⟩

theorem pairwise_iff_before {R : K → K → Prop} (hrefl : ∀ x, R x x) :
    xs.Pairwise R ↔ ∀ x y, Before xs x y → R x y := by
  induction xs using List.reverseRecOn with
  | nil => exact iff_of_true List.Pairwise.nil fun _ _ h => absurd h not_before_nil
  | append_singleton xs z ih =>
      rw [List.pairwise_append, ih]
      constructor
      · rintro ⟨hxs, -, hlast⟩ x y hxy
        rcases before_append_singleton.mp hxy with h | ⟨hx, rfl⟩
        · exact hxs x y h
        · rcases List.mem_append.mp hx with hx | hx
          · exact hlast x hx _ (List.mem_singleton_self _)
          · rw [List.mem_singleton.mp hx]
            exact hrefl _
      · intro h
        refine ⟨fun x y hxy => h x y (before_append_singleton.mpr (.inl hxy)),
          List.pairwise_singleton _ _, ?_⟩
        intro x hx y hy
        exact h x y (before_append_singleton.mpr (.inr ⟨List.mem_append_left _ hx, List.mem_singleton.mp hy⟩))

/-! ## One pass -/

section Scan

variable {f : K → K → K}

/-- The amounts of all values over later ones. -/
def amounts (f : K → K → K) (xs : List K) : Set K := {d | ∃ x y, Before xs x y ∧ d = f x y}

theorem amounts_append_singleton :
    amounts f (xs ++ [z]) = amounts f xs ∪ Set.image (fun x => f x z) {x | x ∈ xs ++ [z]} := by
  ext d
  constructor
  · rintro ⟨x, y, hxy, rfl⟩
    rcases before_append_singleton.mp hxy with h | ⟨hx, rfl⟩
    · exact .inl ⟨x, y, h, rfl⟩
    · exact .inr ⟨x, hx, rfl⟩
  · rintro (⟨x, y, hxy, rfl⟩ | ⟨x, hx, rfl⟩)
    · exact ⟨x, y, before_append_singleton.mpr (.inl hxy), rfl⟩
    · exact ⟨x, z, before_append_singleton.mpr (.inr ⟨hx, rfl⟩), rfl⟩

variable [LinearOrder K] [Zero K]

/-- The highest value so far, and the greatest amount of it over the value of the moment. -/
def scanStep (f : K → K → K) (s : K × K) (y : K) : K × K :=
  (max s.1 y, max s.2 (f (max s.1 y) y))

def scan (f : K → K → K) (xs : List K) : K × K := xs.foldl (scanStep f) (0, 0)

theorem scan_append_singleton : scan f (xs ++ [z]) = scanStep f (scan f xs) z := by
  simp [scan]

theorem scan_fst (f : K → K → K) (xs : List K) : (scan f xs).1 = xs.foldl max 0 :=
  (List.foldl_hom Prod.fst fun _ _ => rfl).symm

theorem scan_fst_isGreatest (f : K → K → K) (xs : List K) :
    IsGreatest (insert 0 {x | x ∈ xs}) (scan f xs).1 := by
  rw [scan_fst]
  exact foldl_max_isGreatest 0 xs

/-- The highest value is one of the curve. -/
theorem scan_fst_mem (hxs : ∀ x ∈ xs, 0 ≤ x) (hne : xs ≠ []) : (scan f xs).1 ∈ xs := by
  have hgreatest := scan_fst_isGreatest f xs
  rcases hgreatest.1 with hzero | hmem
  · -- a curve that does not exceed zero is zero
    obtain ⟨x, hx⟩ := List.exists_mem_of_ne_nil xs hne
    have hle : x ≤ 0 := hzero ▸ hgreatest.2 (Set.mem_insert_of_mem _ hx)
    rw [hzero, ← le_antisymm hle (hxs x hx)]
    exact hx
  · exact hmem

/-- One pass finds the greatest amount, where it grows with the higher value. -/
theorem scan_isGreatest (hxs : ∀ x ∈ xs, 0 ≤ x)
    (hf : ∀ x y p, 0 ≤ x → x ≤ p → 0 ≤ y → y ≤ p → f x y ≤ f p y) :
    IsGreatest (insert 0 (amounts f xs)) (scan f xs).2 := by
  induction xs using List.reverseRecOn with
  | nil =>
      have hnone : amounts f ([] : List K) = ∅ := by
        refine Set.eq_empty_iff_forall_notMem.mpr ?_
        rintro d ⟨x, y, hxy, -⟩
        exact not_before_nil hxy
      rw [hnone]
      simp [scan]
  | append_singleton xs z ih =>
      have hmem := scan_fst_mem (f := f) hxs (by simp)
      have hgreatest := scan_fst_isGreatest f (xs ++ [z])
      have hz : z ∈ xs ++ [z] := by simp
      have hlast : IsGreatest (Set.image (fun x => f x z) {x | x ∈ xs ++ [z]})
          (f (scan f (xs ++ [z])).1 z) := by
        refine ⟨⟨_, hmem, rfl⟩, ?_⟩
        rintro d ⟨x, hx, rfl⟩
        exact hf x z _ (hxs x hx) (hgreatest.2 (Set.mem_insert_of_mem _ hx)) (hxs z hz)
          (hgreatest.2 (Set.mem_insert_of_mem _ hz))
      rw [scan_append_singleton] at hlast ⊢
      rw [amounts_append_singleton, ← Set.insert_union]
      exact (ih fun x hx => hxs x (List.mem_append_left _ hx)).union hlast

end Scan

/-! ## Stretches -/

section Stretches

variable [LinearOrder K]

/-- A value and those after it that do not exceed it. -/
structure Stretch (K : Type) [LinearOrder K] where
  peak : K
  rest : List K
  le_peak : ∀ y ∈ rest, y ≤ peak

namespace Stretch

def start (x : K) : Stretch K := ⟨x, [], fun _ hy => absurd hy List.not_mem_nil⟩

def extend (s : Stretch K) (y : K) (hy : y ≤ s.peak) : Stretch K where
  peak := s.peak
  rest := s.rest ++ [y]
  le_peak := by
    intro z hz
    rcases List.mem_append.mp hz with hz | hz
    · exact s.le_peak z hz
    · rwa [List.mem_singleton.mp hz]

def values (s : Stretch K) : List K := s.peak :: s.rest

def length (s : Stretch K) : ℕ := s.values.length

theorem length_eq (s : Stretch K) : s.length = s.rest.length + 1 := rfl

theorem length_extend (s : Stretch K) (y : K) (hy : y ≤ s.peak) :
    (s.extend y hy).length = s.length + 1 := by
  simp [length_eq, extend]

/-- Some value of the stretch lies below its peak. -/
def Dips (s : Stretch K) : Prop := ∃ y ∈ s.rest, y < s.peak

theorem Dips.rest_ne_nil {s : Stretch K} (h : s.Dips) : s.rest ≠ [] := by
  obtain ⟨y, hy, -⟩ := h
  exact List.ne_nil_of_mem hy

instance (s : Stretch K) : Decidable s.Dips := inferInstanceAs (Decidable (∃ y ∈ s.rest, y < s.peak))

end Stretch

def stretchesFrom (s : Stretch K) : List K → List (Stretch K)
  | [] => [s]
  | y :: ys =>
      if hy : s.peak < y then s :: stretchesFrom (.start y) ys
      else stretchesFrom (s.extend y (not_lt.mp hy)) ys

/-- A stretch goes on until the curve exceeds its peak. -/
def stretches : List K → List (Stretch K)
  | [] => []
  | x :: xs => stretchesFrom (.start x) xs

variable {s : Stretch K}

theorem stretchesFrom_values (s : Stretch K) (ys : List K) :
    (stretchesFrom s ys).flatMap Stretch.values = s.values ++ ys := by
  induction ys generalizing s with
  | nil => simp [stretchesFrom]
  | cons y ys ih =>
      unfold stretchesFrom
      split
      · rw [List.flatMap_cons, ih]
        rfl
      · rw [ih]
        simp [Stretch.values, Stretch.extend]

/-- The stretches make up the curve. -/
theorem stretches_values (xs : List K) : (stretches xs).flatMap Stretch.values = xs := by
  cases xs with
  | nil => rfl
  | cons x xs => exact stretchesFrom_values _ _

theorem stretchesFrom_peaks (s : Stretch K) (ys : List K) :
    (∀ s' ∈ stretchesFrom s ys, s.peak ≤ s'.peak) ∧
      (stretchesFrom s ys).Pairwise fun s s' => s.peak < s'.peak := by
  induction ys generalizing s with
  | nil => simp [stretchesFrom]
  | cons y ys ih =>
      unfold stretchesFrom
      split
      · rename_i hy
        obtain ⟨hle, hpairs⟩ := ih (.start y)
        have hlt : ∀ s' ∈ stretchesFrom (.start y) ys, s.peak < s'.peak := fun s' hs' =>
          hy.trans_le (hle s' hs')
        exact ⟨List.forall_mem_cons.mpr ⟨le_rfl, fun s' hs' => (hlt s' hs').le⟩,
          List.pairwise_cons.mpr ⟨hlt, hpairs⟩⟩
      · exact ih _

theorem stretches_peaks (xs : List K) : (stretches xs).Pairwise fun s s' => s.peak < s'.peak := by
  cases xs with
  | nil => exact List.Pairwise.nil
  | cons x xs => exact (stretchesFrom_peaks _ _).2

theorem Stretch.values_le (s : Stretch K) : ∀ y ∈ s.values, y ≤ s.peak :=
  List.forall_mem_cons.mpr ⟨le_rfl, s.le_peak⟩

theorem Stretch.values_eq (hs : ¬s.Dips) : ∀ y ∈ s.values, y = s.peak := by
  refine List.forall_mem_cons.mpr ⟨rfl, fun y hy => ?_⟩
  by_contra hne
  exact hs ⟨y, hy, lt_of_le_of_ne (s.le_peak y hy) hne⟩

/-- A curve falls where one of its stretches dips. -/
theorem pairwise_le_iff (xs : List K) : xs.Pairwise (· ≤ ·) ↔ ∀ s ∈ stretches xs, ¬s.Dips := by
  conv_lhs => rw [← stretches_values xs]
  rw [List.pairwise_flatMap]
  constructor
  · rintro ⟨hwithin, -⟩ s hs ⟨y, hy, hlt⟩
    exact not_le.mpr hlt ((List.pairwise_cons.mp (hwithin s hs)).1 y hy)
  · intro hflat
    refine ⟨fun s hs => ?_, ?_⟩
    · refine List.Pairwise.imp_of_mem (fun {a b} ha hb _ => ?_) (List.pairwise_of_forall (fun _ _ => trivial))
      rw [s.values_eq (hflat s hs) a ha, s.values_eq (hflat s hs) b hb]
    · refine List.Pairwise.imp_of_mem (fun {a b} _ hb hlt x hx y hy => ?_) (stretches_peaks xs)
      rw [Stretch.values_eq (hflat b hb) y hy]
      exact (a.values_le x hx).trans hlt.le

end Stretches

end Propfirm.Curve
