import Mathlib.Data.List.Nodup

/-!
# Lists with one item for each key

An item that is entered takes the place of the one of its key. If there is none, it goes to the end.
-/

namespace Propfirm

variable {α κ : Type} {key : α → κ} {xs : List α} {x y : α}

/-! ## The last item of a key -/

def LastOfKey (key : α → κ) (xs : List α) (x : α) : Prop :=
  ∃ before after, xs = before ++ x :: after ∧ key x ∉ after.map key

theorem LastOfKey.mem (h : LastOfKey key xs x) : x ∈ xs := by
  obtain ⟨before, after, rfl, -⟩ := h
  simp

theorem not_lastOfKey_nil : ¬LastOfKey key [] x := fun h => List.not_mem_nil h.mem

theorem lastOfKey_cons :
    LastOfKey key (x :: xs) y ↔ LastOfKey key xs y ∨ y = x ∧ key y ∉ xs.map key := by
  constructor
  · rintro ⟨before, after, heq, hafter⟩
    cases before with
    | nil =>
        obtain ⟨rfl, rfl⟩ := List.cons.inj heq
        exact .inr ⟨rfl, hafter⟩
    | cons z before => exact .inl ⟨before, after, (List.cons.inj heq).2, hafter⟩
  · rintro (⟨before, after, rfl, hafter⟩ | ⟨rfl, hafter⟩)
    · exact ⟨x :: before, after, rfl, hafter⟩
    · exact ⟨[], xs, rfl, hafter⟩

theorem LastOfKey.eq (hx : LastOfKey key xs x) (hy : LastOfKey key xs y) (hkey : key x = key y) : x = y := by
  induction xs with
  | nil => exact absurd hx not_lastOfKey_nil
  | cons z xs ih =>
      rcases lastOfKey_cons.mp hx with hlater | ⟨rfl, hnot⟩
      · rcases lastOfKey_cons.mp hy with hlater' | ⟨rfl, hnot⟩
        · exact ih hlater hlater'
        · exact absurd (hkey ▸ List.mem_map_of_mem hlater.mem) hnot
      · rcases lastOfKey_cons.mp hy with hlater | ⟨rfl, -⟩
        · exact absurd (hkey ▸ List.mem_map_of_mem hlater.mem) hnot
        · rfl

theorem exists_lastOfKey (key : α → κ) {k : κ} (h : k ∈ xs.map key) :
    ∃ y, LastOfKey key xs y ∧ key y = k := by
  induction xs with
  | nil => cases h
  | cons x xs ih =>
      by_cases hlater : k ∈ xs.map key
      · obtain ⟨y, hy, hkey⟩ := ih hlater
        exact ⟨y, lastOfKey_cons.mpr (.inl hy), hkey⟩
      · rcases List.mem_cons.mp h with rfl | h
        · exact ⟨x, lastOfKey_cons.mpr (.inr ⟨rfl, hlater⟩), rfl⟩
        · exact absurd h hlater

theorem lastOfKey_congr {κ' : Type} {key' : α → κ'} (h : ∀ x y, key x = key y ↔ key' x = key' y) :
    LastOfKey key xs x ↔ LastOfKey key' xs x := by
  simp only [LastOfKey, List.mem_map, h]

theorem lastOfKey_map {β : Type} {f : α → β} {key : β → κ} {y : β} :
    LastOfKey key (xs.map f) y ↔ ∃ x, LastOfKey (key ∘ f) xs x ∧ f x = y := by
  induction xs with
  | nil => simp [not_lastOfKey_nil]
  | cons x xs ih =>
      rw [List.map_cons, lastOfKey_cons, ih, List.map_map]
      constructor
      · rintro (⟨z, hz, rfl⟩ | ⟨rfl, hnot⟩)
        · exact ⟨z, lastOfKey_cons.mpr (.inl hz), rfl⟩
        · exact ⟨x, lastOfKey_cons.mpr (.inr ⟨rfl, hnot⟩), rfl⟩
      · rintro ⟨z, hz, rfl⟩
        rcases lastOfKey_cons.mp hz with hlater | ⟨rfl, hnot⟩
        · exact .inl ⟨z, hlater, rfl⟩
        · exact .inr ⟨rfl, hnot⟩

/-! ## Directories -/

structure Directory (key : α → κ) where
  items : List α
  nodup : (items.map key).Nodup

namespace Directory

variable [DecidableEq κ] {d : Directory key}

def empty : Directory key := ⟨[], .nil⟩

/-- The items with `x` in the place of those of its key. -/
def replace (key : α → κ) (items : List α) (x : α) : List α :=
  items.map fun y => if key y = key x then x else y

theorem map_replace (items : List α) (x : α) : (replace key items x).map key = items.map key := by
  simp only [replace, List.map_map]
  refine List.map_congr_left fun y _ => ?_
  simp only [Function.comp_apply]
  split
  · rename_i hkey
    exact hkey.symm
  · rfl

theorem mem_replace {items : List α} (h : key x ∈ items.map key) :
    y ∈ replace key items x ↔ y = x ∨ y ∈ items ∧ key y ≠ key x := by
  simp only [replace, List.mem_map]
  constructor
  · rintro ⟨z, hz, rfl⟩
    split
    · exact .inl rfl
    · rename_i hkey
      exact .inr ⟨hz, hkey⟩
  · rintro (rfl | ⟨hy, hkey⟩)
    · obtain ⟨z, hz, hkey⟩ := List.mem_map.mp h
      exact ⟨z, hz, if_pos hkey⟩
    · exact ⟨y, hy, if_neg hkey⟩

/-- At the place of its key, an item can also be set. -/
theorem set_eq_replace (d : Directory key) {idx : ℕ} (h : d.items[idx]?.map key = some (key x)) :
    d.items.set idx x = replace key d.items x := by
  obtain ⟨z, hz, hkey⟩ := Option.map_eq_some_iff.mp h
  obtain ⟨hlt, hz⟩ := List.getElem?_eq_some_iff.mp hz
  refine List.ext_getElem (by simp [replace]) fun i hi hi' => ?_
  simp only [replace, List.getElem_map, List.getElem_set]
  have hi : i < d.items.length := by simpa using hi
  have hiff : idx = i ↔ key d.items[i] = key x := by
    rw [← hkey, ← hz, ← List.getElem_map key (h := by simpa using hi),
      ← List.getElem_map key (h := by simpa using hlt), d.nodup.getElem_inj_iff, eq_comm]
  by_cases heq : idx = i
  · rw [if_pos heq, if_pos (hiff.mp heq)]
  · rw [if_neg heq, if_neg (heq ∘ hiff.mpr)]

def enter (d : Directory key) (x : α) : Directory key :=
  if h : key x ∈ d.items.map key then ⟨replace key d.items x, by rw [map_replace]; exact d.nodup⟩
  else
    { items := d.items ++ [x]
      nodup := by
        rw [List.map_append]
        exact List.nodup_append'.mpr
          ⟨d.nodup, List.nodup_singleton _, by simpa using List.mem_map.not.mp h⟩ }

theorem items_enter_of_mem (h : key x ∈ d.items.map key) : (d.enter x).items = replace key d.items x := by
  rw [enter, dif_pos h]

theorem items_enter_of_not_mem (h : key x ∉ d.items.map key) : (d.enter x).items = d.items ++ [x] := by
  rw [enter, dif_neg h]

/-- A new key stands at the end and nowhere else. -/
theorem getElem?_enter_of_not_mem (h : key x ∉ d.items.map key) {k : κ} {idx : ℕ} :
    ((d.enter x).items.map key)[idx]? = some k ↔
      if k = key x then idx = d.items.length else (d.items.map key)[idx]? = some k := by
  rw [items_enter_of_not_mem h, List.map_append, List.map_singleton]
  have hlength : (d.items.map key).length = d.items.length := List.length_map _
  rcases Nat.lt_trichotomy idx d.items.length with hlt | rfl | hgt
  · rw [List.getElem?_append_left (hlength ▸ hlt)]
    split
    · rename_i heq
      exact iff_of_false (fun hget => h (heq ▸ List.mem_of_getElem? hget)) (Nat.ne_of_lt hlt)
    · rfl
  · rw [← hlength, List.getElem?_concat_length, List.getElem?_eq_none (Nat.le_refl _), Option.some_inj]
    split
    · rename_i heq
      exact iff_of_true heq.symm rfl
    · rename_i hne
      exact iff_of_false (fun heq => hne heq.symm) (by simp)
  · rw [List.getElem?_eq_none (by simp; omega), List.getElem?_eq_none (by simp; omega)]
    split
    · exact iff_of_false (by simp) (Nat.ne_of_gt hgt)
    · rfl

theorem mem_enter : y ∈ (d.enter x).items ↔ y = x ∨ y ∈ d.items ∧ key y ≠ key x := by
  by_cases h : key x ∈ d.items.map key
  · rw [items_enter_of_mem h]
    exact mem_replace h
  · have hne (hy : y ∈ d.items) : key y ≠ key x := fun hkey => h (hkey ▸ List.mem_map_of_mem hy)
    rw [items_enter_of_not_mem h, List.mem_append, List.mem_singleton, or_comm]
    exact or_congr_right ⟨fun hy => ⟨hy, hne hy⟩, And.left⟩

/-- Of the items that are entered, the last of each key stays. -/
theorem mem_foldl_enter :
    y ∈ (xs.foldl enter d).items ↔ LastOfKey key xs y ∨ y ∈ d.items ∧ key y ∉ xs.map key := by
  induction xs generalizing d with
  | nil => simp [not_lastOfKey_nil]
  | cons x xs ih =>
      rw [List.foldl_cons, ih, mem_enter, lastOfKey_cons, List.map_cons, List.mem_cons, not_or,
        or_assoc]
      refine or_congr_right ?_
      rw [or_and_right, and_assoc]

theorem mem_foldl_enter_empty : y ∈ (xs.foldl enter (empty : Directory key)).items ↔ LastOfKey key xs y := by
  rw [mem_foldl_enter]
  simp [empty]

/-- A map that keeps the keys can be applied before or after the items are entered. -/
theorem items_foldl_enter_map {β : Type} {f : α → β} {key' : β → κ} (hkey : ∀ x, key' (f x) = key x)
    {d' : Directory key'} (hd : d'.items = d.items.map f) :
    ((xs.map f).foldl enter d').items = (xs.foldl enter d).items.map f := by
  induction xs generalizing d d' with
  | nil => exact hd
  | cons x xs ih =>
      refine ih ?_
      have hkeys : d'.items.map key' = d.items.map key := by
        rw [hd, List.map_map]
        exact List.map_congr_left fun y _ => hkey y
      by_cases h : key x ∈ d.items.map key
      · rw [items_enter_of_mem h, items_enter_of_mem (by rwa [hkeys, hkey]), hd]
        simp only [replace, List.map_map, Function.comp_def, hkey, apply_ite f]
      · rw [items_enter_of_not_mem h, items_enter_of_not_mem (by rwa [hkeys, hkey]), hd, List.map_append,
          List.map_singleton]

end Directory

end Propfirm
