import Mathlib.Data.List.Induction
import Propfirm.Lib.Keyed

/-!
# Directories under edits

Items are entered, and the items of keys are removed. What the directory holds after a sequence of edits,
and in which order, is read off the sequence.
-/

namespace Propfirm

/-- An item is entered, or the item of a key is removed. -/
inductive Edit (α κ : Type) where
  | enter (x : α)
  | remove (k : κ)

def Edit.key {α κ : Type} (itemKey : α → κ) : Edit α κ → κ
  | .enter x => itemKey x
  | .remove k => k

variable {α κ : Type} {key : α → κ} {xs : List α} {x y : α} {edits : List (Edit α κ)} {e : Edit α κ}
  {k : κ} {n m : ℕ}

/-! ## What is held -/

theorem concat_eq_append_cons {before after : List α} :
    xs ++ [x] = before ++ y :: after ↔
      before = xs ∧ y = x ∧ after = [] ∨ ∃ rest, after = rest ++ [x] ∧ xs = before ++ y :: rest := by
  rcases List.eq_nil_or_concat' after with rfl | ⟨rest, z, rfl⟩
  · rw [List.append_singleton_inj]
    constructor
    · rintro ⟨rfl, rfl⟩
      exact .inl ⟨rfl, rfl, rfl⟩
    · rintro (⟨rfl, rfl, -⟩ | ⟨rest, hrest, -⟩)
      · exact ⟨rfl, rfl⟩
      · simp at hrest
  · rw [← List.cons_append, ← List.append_assoc, List.append_singleton_inj]
    simp only [List.append_singleton_inj, List.append_eq_nil_iff, List.cons_ne_nil, and_false, false_or]
    constructor
    · rintro ⟨rfl, rfl⟩
      exact ⟨rest, ⟨rfl, rfl⟩, rfl⟩
    · rintro ⟨rest, ⟨rfl, rfl⟩, rfl⟩
      exact ⟨rfl, rfl⟩

theorem lastOfKey_concat : LastOfKey key (xs ++ [x]) y ↔ y = x ∨ LastOfKey key xs y ∧ key y ≠ key x := by
  unfold LastOfKey
  simp only [concat_eq_append_cons]
  constructor
  · rintro ⟨before, after, ⟨-, rfl, -⟩ | ⟨rest, rfl, rfl⟩, hafter⟩
    · exact .inl rfl
    · rw [List.map_append, List.mem_append, not_or] at hafter
      exact .inr ⟨⟨before, rest, rfl, hafter.1⟩, by simpa using hafter.2⟩
  · rintro (rfl | ⟨⟨before, rest, rfl, hrest⟩, hne⟩)
    · exact ⟨xs, [], .inl ⟨rfl, rfl, rfl⟩, by simp⟩
    · refine ⟨before, rest ++ [x], .inr ⟨rest, rfl, rfl⟩, ?_⟩
      rw [List.map_append, List.mem_append, not_or]
      exact ⟨hrest, by simpa using hne⟩

/-- The item was the last to be entered for its key, which has not been removed since. -/
def Held (key : α → κ) (edits : List (Edit α κ)) (x : α) : Prop :=
  LastOfKey (Edit.key key) edits (.enter x)

theorem not_held_nil : ¬Held key [] x := not_lastOfKey_nil

theorem held_enter : Held key (edits ++ [.enter x]) y ↔ y = x ∨ Held key edits y ∧ key y ≠ key x := by
  rw [Held, lastOfKey_concat, Edit.enter.injEq]
  rfl

theorem held_remove : Held key (edits ++ [.remove k]) y ↔ Held key edits y ∧ key y ≠ k := by
  rw [Held, lastOfKey_concat]
  simp [Held, Edit.key]

/-! ## Since when -/

def HoldsKey (key : α → κ) (edits : List (Edit α κ)) (k : κ) : Prop := ∃ x, Held key edits x ∧ key x = k

theorem not_holdsKey_nil : ¬HoldsKey key [] k := fun ⟨_, h, _⟩ => not_held_nil h

theorem holdsKey_enter : HoldsKey key (edits ++ [.enter x]) k ↔ k = key x ∨ HoldsKey key edits k := by
  simp only [HoldsKey, held_enter]
  constructor
  · rintro ⟨y, rfl | ⟨hy, -⟩, rfl⟩
    · exact .inl rfl
    · exact .inr ⟨y, hy, rfl⟩
  · intro h
    by_cases hkey : k = key x
    · exact ⟨x, .inl rfl, hkey.symm⟩
    · obtain ⟨y, hy, rfl⟩ := h.resolve_left hkey
      exact ⟨y, .inr ⟨hy, hkey⟩, rfl⟩

theorem holdsKey_remove {j : κ} : HoldsKey key (edits ++ [.remove j]) k ↔ k ≠ j ∧ HoldsKey key edits k := by
  simp only [HoldsKey, held_remove]
  constructor
  · rintro ⟨y, ⟨hy, hne⟩, rfl⟩
    exact ⟨hne, y, hy, rfl⟩
  · rintro ⟨hne, y, hy, rfl⟩
    exact ⟨y, ⟨hy, hne⟩, rfl⟩

/-- The place of the edit by which the key came in: it was not held before, and has not been removed
since. -/
def OpenedAt (key : α → κ) (edits : List (Edit α κ)) (k : κ) (n : ℕ) : Prop :=
  ∃ before x after, edits = before ++ .enter x :: after ∧ before.length = n ∧ key x = k ∧
    ¬HoldsKey key before k ∧ .remove k ∉ after

theorem not_openedAt_nil : ¬OpenedAt key [] k n := by
  rintro ⟨before, x, after, heq, -⟩
  simp at heq

theorem OpenedAt.lt (h : OpenedAt key edits k n) : n < edits.length := by
  obtain ⟨before, x, after, rfl, rfl, -⟩ := h
  simp

theorem openedAt_concat :
    OpenedAt key (edits ++ [e]) k n ↔
      OpenedAt key edits k n ∧ e ≠ .remove k ∨
        n = edits.length ∧ ¬HoldsKey key edits k ∧ ∃ x, e = .enter x ∧ key x = k := by
  simp only [OpenedAt, concat_eq_append_cons]
  constructor
  · rintro ⟨before, x, after, ⟨rfl, rfl, -⟩ | ⟨rest, rfl, rfl⟩, rfl, hkey, hnew, hafter⟩
    · exact .inr ⟨rfl, hnew, x, rfl, hkey⟩
    · rw [List.mem_append, not_or] at hafter
      exact .inl ⟨⟨before, x, rest, rfl, rfl, hkey, hnew, hafter.1⟩,
        fun he => hafter.2 (List.mem_singleton.mpr he.symm)⟩
  · rintro (⟨⟨before, x, rest, rfl, rfl, hkey, hnew, hrest⟩, hne⟩ | ⟨rfl, hnew, x, rfl, hkey⟩)
    · refine ⟨before, x, rest ++ [e], .inr ⟨rest, rfl, rfl⟩, rfl, hkey, hnew, ?_⟩
      rw [List.mem_append, not_or]
      exact ⟨hrest, fun he => hne (List.mem_singleton.mp he).symm⟩
    · exact ⟨edits, x, [], .inl ⟨rfl, rfl, rfl⟩, rfl, hkey, hnew, List.not_mem_nil⟩

theorem exists_openedAt : (∃ n, OpenedAt key edits k n) ↔ HoldsKey key edits k := by
  induction edits using List.reverseRecOn with
  | nil => exact iff_of_false (fun ⟨_, h⟩ => not_openedAt_nil h) not_holdsKey_nil
  | append_singleton edits e ih =>
      simp only [openedAt_concat, exists_or, exists_and_right, ih]
      cases e with
      | enter x =>
          rw [holdsKey_enter]
          by_cases hheld : HoldsKey key edits k
          · simp [hheld]
          · simp [hheld, eq_comm]
      | remove j =>
          rw [holdsKey_remove]
          simp [eq_comm, and_comm]

theorem OpenedAt.unique (hn : OpenedAt key edits k n) (hm : OpenedAt key edits k m) : n = m := by
  induction edits using List.reverseRecOn with
  | nil => exact absurd hn not_openedAt_nil
  | append_singleton edits e ih =>
      rcases openedAt_concat.mp hn with ⟨hn, -⟩ | ⟨rfl, hnew, -⟩
      · rcases openedAt_concat.mp hm with ⟨hm, -⟩ | ⟨rfl, hnew, -⟩
        · exact ih hn hm
        · exact absurd (exists_openedAt.mp ⟨n, hn⟩) hnew
      · rcases openedAt_concat.mp hm with ⟨hm, -⟩ | ⟨rfl, -, -⟩
        · exact absurd (exists_openedAt.mp ⟨m, hm⟩) hnew
        · rfl

/-! ## The directory -/

namespace Directory

variable [DecidableEq κ] {d : Directory key}

def remove (d : Directory key) (k : κ) : Directory key where
  items := d.items.filter fun x => key x ≠ k
  nodup := d.nodup.sublist (List.filter_sublist.map key)

theorem remove_of_not_mem (h : k ∉ d.items.map key) : d.remove k = d := by
  have hitems : (d.remove k).items = d.items :=
    List.filter_eq_self.mpr fun x hx => decide_eq_true fun heq => h (heq ▸ List.mem_map_of_mem hx)
  cases d
  exact (Directory.mk.injEq ..).mpr hitems

theorem map_remove : (d.remove k).items.map key = (d.items.map key).filter (· ≠ k) := by
  rw [List.filter_map]
  rfl

/-- At the place of its key, the item can also be erased. -/
theorem eraseIdx_eq_remove {idx : ℕ} (h : (d.items.map key)[idx]? = some k) :
    d.items.eraseIdx idx = (d.remove k).items := by
  obtain ⟨hlt, hget⟩ := List.getElem?_eq_some_iff.mp h
  have hlt' : idx < d.items.length := by simpa using hlt
  have hkey : key d.items[idx] = k := by simpa using hget
  have hsplit : d.items = d.items.take idx ++ d.items[idx] :: d.items.drop (idx + 1) := by simp
  have hnodup := d.nodup
  rw [hsplit, List.map_append, List.map_cons, List.nodup_append', List.nodup_cons, hkey] at hnodup
  obtain ⟨-, ⟨hafter, -⟩, hdisjoint⟩ := hnodup
  have hkeep {items : List α} (hnot : k ∉ items.map key) : items.filter (fun x => key x ≠ k) = items :=
    List.filter_eq_self.mpr fun x hx => decide_eq_true fun heq => hnot (heq ▸ List.mem_map_of_mem hx)
  have hbefore : k ∉ (d.items.take idx).map key := fun hmem => hdisjoint hmem (by simp)
  calc d.items.eraseIdx idx
      = d.items.take idx ++ d.items.drop (idx + 1) := List.eraseIdx_eq_take_drop_succ ..
    _ = (d.items.take idx ++ d.items[idx] :: d.items.drop (idx + 1)).filter (fun x => key x ≠ k) := by
        rw [List.filter_append, List.filter_cons_of_neg (by simp [hkey]), hkeep hbefore, hkeep hafter]
    _ = (d.remove k).items := by rw [← hsplit]; rfl

def edit (d : Directory key) : Edit α κ → Directory key
  | .enter x => d.enter x
  | .remove k => d.remove k

/-- The directory after a sequence of edits. -/
def edited (key : α → κ) (edits : List (Edit α κ)) : Directory key := edits.foldl edit empty

theorem edited_concat : edited key (edits ++ [e]) = (edited key edits).edit e := by
  simp [edited]

theorem mem_edited : y ∈ (edited key edits).items ↔ Held key edits y := by
  induction edits using List.reverseRecOn with
  | nil => exact iff_of_false List.not_mem_nil not_held_nil
  | append_singleton edits e ih =>
      rw [edited_concat]
      cases e with
      | enter x => rw [held_enter, edit, mem_enter, ih]
      | remove k => simp only [held_remove, edit, remove, List.mem_filter, ih, decide_eq_true_eq]

theorem mem_map_edited : k ∈ (edited key edits).items.map key ↔ HoldsKey key edits k := by
  simp only [List.mem_map, mem_edited, HoldsKey]

/-- The keys stand in the order in which they came in. -/
theorem edited_pairwise :
    ((edited key edits).items.map key).Pairwise fun k k' =>
      ∀ n m, OpenedAt key edits k n → OpenedAt key edits k' m → n < m := by
  induction edits using List.reverseRecOn with
  | nil => exact .nil
  | append_singleton edits e ih =>
      rw [edited_concat]
      have hstill {k : κ} {n : ℕ} (hk : HoldsKey key edits k) (h : OpenedAt key (edits ++ [e]) k n) :
          OpenedAt key edits k n := by
        rcases openedAt_concat.mp h with ⟨h, -⟩ | ⟨-, hnew, -⟩
        · exact h
        · exact absurd hk hnew
      have hold : ((edited key edits).items.map key).Pairwise fun k k' =>
          ∀ n m, OpenedAt key (edits ++ [e]) k n → OpenedAt key (edits ++ [e]) k' m → n < m :=
        ih.imp_of_mem fun hk hk' hlt n m hn hm =>
          hlt n m (hstill (mem_map_edited.mp hk) hn) (hstill (mem_map_edited.mp hk') hm)
      cases e with
      | enter x =>
          by_cases hmem : key x ∈ (edited key edits).items.map key
          · rw [edit, items_enter_of_mem hmem, map_replace]
            exact hold
          · rw [edit, items_enter_of_not_mem hmem, List.map_append, List.pairwise_append]
            refine ⟨hold, List.pairwise_singleton _ _, fun k hk k' hk' n m hn hm => ?_⟩
            obtain rfl := List.mem_singleton.mp hk'
            have hlt := (hstill (mem_map_edited.mp hk) hn).lt
            rcases openedAt_concat.mp hm with ⟨hm, -⟩ | ⟨rfl, -, -⟩
            · exact absurd (mem_map_edited.mpr (exists_openedAt.mp ⟨m, hm⟩)) hmem
            · exact hlt
      | remove j =>
          rw [edit, map_remove]
          exact hold.sublist List.filter_sublist

end Directory

end Propfirm
