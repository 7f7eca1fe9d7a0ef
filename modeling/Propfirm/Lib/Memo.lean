import Mathlib.Data.List.Induction
import Mathlib.Logic.Function.Basic

/-!
# Memo tables

A table that stores what it built under a key of the argument. Arguments that share a key share what
was built for the first of them.
-/

namespace Propfirm.Memo

variable {α κ β : Type} [DecidableEq κ]

abbrev Table (κ β : Type) := κ → Option β

/-- Looks an argument up by its key, or builds its value and stores it. -/
def get (key : α → κ) (build : α → β) (table : Table κ β) (x : α) : β × Table κ β :=
  match table (key x) with
  | some b => (b, table)
  | none => (build x, Function.update table (key x) (some (build x)))

def after (key : α → κ) (build : α → β) (table : Table κ β) (xs : List α) : Table κ β :=
  xs.foldl (fun table x => (get key build table x).2) table

def first (key : α → κ) (k : κ) (xs : List α) : Option α := xs.find? fun x => key x = k

variable {key : α → κ} {build : α → β} {xs : List α}

/-- The table holds what was built for the first argument of each key. -/
def Holds (key : α → κ) (build : α → β) (xs : List α) (table : Table κ β) : Prop :=
  ∀ k, table k = (first key k xs).map build

theorem first_append_singleton (k : κ) (x : α) :
    first key k (xs ++ [x]) = (first key k xs).or (if key x = k then some x else none) := by
  by_cases h : key x = k <;> simp [first, List.find?_append, h]

theorem Holds.get {table : Table κ β} (h : Holds key build xs table) (x : α) :
    Holds key build (xs ++ [x]) (get key build table x).2 := by
  intro k
  rw [first_append_singleton]
  unfold Memo.get
  split
  · rename_i b hb
    change table k = _
    rw [h k]
    by_cases hk : key x = k
    · -- the key is taken, so the first argument with it comes earlier
      rw [h, hk] at hb
      obtain ⟨y, hy, -⟩ := Option.map_eq_some_iff.mp hb
      simp [hy]
    · simp [hk]
  · rename_i hb
    rw [h] at hb
    by_cases hk : key x = k
    · subst hk
      simp [Option.map_eq_none_iff.mp hb]
    · simp [Function.update_of_ne (Ne.symm hk), hk, h k]

/-- From the empty table, every entry was built for the first argument of its key. -/
theorem after_holds (key : α → κ) (build : α → β) (xs : List α) :
    Holds key build xs (after key build (fun _ => none) xs) := by
  induction xs using List.reverseRecOn with
  | nil => exact fun k => rfl
  | append_singleton xs x ih =>
      rw [after, List.foldl_append]
      exact ih.get x

/-- A lookup returns what was built for the first argument of its key, itself included. -/
theorem get_eq {table : Table κ β} (h : Holds key build xs table) (x : α) :
    ∃ y, first key (key x) (xs ++ [x]) = some y ∧ (get key build table x).1 = build y := by
  rw [first_append_singleton, if_pos rfl]
  unfold Memo.get
  split
  · rename_i b hb
    rw [h] at hb
    obtain ⟨y, hy, rfl⟩ := Option.map_eq_some_iff.mp hb
    exact ⟨y, by simp [hy], rfl⟩
  · rename_i hb
    rw [h] at hb
    exact ⟨x, by simp [Option.map_eq_none_iff.mp hb], rfl⟩

end Propfirm.Memo
