import Mathlib.Data.List.Basic

/-!
# Records written one after another

A list of records is written to a stream without separators. A reader that knows what can follow a
record gets the list back.
-/

namespace Propfirm.Records

variable {α τ : Type}

/-- A stream at which a list of records has ended: it can follow a record, and does not start with
a record that is followed properly. -/
def Ends (enc : α → List τ) (Next : List τ → Prop) (r : List τ) : Prop :=
  Next r ∧ ∀ a t, Next t → r ≠ enc a ++ t

variable {enc : α → List τ} {Next : List τ → Prop} {r s : List τ}

theorem next_flatMap (hnext : ∀ a t, Next (enc a ++ t)) (h : Next r) (xs : List α) :
    Next (xs.flatMap enc ++ r) := by
  cases xs with
  | nil => exact h
  | cons x xs => simpa using hnext x (xs.flatMap enc ++ r)

/-- Records of one length that end properly are determined by the stream, and so is the rest. -/
theorem flatMap_append_inj (hlen : ∀ a b, (enc a).length = (enc b).length)
    (hnext : ∀ a t, Next (enc a ++ t)) (hr : Ends enc Next r) (hs : Ends enc Next s)
    {xs ys : List α} (h : xs.flatMap enc ++ r = ys.flatMap enc ++ s) :
    xs.map enc = ys.map enc ∧ r = s := by
  induction xs generalizing ys with
  | nil =>
      cases ys with
      | nil => exact ⟨rfl, h⟩
      | cons y ys =>
          have hne := hr.2 y _ (next_flatMap hnext hs.1 ys)
          exact absurd (by simpa using h) hne
  | cons x xs ih =>
      cases ys with
      | nil =>
          have hne := hs.2 x _ (next_flatMap hnext hr.1 xs)
          exact absurd (by simpa using h.symm) hne
      | cons y ys =>
          simp only [List.flatMap_cons, List.append_assoc] at h
          obtain ⟨hhead, htail⟩ := List.append_inj h (hlen x y)
          obtain ⟨hmap, hrest⟩ := ih htail
          exact ⟨by simp [hhead, hmap], hrest⟩

theorem elim_append_inj (hlen : ∀ a b, (enc a).length = (enc b).length)
    (hnext : ∀ a t, Next (enc a ++ t)) (hr : Ends enc Next r) (hs : Ends enc Next s)
    {x y : Option α} (h : x.elim [] enc ++ r = y.elim [] enc ++ s) :
    x.map enc = y.map enc ∧ r = s := by
  have hlist (z : Option α) : z.elim [] enc = z.toList.flatMap enc := by cases z <;> simp
  rw [hlist, hlist] at h
  obtain ⟨hmap, hrest⟩ := flatMap_append_inj hlen hnext hr hs h
  refine ⟨?_, hrest⟩
  cases x <;> cases y <;> simp_all

theorem map_pair_eq {β γ : Type} {f : α → β} {g : α → γ} {xs ys : List α}
    (hf : xs.map f = ys.map f) (hg : xs.map g = ys.map g) :
    xs.map (fun a => (f a, g a)) = ys.map fun a => (f a, g a) := by
  rw [← List.zip_map', ← List.zip_map', hf, hg]

/-- A view is determined by one that tells at least as much. -/
theorem map_eq_of_map_eq {β δ : Type} {f : α → β} {k : α → δ} (hk : ∀ a b, f a = f b → k a = k b)
    {xs ys : List α} (h : xs.map f = ys.map f) : xs.map k = ys.map k := by
  induction xs generalizing ys with
  | nil =>
      rw [List.map_nil, eq_comm, List.map_eq_nil_iff] at h
      rw [h]
  | cons x xs ih =>
      cases ys with
      | nil => simp at h
      | cons y ys =>
          obtain ⟨hhead, htail⟩ := List.cons.inj h
          exact congrArg₂ List.cons (hk x y hhead) (ih htail)

theorem optionMap_pair_eq {β γ : Type} {f : α → β} {g : α → γ} {x y : Option α}
    (hf : x.map f = y.map f) (hg : x.map g = y.map g) :
    x.map (fun a => (f a, g a)) = y.map fun a => (f a, g a) := by
  cases x <;> cases y <;> simp_all

theorem optionMap_eq_of_map_eq {β δ : Type} {f : α → β} {k : α → δ}
    (hk : ∀ a b, f a = f b → k a = k b) {x y : Option α} (h : x.map f = y.map f) :
    x.map k = y.map k := by
  cases x with
  | none => simpa [eq_comm] using h
  | some a =>
      cases y with
      | none => simp at h
      | some b => exact congrArg some (hk a b (Option.some.inj h))

end Propfirm.Records
