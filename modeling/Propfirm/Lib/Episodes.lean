import Mathlib.Data.List.Basic

/-!
# Remembering the state before an outage

A system is up or down. While it is down it remembers one state. The memory is right when it is empty
while the system is up, and holds the last state it was up in while it is down. Histories list the
latest state first.
-/

namespace Propfirm.Episodes

variable {σ : Type} {down : σ → Bool} {s t : σ} {history : List σ} {memory : Option σ}

def lastUp (down : σ → Bool) (history : List σ) : Option σ := history.find? fun s => !down s

/-- The memory is right for a history. -/
def Remembers (down : σ → Bool) : List σ → Option σ → Prop
  | [], _ => False
  | s :: rest, memory =>
      if down s then memory.isSome ∧ memory = lastUp down (s :: rest) else memory = none

theorem lastUp_cons_down (h : down s = true) : lastUp down (s :: history) = lastUp down history := by
  simp [lastUp, h]

theorem lastUp_cons_up (h : down s = false) : lastUp down (s :: history) = some s := by
  simp [lastUp, h]

theorem Remembers.of_down (h : Remembers down (s :: history) memory) (hs : down s = true) :
    memory.isSome ∧ memory = lastUp down (s :: history) := by
  simpa [Remembers, hs] using h

theorem Remembers.of_up (h : Remembers down (s :: history) memory) (hs : down s = false) :
    memory = none := by
  simpa [Remembers, hs] using h

theorem Remembers.down_intro (hs : down s = true) (hm : memory.isSome)
    (hl : memory = lastUp down history) : Remembers down (s :: history) memory := by
  simp only [Remembers, hs, if_true, lastUp_cons_down hs]
  exact ⟨hm, hl⟩

theorem Remembers.up_intro (hs : down s = false) : Remembers down (s :: history) none := by
  simp [Remembers, hs]

theorem Remembers.up_of_memory {u : σ} (h : Remembers down (s :: history) (some u)) :
    down u = false := by
  cases hs : down s with
  | false => cases h.of_up hs
  | true => simpa [lastUp] using List.find?_some (h.of_down hs).2.symm

theorem Remembers.stay (h : Remembers down (s :: history) memory) :
    Remembers down (s :: s :: history) memory := by
  cases hs : down s with
  | false => rw [h.of_up hs]; exact .up_intro hs
  | true => exact .down_intro hs (h.of_down hs).1 (h.of_down hs).2

theorem Remembers.move (h : Remembers down (s :: history) memory) (hs : down s = false)
    (ht : down t = false) : Remembers down (t :: s :: history) memory := by
  rw [h.of_up hs]
  exact .up_intro ht

/-- Going down from a state that is up remembers it. -/
theorem Remembers.fall (hs : down s = false) (ht : down t = true) :
    Remembers down (t :: s :: history) (some s) :=
  .down_intro ht rfl (lastUp_cons_up hs).symm

/-- Going down with a memory that is only filled when it is empty. -/
theorem Remembers.stop (h : Remembers down (s :: history) memory) (ht : down t = true) :
    Remembers down (t :: s :: history) (if memory.isNone then some s else memory) := by
  cases hs : down s with
  | false => rw [h.of_up hs]; exact .fall hs ht
  | true =>
      obtain ⟨hm, hl⟩ := h.of_down hs
      rw [if_neg (by simpa [Option.isSome_iff_ne_none] using hm)]
      exact .down_intro ht hm hl

/-- Coming up in the remembered state. -/
theorem Remembers.clear (h : Remembers down (s :: history) memory) (hs : down s = true) :
    ∃ u, memory = some u ∧ lastUp down (s :: history) = some u ∧
      Remembers down (u :: s :: history) none := by
  obtain ⟨hm, hl⟩ := h.of_down hs
  obtain ⟨u, rfl⟩ := Option.isSome_iff_exists.mp hm
  exact ⟨u, rfl, hl.symm, .up_intro h.up_of_memory⟩

end Propfirm.Episodes
