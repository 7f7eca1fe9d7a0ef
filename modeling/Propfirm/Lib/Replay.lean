import Propfirm.Lib.Fallible

/-!
# Replaying a log

A log is replayed by applying its entries one after the other. A system that extends the log with
every step is reproduced by the replay if what each step writes takes every state that agrees with the
system before it to one that agrees with it after.
-/

namespace Propfirm.Replay

open Fallible

variable {σ ε α β φ : Type} {apply : σ → ε → Except φ σ}

def replay (apply : σ → ε → Except φ σ) (s : σ) (log : List ε) : Except φ σ := log.foldlM apply s

theorem replay_cons (s : σ) (x : ε) (log : List ε) :
    replay apply s (x :: log) = apply s x >>= fun s' => replay apply s' log := rfl

theorem replay_append (s : σ) (xs ys : List ε) :
    replay apply s (xs ++ ys) = replay apply s xs >>= fun s' => replay apply s' ys := by
  simp only [replay, List.foldlM_append]

/-- Entries that apply wherever `Inv` holds and keep it, with a known effect on a reading: the replay
folds the effects. -/
theorem replay_reading (Inv : σ → Prop) (read : σ → β) (effect : β → ε → β) {log : List ε}
    (h : ∀ x ∈ log, ∀ s, Inv s → ∃ s', apply s x = .ok s' ∧ Inv s' ∧ read s' = effect (read s) x)
    {s : σ} (hs : Inv s) :
    ∃ s', replay apply s log = .ok s' ∧ Inv s' ∧ read s' = log.foldl effect (read s) := by
  induction log generalizing s with
  | nil => exact ⟨s, rfl, hs, rfl⟩
  | cons x log ih =>
      obtain ⟨s₁, hs₁, hinv₁, hread₁⟩ := h x List.mem_cons_self s hs
      obtain ⟨s₂, hs₂, hinv₂, hread₂⟩ := ih (fun y hy => h y (List.mem_cons_of_mem x hy)) hinv₁
      refine ⟨s₂, ?_, hinv₂, ?_⟩
      · rw [replay_cons, hs₁]
        exact hs₂
      · rw [hread₂, hread₁, List.foldl_cons]

/-- The log, replayed from `start`, ends in a state that agrees with `a`. -/
def Reproduces (apply : σ → ε → Except φ σ) (Agrees : α → σ → Prop) (start : σ) (a : α)
    (log : List ε) : Prop :=
  ∃ s, replay apply start log = .ok s ∧ Agrees a s

theorem Reproduces.extend {Agrees Agrees' : α → σ → Prop} {start : σ} {a b : α} {log new : List ε}
    (h : Reproduces apply Agrees start a log)
    (hstep : ∀ s, Agrees a s → Reproduces apply Agrees' s b new) :
    Reproduces apply Agrees' start b (log ++ new) := by
  obtain ⟨s, hs, hagrees⟩ := h
  obtain ⟨s', hs', hagrees'⟩ := hstep s hagrees
  exact ⟨s', by rw [replay_append, hs]; exact hs', hagrees'⟩

end Propfirm.Replay
