import Mathlib.Logic.Relation

/-!
# Computations that may fail, and runs of them
-/

namespace Propfirm.Fallible

variable {ε α β σ : Type}

theorem bind_of_ok {x : Except ε α} {f : α → Except ε β} {a : α} (h : x = .ok a) : x >>= f = f a := by
  rw [h]
  rfl

theorem bind_eq_ok {x : Except ε α} {f : α → Except ε β} {b : β} :
    x >>= f = .ok b ↔ ∃ a, x = .ok a ∧ f a = .ok b := by
  cases x with
  | error e => simp [bind, Except.bind]
  | ok a => simp [bind, Except.bind]

theorem bind_eq_error {x : Except ε α} {f : α → Except ε β} {e : ε} :
    x >>= f = .error e ↔ x = .error e ∨ ∃ a, x = .ok a ∧ f a = .error e := by
  cases x with
  | error e' => simp [bind, Except.bind]
  | ok a => simp [bind, Except.bind]

theorem pure_eq_ok {a b : α} : (pure a : Except ε α) = .ok b ↔ a = b := by
  simp [pure, Except.pure]

theorem map_eq_ok {x : Except ε α} {f : α → β} {b : β} :
    x.map f = .ok b ↔ ∃ a, x = .ok a ∧ f a = b := by
  cases x <;> simp [Except.map]

theorem map_eq_error {x : Except ε α} {f : α → β} {e : ε} : x.map f = .error e ↔ x = .error e := by
  cases x <;> simp [Except.map]

/-- Computations that agree up to `f` go on alike when what follows only depends on `f`. -/
theorem bind_congr_of_map {γ : Type} {x y : Except ε α} {f : α → β} {g h : α → Except ε γ}
    (hxy : x.map f = y.map f) (hgh : ∀ a b, f a = f b → g a = h b) : x >>= g = y >>= h := by
  cases x with
  | error e =>
      cases y with
      | error e' => cases hxy; rfl
      | ok b => cases hxy
  | ok a =>
      cases y with
      | error e' => cases hxy
      | ok b => exact hgh a b (Except.ok.inj hxy)

/-! ## Postconditions -/

/-- Every value the computation returns satisfies `P`. -/
def Post (P : α → Prop) (x : Except ε α) : Prop := ∀ a, x = .ok a → P a

variable {P : α → Prop} {Q : β → Prop}

@[simp] theorem post_ok {a : α} : Post P (.ok a : Except ε α) ↔ P a := by simp [Post]

@[simp] theorem post_pure {a : α} : Post P (pure a : Except ε α) ↔ P a := by simp [Post, pure_eq_ok]

@[simp] theorem post_error {e : ε} : Post P (.error e : Except ε α) := by simp [Post]

theorem post_bind {x : Except ε α} {f : α → Except ε β} (h : ∀ a, x = .ok a → Post Q (f a)) :
    Post Q (x >>= f) := by
  intro b hb
  obtain ⟨a, ha, hb⟩ := bind_eq_ok.mp hb
  exact h a ha b hb

/-! ## Failures -/

/-- Every failure of the computation satisfies `F`. -/
def FailsOnly (F : ε → Prop) (x : Except ε α) : Prop := ∀ e, x = .error e → F e

variable {F : ε → Prop}

@[simp] theorem failsOnly_ok {a : α} : FailsOnly F (.ok a : Except ε α) := by simp [FailsOnly]

@[simp] theorem failsOnly_pure {a : α} : FailsOnly F (pure a : Except ε α) := failsOnly_ok

@[simp] theorem failsOnly_error {e : ε} : FailsOnly F (.error e : Except ε α) ↔ F e := by
  simp [FailsOnly]

theorem failsOnly_ite {x y : Except ε α} {c : Prop} [Decidable c] (hx : FailsOnly F x)
    (hy : FailsOnly F y) : FailsOnly F (if c then x else y) := by
  split
  · exact hx
  · exact hy

theorem failsOnly_bind {x : Except ε α} {f : α → Except ε β} (hx : FailsOnly F x)
    (hf : ∀ a, x = .ok a → FailsOnly F (f a)) : FailsOnly F (x >>= f) := by
  intro e he
  rcases bind_eq_error.mp he with he | ⟨a, ha, he⟩
  · exact hx e he
  · exact hf a ha e he

/-! ## Runs -/

/-- What every step keeps holds at the end of every run that starts with it. -/
theorem invariant_of_run {step : σ → σ → Prop} (Inv : σ → Prop)
    (hstep : ∀ s s', Inv s → step s s' → Inv s') {s s' : σ}
    (hrun : Relation.ReflTransGen step s s') (h : Inv s) : Inv s' := by
  induction hrun with
  | refl => exact h
  | tail _ hs ih => exact hstep _ _ ih hs

end Propfirm.Fallible
