import Mathlib.Order.Basic

/-!
# Steps in a row

A step leads from a state to a state. A path is a list of steps, latest first, each of which starts
where the one before it ended.
-/

namespace Propfirm

variable {σ ι : Type} {source target : ι → σ} {s t : σ} {steps : List ι}

inductive Path (source target : ι → σ) (s : σ) : List ι → σ → Prop
  | nil : Path source target s [] s
  | cons {before} (i : ι) :
      Path source target s before (source i) → Path source target s (i :: before) (target i)

/-- What the steps keep, as long as they satisfy `P`, holds at the end. -/
theorem Path.invariant {P : ι → Prop} (Inv : σ → Prop)
    (hstep : ∀ i, P i → Inv (source i) → Inv (target i)) (h : Path source target s steps t)
    (hP : ∀ i ∈ steps, P i) (hs : Inv s) : Inv t := by
  induction h with
  | nil => exact hs
  | cons i _ ih =>
      rw [List.forall_mem_cons] at hP
      exact hstep i hP.1 (ih hP.2)

/-- What no step lowers, as long as the steps satisfy `P`, is no lower at the end. -/
theorem Path.le {β : Type} [Preorder β] {P : ι → Prop} (f : σ → β)
    (hstep : ∀ i, P i → f (source i) ≤ f (target i)) (h : Path source target s steps t)
    (hP : ∀ i ∈ steps, P i) : f s ≤ f t :=
  h.invariant (fun x => f s ≤ f x) (fun i hi hle => hle.trans (hstep i hi)) hP le_rfl

/-- What is read off each step, between its source and its target, rises from step to step. -/
theorem Path.pairwise_le {β : Type} [Preorder β] {P : ι → Prop} {f : σ → β} {g : ι → β}
    (hsource : ∀ i, P i → f (source i) ≤ g i) (htarget : ∀ i, P i → g i ≤ f (target i))
    (h : Path source target s steps t) (hP : ∀ i ∈ steps, P i) :
    (∀ i ∈ steps, g i ≤ f t) ∧ steps.Pairwise fun later earlier => g earlier ≤ g later := by
  induction h with
  | nil => exact ⟨nofun, .nil⟩
  | cons i _ ih =>
      rw [List.forall_mem_cons] at hP
      obtain ⟨hle, hpairs⟩ := ih hP.2
      have hlater : ∀ j ∈ _, g j ≤ g i := fun j hj => (hle j hj).trans (hsource i hP.1)
      refine ⟨List.forall_mem_cons.mpr ⟨htarget i hP.1, fun j hj => ?_⟩, .cons hlater hpairs⟩
      exact (hlater j hj).trans (htarget i hP.1)

/-- Where a step ends with what is read off it, the readings rise exactly if each step raises them. -/
theorem Path.pairwise_le_iff {β : Type} [Preorder β] {P : ι → Prop} {f : σ → β} {g : ι → β}
    (htarget : ∀ i, P i → g i = f (target i)) (h : Path source target s steps t) (hP : ∀ i ∈ steps, P i) :
    ((∀ i ∈ steps, f s ≤ g i) ∧ steps.Pairwise fun later earlier => g earlier ≤ g later) ↔
      ∀ i ∈ steps, f (source i) ≤ g i := by
  induction h with
  | nil => exact iff_of_true ⟨nofun, .nil⟩ nofun
  | cons i hpath ih =>
      rw [List.forall_mem_cons] at hP
      rw [List.forall_mem_cons, List.forall_mem_cons, List.pairwise_cons, ← ih hP.2]
      constructor
      · rintro ⟨⟨hstart, hstarts⟩, hlater, hpairs⟩
        refine ⟨?_, hstarts, hpairs⟩
        -- the step starts where the path does, or where the step before it ended
        generalize hsource : source i = m at hpath
        cases hpath with
        | nil => exact hstart
        | cons j _ =>
            rw [← htarget j (hP.2 j List.mem_cons_self)]
            exact hlater j List.mem_cons_self
      · rintro ⟨hsource, hstarts, hpairs⟩
        generalize hm : source i = m at hpath hsource
        cases hpath with
        | nil => exact ⟨⟨hsource, nofun⟩, nofun, .nil⟩
        | cons j _ =>
            rw [← htarget j (hP.2 j List.mem_cons_self)] at hsource
            have hlater : ∀ k ∈ j :: _, g k ≤ g i :=
              List.forall_mem_cons.mpr
                ⟨hsource, fun k hk => ((List.pairwise_cons.mp hpairs).1 k hk).trans hsource⟩
            exact ⟨⟨(hstarts j List.mem_cons_self).trans hsource, hstarts⟩, hlater, hpairs⟩

theorem Path.append {m : σ} {later earlier : List ι} (h : Path source target s earlier m)
    (h' : Path source target m later t) : Path source target s (later ++ earlier) t := by
  induction h' with
  | nil => exact h
  | cons i _ ih => exact .cons i ih

theorem Path.split {later earlier : List ι} (h : Path source target s (later ++ earlier) t) :
    ∃ m, Path source target s earlier m ∧ Path source target m later t := by
  induction later generalizing t with
  | nil => exact ⟨t, h, .nil⟩
  | cons i later ih =>
      cases h with
      | cons _ h =>
          obtain ⟨m, hearlier, hlater⟩ := ih h
          exact ⟨m, hearlier, .cons i hlater⟩

/-- Each step starts at the end of a path of earlier ones. -/
theorem Path.exists_of_mem (h : Path source target s steps t) {i : ι} (hi : i ∈ steps) :
    ∃ earlier, Path source target s earlier (source i) ∧ ∀ j ∈ earlier, j ∈ steps := by
  induction h with
  | nil => cases hi
  | cons j hj ih =>
      rcases List.mem_cons.mp hi with rfl | hi
      · exact ⟨_, hj, fun k hk => List.mem_cons_of_mem _ hk⟩
      · obtain ⟨earlier, hpath, hmem⟩ := ih hi
        exact ⟨earlier, hpath, fun k hk => List.mem_cons_of_mem _ (hmem k hk)⟩

end Propfirm
