import Mathlib.Algebra.Order.Field.Basic
import Mathlib.Tactic.Linarith
import Propfirm.Risk.Exposure

/-!
# Coherence of the exposure
-/

namespace Propfirm

open Amounts

variable {e : Exposure} {p : Position} {quote : Quote} {quotes : String → Option Quote}
  {positions positions' : List Position}

/-- What a position adds to the aggregates of a side. -/
def Position.on {α : Type} [Zero α] (p : Position) (side : PositionSide) (x : α) : α :=
  if p.side = side then x else 0

theorem Position.abs_on_sub_on (p : Position) {x : Decimal} (hx : 0 ≤ x) :
    |p.on .long x - p.on .short x| = x := by
  unfold Position.on
  cases p.side <;> simp [abs_of_nonneg hx]

namespace Exposure

/-! ## One position -/

/-- The position adds an amount of its own to each aggregate. -/
theorem add_eq (e : Exposure) (p : Position) (quote : Quote) :
    e.add p quote =
      { gross := e.gross + quote.mid * p.openQuantity
        net := e.net +
          (p.on .long (quote.mid * p.openQuantity) - p.on .short (quote.mid * p.openQuantity))
        longCount := e.longCount + p.on .long 1
        shortCount := e.shortCount + p.on .short 1
        longVolume := e.longVolume + p.on .long p.openQuantity
        shortVolume := e.shortVolume + p.on .short p.openQuantity
        netVolume := e.netVolume + (p.on .long p.openQuantity - p.on .short p.openQuantity)
        symbolConcentration := e.symbolConcentration.add p.symbol.text (quote.mid * p.openQuantity) } := by
  unfold add Position.on
  cases p.side <;> simp [sub_eq_add_neg]

/-- Two positions may be added in either order. -/
theorem add_swap (e : Exposure) (p p' : Position) (quote quote' : Quote) :
    (e.add p quote).add p' quote' = (e.add p' quote').add p quote := by
  simp only [add_eq, mk.injEq]
  exact ⟨add_right_comm _ _ _, add_right_comm _ _ _, add_right_comm _ _ _, add_right_comm _ _ _,
    add_right_comm _ _ _, add_right_comm _ _ _, add_right_comm _ _ _, Sheet.add_swap _ _ _ _ _⟩

theorem visit_swap (e : Exposure) (p p' : Position) :
    (e.visit quotes p).visit quotes p' = (e.visit quotes p').visit quotes p := by
  unfold visit
  cases quotes p.symbol.text with
  | none => rfl
  | some quote =>
      cases quotes p'.symbol.text with
      | none => rfl
      | some quote' => exact e.add_swap p p' quote quote'

/-- The aggregates agree with each other. -/
structure Coherent (e : Exposure) : Prop where
  net_le : |e.net| ≤ e.gross
  gross_eq : e.gross = e.symbolConcentration.total
  netVolume_eq : e.netVolume = e.longVolume - e.shortVolume
  amounts_nonneg : ∀ v ∈ e.symbolConcentration.amounts, 0 ≤ v

namespace Coherent

theorem empty : Exposure.empty.Coherent where
  net_le := by simp [Exposure.empty]
  gross_eq := rfl
  netVolume_eq := by simp [Exposure.empty]
  amounts_nonneg := fun v hv => absurd hv (Multiset.notMem_zero v)

theorem add (h : e.Coherent) (hnotional : 0 ≤ quote.mid * p.openQuantity) : (e.add p quote).Coherent := by
  rw [add_eq]
  constructor
  · exact (abs_add_le _ _).trans (add_le_add h.net_le (p.abs_on_sub_on hnotional).le)
  · exact (congrArg (· + _) h.gross_eq).trans (Sheet.total_add _ _ _).symm
  · dsimp only
    rw [h.netVolume_eq, sub_add_sub_comm]
  · exact Sheet.amounts_add_nonneg h.amounts_nonneg hnotional

theorem visit (h : e.Coherent) (hquotes : ∀ s q, quotes s = some q → 0 ≤ q.mid)
    (hp : 0 ≤ p.openQuantity) : (e.visit quotes p).Coherent := by
  unfold Exposure.visit
  split
  · rename_i quote hquote
    exact h.add (mul_nonneg (hquotes _ _ hquote) hp)
  · exact h

theorem foldl (h : e.Coherent) (hquotes : ∀ s q, quotes s = some q → 0 ≤ q.mid)
    (hpositions : ∀ p ∈ positions, 0 ≤ p.openQuantity) :
    (positions.foldl (Exposure.visit quotes) e).Coherent := by
  induction positions generalizing e with
  | nil => exact h
  | cons p positions ih =>
      obtain ⟨hp, hpositions⟩ := List.forall_mem_cons.mp hpositions
      exact ih (h.visit hquotes hp) hpositions

/-- A part of the gross exposure is no more than all of it. -/
theorem share_le_one (h : e.Coherent) {v : Decimal} (hv : v ∈ e.symbolConcentration.amounts) :
    v / e.gross ≤ 1 := by
  have hle : v ≤ e.gross := h.gross_eq ▸ Sheet.le_total_of_mem h.amounts_nonneg hv
  exact div_le_one_of_le₀ hle ((h.amounts_nonneg v hv).trans hle)

end Coherent

/-! ## The symbols -/

/-- The order is one in which the map may be iterated. -/
def Iterates (e : Exposure) (iter : List (String × Decimal)) : Prop :=
  (iter : Multiset (String × Decimal)) = e.symbolConcentration.entries.map fun entry => (entry.1, entry.2)

theorem Iterates.mem_amounts {iter : List (String × Decimal)} (h : e.Iterates iter) {k : String} {v : Decimal}
    (hkv : (k, v) ∈ iter) : v ∈ e.symbolConcentration.amounts := by
  have hmem : (k, v) ∈ (iter : Multiset (String × Decimal)) := hkv
  rw [h, Multiset.mem_map] at hmem
  obtain ⟨entry, hentry, heq⟩ := hmem
  exact Multiset.mem_map.mpr ⟨entry, hentry, congrArg Prod.snd heq⟩

/-- The top symbol has the greatest share. -/
theorem topSymbol_share (e : Exposure) (iter : List (String × Decimal)) :
    (e.topSymbol iter).map Prod.snd = if e.gross = 0 then none else ((e.shares iter).map Prod.snd).max? := by
  unfold topSymbol
  split
  · rfl
  · cases e.shares iter with
    | nil => rfl
    | cons share others =>
        simp only [List.map_cons, Option.map_some, Prod.snd_swap, Select.foldl_later_fst, List.max?_cons',
          List.map_map, Prod.fst_swap]
        rfl

/-- Its share does not depend on the iteration, although the symbol may. -/
theorem topSymbol_share_unique {iter iter' : List (String × Decimal)} (h : e.Iterates iter)
    (h' : e.Iterates iter') : (e.topSymbol iter).map Prod.snd = (e.topSymbol iter').map Prod.snd := by
  have hperm : iter.Perm iter' := Multiset.coe_eq_coe.mp (h.trans h'.symm)
  have hshares : ((e.shares iter).map Prod.snd).Perm ((e.shares iter').map Prod.snd) :=
    (hperm.map _).map _
  rw [topSymbol_share, topSymbol_share]
  refine congrArg _ (Option.ext fun share => ?_)
  rw [List.max?_eq_some_iff, List.max?_eq_some_iff, hshares.mem_iff]
  simp only [hshares.mem_iff]

end Exposure

/-- The aggregates of a book agree, no symbol has more than all of the gross exposure, and the positions may
come in any order. -/
theorem exposure_coherent (hpositions : ∀ p ∈ positions, 0 ≤ p.openQuantity)
    (hquotes : ∀ s q, quotes s = some q → 0 ≤ q.mid) :
    |(Exposure.compute positions quotes).net| ≤ (Exposure.compute positions quotes).gross ∧
      (Exposure.compute positions quotes).gross =
        (Exposure.compute positions quotes).symbolConcentration.total ∧
      (Exposure.compute positions quotes).netVolume =
        (Exposure.compute positions quotes).longVolume - (Exposure.compute positions quotes).shortVolume ∧
      (∀ iter, (Exposure.compute positions quotes).Iterates iter →
        ∀ share ∈ (Exposure.compute positions quotes).shares iter, share.2 ≤ 1) ∧
      ∀ positions', positions.Perm positions' →
        Exposure.compute positions' quotes = Exposure.compute positions quotes := by
  have hopen : ∀ p ∈ positions.filter Position.isOpen, 0 ≤ p.openQuantity := fun p hp =>
    hpositions p (List.mem_filter.mp hp).1
  have hcoherent : (Exposure.compute positions quotes).Coherent := .foldl .empty hquotes hopen
  refine ⟨hcoherent.net_le, hcoherent.gross_eq, hcoherent.netVolume_eq, ?_, ?_⟩
  · intro iter hiter share hshare
    obtain ⟨⟨k, v⟩, hkv, rfl⟩ := List.mem_map.mp hshare
    exact hcoherent.share_le_one (hiter.mem_amounts hkv)
  · intro positions' hperm
    exact ((hperm.filter Position.isOpen).foldl_eq' (fun p _ p' _ e => e.visit_swap p p') _).symm

def hedgedBook : List Position :=
  [.open ⟨1⟩ ⟨1⟩ ⟨"EURUSD"⟩ .long 1 200 0 0, .open ⟨2⟩ ⟨1⟩ ⟨"EURUSD"⟩ .short 1 50 0 0]

def flatQuotes (_ : String) : Option Quote := some ⟨1, 3, 0⟩

theorem exposure_of_hedge :
    (Exposure.compute hedgedBook flatQuotes).gross = 500 ∧
      |(Exposure.compute hedgedBook flatQuotes).net| ≤ (Exposure.compute hedgedBook flatQuotes).gross := by
  have hquotes : ∀ s q, flatQuotes s = some q → 0 ≤ q.mid := by
    rintro s q ⟨⟩
    decide +kernel
  exact ⟨by decide +kernel, (exposure_coherent (by decide +kernel) hquotes).1⟩

end Propfirm
