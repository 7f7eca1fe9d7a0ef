import Propfirm.Lemmas.Hashing
import Propfirm.Lib.Records
import Propfirm.Pure

/-!
# What the stream of hashed values determines

The lists of an evaluation are fed to the hasher without their lengths. They can be told apart all the
same: a trade of the day ends in a time, which no position is followed by, and a reference trade
starts with two identifiers.
-/

namespace Propfirm

open Records

@[simp] theorem EquitySource.ctorIdx_inj {a b : EquitySource} : a.ctorIdx = b.ctorIdx ↔ a = b :=
  (Function.LeftInverse.injective EquitySource.ofNat_ctorIdx).eq_iff

theorem RuleContextKind.display_injective : Function.Injective RuleContextKind.display := by
  intro a b h
  cases a <;> cases b <;> first | rfl | exact absurd h (by decide)

/-- Inputs whose hashed values agree part by part. -/
structure EvaluateInputs.SameHashed (i j : EvaluateInputs) : Prop where
  openPositions : i.openPositions.map Position.hashedFields = j.openPositions.map Position.hashedFields
  todayTrades : i.todayTrades.map Trade.todayFields = j.todayTrades.map Trade.todayFields
  crossReferenceTrades : i.crossReferenceTrades.map Trade.referenceFields =
    j.crossReferenceTrades.map Trade.referenceFields
  equitySource : i.equitySource = j.equitySource
  pendingOrder : i.pendingOrder.map Order.hashedFields = j.pendingOrder.map Order.hashedFields
  latestTrade : i.latestTrade.map Trade.latestFields = j.latestTrade.map Trade.latestFields
  latestTick : i.latestTick.map Tick.hashedFields = j.latestTick.map Tick.hashedFields

/-! ## Where each part of the stream ends -/

def NotTime (r : List FieldValue) : Prop := ∀ t r', r ≠ .time t :: r'

section Ends

variable (today cross : List Trade) (source : ℕ) (order : Option Order) (latest : Option Trade)
  (tick : Option Tick) (r : List FieldValue)

theorem ends_references : Ends Trade.referenceFields (fun _ => True) (.discriminant source :: r) :=
  ⟨trivial, fun a t _ h => by simp [Trade.referenceFields] at h⟩

theorem ends_today :
    Ends Trade.todayFields (fun _ => True)
      (cross.flatMap Trade.referenceFields ++ .discriminant source :: r) := by
  refine ⟨trivial, fun a t _ h => ?_⟩
  cases cross <;> simp [Trade.todayFields, Trade.referenceFields] at h

theorem ends_positions :
    Ends Position.hashedFields NotTime
      (today.flatMap Trade.todayFields ++
        (cross.flatMap Trade.referenceFields ++ .discriminant source :: r)) := by
  constructor
  · intro t r' h
    cases today <;> cases cross <;> simp [Trade.todayFields, Trade.referenceFields] at h
  · intro a t hnext h
    cases today with
    | cons x xs =>
        simp only [List.flatMap_cons, Trade.todayFields, Position.hashedFields, List.cons_append,
          List.nil_append, List.cons.injEq] at h
        exact hnext _ _ h.2.2.2.2.2.symm
    | nil => cases cross <;> simp [Position.hashedFields, Trade.referenceFields] at h

theorem ends_order :
    Ends Order.hashedFields (fun _ => True)
      (latest.elim [] Trade.latestFields ++ tick.elim [] Tick.hashedFields) := by
  refine ⟨trivial, fun a t _ h => ?_⟩
  cases latest <;> cases tick <;>
    simp [Order.hashedFields, Trade.latestFields, Tick.hashedFields] at h

theorem ends_latest :
    Ends Trade.latestFields (fun _ => True) (tick.elim [] Tick.hashedFields) := by
  refine ⟨trivial, fun a t _ h => ?_⟩
  cases tick <;> simp [Trade.latestFields, Tick.hashedFields] at h

theorem ends_tick : Ends Tick.hashedFields (fun _ => True) [] :=
  ⟨trivial, fun a t _ h => by simp [Tick.hashedFields] at h⟩

end Ends

/-! ## Reading the stream back -/

theorem EvaluateInputs.sameHashed {i j : EvaluateInputs} (h : i.hashedFields = j.hashedFields) :
    i.SameHashed j := by
  simp only [hashedFields, List.append_assoc, List.singleton_append] at h
  obtain ⟨openPositions, h⟩ :=
    flatMap_append_inj (fun _ _ => rfl) (fun _ _ _ _ h => by simp [Position.hashedFields] at h)
      (ends_positions ..) (ends_positions ..) h
  obtain ⟨todayTrades, h⟩ :=
    flatMap_append_inj (fun _ _ => rfl) (fun _ _ => trivial) (ends_today ..) (ends_today ..) h
  obtain ⟨crossReferenceTrades, h⟩ :=
    flatMap_append_inj (fun _ _ => rfl) (fun _ _ => trivial) (ends_references ..)
      (ends_references ..) h
  obtain ⟨hsource, h⟩ := List.cons.inj h
  obtain ⟨pendingOrder, h⟩ :=
    elim_append_inj (fun _ _ => rfl) (fun _ _ => trivial) (ends_order ..) (ends_order ..) h
  obtain ⟨latestTrade, h⟩ :=
    elim_append_inj (fun _ _ => rfl) (fun _ _ => trivial) (ends_latest ..) (ends_latest ..) h
  obtain ⟨latestTick, -⟩ :=
    elim_append_inj (fun _ _ => rfl) (fun _ _ => trivial) ends_tick ends_tick
      (congrArg (· ++ []) h)
  exact
    { openPositions, todayTrades, crossReferenceTrades, pendingOrder, latestTrade, latestTick
      equitySource := by simpa using hsource }

/-- Calls that feed the same values to the hasher agree on each hashed part. -/
theorem inputFields_inj {a b : Account} {p q : RulePack} {k l : RuleContextKind} {s t : Timestamp}
    {i j : EvaluateInputs} (h : inputFields a p k s i = inputFields b q l t j) :
    a.hashedFields = b.hashedFields ∧ a.plan.hashedFields = b.plan.hashedFields ∧ k = l ∧ s = t ∧
      i.SameHashed j := by
  obtain ⟨h, hinputs⟩ := List.append_inj h rfl
  obtain ⟨h, hcall⟩ := List.append_inj h rfl
  obtain ⟨haccount, hplan⟩ := List.append_inj h rfl
  simp only [List.cons.injEq, FieldValue.time.injEq, FieldValue.text.injEq, and_true] at hcall
  exact ⟨haccount, hplan, RuleContextKind.display_injective hcall.2.2, hcall.2.1,
    EvaluateInputs.sameHashed hinputs⟩

end Propfirm
