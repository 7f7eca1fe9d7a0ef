import Propfirm.Rules.Theorems.MoneyLimits

/-!
# Exposure to low-cap instruments

The rule sums up the positions of the account as they were opened, in units of the contract.
-/

namespace Propfirm

open Fallible Threshold

variable {params : Option RuleParams} {ctx : RuleContext} {instruments : InstrumentRegistry}

/-- The notional of the open positions on low-cap instruments. -/
def InstrumentRegistry.lowcapBook (instruments : InstrumentRegistry) (acc : Money) :
    List Position → Outcome Money
  | [] => .ok acc
  | p :: ps =>
      let spec := instruments.get p.symbol
      if spec.isLowcap then do
        let lots ← spec.unitsToLots p.openQuantity
        lowcapBook instruments (acc + spec.notional lots p.avgEntryPrice) ps
      else lowcapBook instruments acc ps

/-- The value of the open positions on low-cap instruments. -/
def InstrumentRegistry.openValue (instruments : InstrumentRegistry) (positions : List Position) : Money :=
  (positions.map fun p =>
    if (instruments.get p.symbol).isLowcap then p.openQuantity * p.avgEntryPrice else 0).sum

/-- The notional of a quantity in lots is its value, whatever the size of the contract. -/
theorem unitsToLots_notional {spec : InstrumentSpec} (h : 0 < spec.contractSize) (units : Quantity)
    (price : Price) :
    ∃ lots, spec.unitsToLots units = .ok lots ∧ spec.notional lots price = units * price := by
  refine ⟨units / spec.contractSize, if_neg h.ne', ?_⟩
  rw [InstrumentSpec.notional, div_mul_cancel₀ _ h.ne']

theorem lowcapBook_eq (h : ∀ s, 0 < (instruments.get s).contractSize) (acc : Money) (ps : List Position) :
    instruments.lowcapBook acc ps = .ok (acc + instruments.openValue ps) := by
  induction ps generalizing acc with
  | nil => simp [InstrumentRegistry.lowcapBook, InstrumentRegistry.openValue]
  | cons p ps ih =>
      have hcons : instruments.openValue (p :: ps) =
          (if (instruments.get p.symbol).isLowcap then p.openQuantity * p.avgEntryPrice else 0) +
            instruments.openValue ps := List.sum_cons
      rw [InstrumentRegistry.lowcapBook, hcons]
      cases (instruments.get p.symbol).isLowcap with
      | true =>
          obtain ⟨lots, hlots, hnotional⟩ := unitsToLots_notional (h p.symbol) p.openQuantity p.avgEntryPrice
          rw [if_pos rfl, if_pos rfl, bind_of_ok hlots, ih, hnotional, add_assoc]
      | false => rw [if_neg (by decide), if_neg (by decide), ih, zero_add]

namespace LowcapExposureRule

theorem warns_iff {limit : Pct} (hlimit : ctx.account.plan.lowcapExposureLimitPct = some limit)
    (hbalance : 0 < ctx.account.balance) :
    (lowcapExposureRule params).Warns ctx ↔
      limit * ctx.account.balance < lowcapNotional ctx.instruments ctx.account.openPositions := by
  rw [StdRule.Warns, StdRule.evaluate_decisionKind]
  simp only [lowcapExposureRule, judge, hlimit, if_neg (not_le.mpr hbalance)]
  split
  · rename_i hlt
    exact iff_of_true rfl hlt
  · rename_i hnot
    exact iff_of_false (fun heq => by cases heq) hnot

end LowcapExposureRule

/-- The rule warns of the positions that the account had opened. The open ones of the context have another
notional, and the two agree about a limit that does not lie between them. -/
theorem lowcap_exposure_iff {limit : Pct} (hlimit : ctx.account.plan.lowcapExposureLimitPct = some limit)
    (hsizes : ∀ s, 0 < (ctx.instruments.get s).contractSize) (hbalance : 0 < ctx.account.balance) :
    ctx.instruments.lowcapBook 0 (ctx.openPositions.filter Position.isOpen) =
        .ok (ctx.instruments.openValue (ctx.openPositions.filter Position.isOpen)) ∧
      (((lowcapExposureRule params).Warns ctx ↔
          limit * ctx.account.balance <
            ctx.instruments.openValue (ctx.openPositions.filter Position.isOpen)) ↔
        limit * ctx.account.balance ∉
          Set.Ico
            (min (LowcapExposureRule.lowcapNotional ctx.instruments ctx.account.openPositions)
              (ctx.instruments.openValue (ctx.openPositions.filter Position.isOpen)))
            (max (LowcapExposureRule.lowcapNotional ctx.instruments ctx.account.openPositions)
              (ctx.instruments.openValue (ctx.openPositions.filter Position.isOpen)))) := by
  refine ⟨?_, ?_⟩
  · rw [lowcapBook_eq hsizes, zero_add]
  · rw [LowcapExposureRule.warns_iff hlimit hbalance]
    exact gt_iff_gt_iff

/-- One low-cap coin, traded in contracts of the given size. -/
def coinRegistry (contractSize : Decimal) : InstrumentRegistry :=
  ⟨fun s =>
    if s = ⟨"COIN"⟩ then some { symbol := s, contractSize, pipSize := 1 / 100, isLowcap := true } else none⟩

theorem coinRegistry_sizes {contractSize : Decimal} (h : 0 < contractSize) (s : Symbol) :
    0 < ((coinRegistry contractSize).get s).contractSize := by
  unfold coinRegistry InstrumentRegistry.get
  dsimp only
  split
  · exact h
  · decide +kernel

/-- A balance of 10000 of which a twentieth may be held in low-cap instruments, with 10 coins bought at
the price. -/
def coinContext (contractSize : Decimal) (price : Price) : RuleContext :=
  let position := Position.open ⟨1⟩ ⟨1⟩ ⟨"COIN"⟩ .long price 10 0 0
  { RuleContext.new
      { Account.new ⟨1⟩ ⟨1⟩
          { ChallengePlan.default ⟨1⟩ 0 with lowcapExposureLimitPct := some (5 / 100) } with
        balance := 10000
        openPositions := [position] }
      0 (fun _ => ⟨0⟩) 0 with
    openPositions := [position]
    instruments := coinRegistry contractSize }

theorem lowcap_exposure_of_units :
    (lowcapExposureRule none).Warns (coinContext 1 60) ∧
      (coinRegistry 1).openValue (coinContext 1 60).openPositions = 600 := by
  obtain ⟨-, hiff⟩ := @lowcap_exposure_iff none (coinContext 1 60) _ rfl
    (coinRegistry_sizes (by decide +kernel)) (by decide +kernel)
  exact ⟨(hiff.mpr fun hmem => absurd (Set.mem_Ico.mp hmem) (by decide +kernel)).mpr (by decide +kernel),
    by decide +kernel⟩

/-- Ten units of a contract of a hundred are a tenth of a lot, but are counted as ten lots. What the context
holds open is not counted. -/
theorem lowcap_exposure_apart :
    ((coinRegistry 100).lowcapBook 0 (coinContext 100 1).openPositions = .ok 10 ∧
        (lowcapExposureRule none).Warns (coinContext 100 1)) ∧
      (coinRegistry 1).lowcapBook 0 (coinContext 1 60).openPositions = .ok 600 ∧
        ¬(lowcapExposureRule none).Warns
          { coinContext 1 60 with account := { (coinContext 1 60).account with openPositions := [] } } := by
  unfold StdRule.Warns
  decide +kernel

end Propfirm
