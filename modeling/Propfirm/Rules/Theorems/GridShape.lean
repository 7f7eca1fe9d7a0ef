import Propfirm.Lib.Spread
import Propfirm.Lib.Timeline
import Propfirm.Rules.Lemmas.Texts

/-!
# Grid detection

The detection reads the prices of the latest entries of a symbol, and of them only the gaps relative to
their mean. The rule takes the square root of the decimal numbers, which rounds; over an exact root the
detection depends on the shape of the prices alone.
-/

namespace Propfirm

open Spread Timeline

variable {R : Type} [Field R] [LinearOrder R] {sqrt : Decimal → Option R} {params : Option RuleParams}
  {ctx : RuleContext} {symbol : Symbol} {minEntries : ℕ} {trades extra : List Trade} {threshold : Decimal}

/-- The trade at another price. -/
def Trade.reprice (f : Price → Price) (t : Trade) : Trade := { t with price := f t.price }

namespace GridTradingRule

theorem gridOf_eq (entries : List Trade) :
    gridOf sqrt threshold minEntries entries =
      if entries.length < minEntries then none
      else
        let gaps := priceGaps ((entries.drop (entries.length - 5)).map Trade.price)
        if gaps = [] then none
        else if mean gaps = 0 then none
        else if cv sqrt gaps < threshold then some (gaps, cv sqrt gaps) else none :=
  rfl

theorem detectGrid_congr {ctx' : RuleContext}
    (h : recentEntries params ctx' symbol = recentEntries params ctx symbol) :
    detectGrid sqrt params ctx' symbol minEntries = detectGrid sqrt params ctx symbol minEntries := by
  unfold detectGrid
  rw [h]

/-! ## Prices -/

theorem priceGaps_scale {k : Decimal} (hk : 0 < k) (prices : List Price) :
    priceGaps (prices.map (k * ·)) = (priceGaps prices).map (k * ·) := by
  have hgap (a b : Price) : |k * b - k * a| = k * |b - a| := by
    rw [← mul_sub, abs_mul, abs_of_pos hk]
  simp only [priceGaps, ← List.map_tail, List.zipWith_map, hgap, List.map_zipWith]

theorem priceGaps_reflect (c : Decimal) (prices : List Price) :
    priceGaps (prices.map (c - ·)) = priceGaps prices := by
  have hgap (a b : Price) : |c - b - (c - a)| = |b - a| := by
    rw [sub_sub_sub_cancel_left, abs_sub_comm]
  simp only [priceGaps, ← List.map_tail, List.zipWith_map, hgap]

theorem latest_reprice (f : Price → Price) (entries : List Trade) :
    (((entries.map (Trade.reprice f)).drop ((entries.map (Trade.reprice f)).length - 5)).map Trade.price) =
      ((entries.drop (entries.length - 5)).map Trade.price).map f := by
  rw [List.length_map, ← List.map_drop, List.map_map, List.map_map]
  rfl

theorem gridOf_reflect (c : Decimal) (entries : List Trade) :
    gridOf sqrt threshold minEntries (entries.map (Trade.reprice (c - ·))) =
      gridOf sqrt threshold minEntries entries := by
  rw [gridOf_eq, gridOf_eq, latest_reprice, priceGaps_reflect, List.length_map]

theorem gridOf_scale [IsStrictOrderedRing R] (hexact : ExactSqrt sqrt) {k : Decimal} (hk : 0 < k)
    (entries : List Trade) :
    gridOf sqrt threshold minEntries (entries.map (Trade.reprice (k * ·))) =
      (gridOf sqrt threshold minEntries entries).map (Prod.map (List.map (k * ·)) id) := by
  rw [gridOf_eq, gridOf_eq, latest_reprice, priceGaps_scale hk, List.length_map]
  dsimp only
  rw [cv_map_mul hexact hk, mean_map_mul]
  simp only [List.map_eq_nil_iff, mul_eq_zero, hk.ne', false_or]
  split_ifs <;> rfl

/-! ## Entries -/

theorem recentEntries_reprice (f : Price → Price) :
    recentEntries params { ctx with todayTrades := ctx.todayTrades.map (Trade.reprice f) } symbol =
      (recentEntries params ctx symbol).map (Trade.reprice f) := by
  unfold recentEntries
  rw [List.filter_map]
  exact chronological_map fun _ => rfl

def isRecentEntry (params : Option RuleParams) (ctx : RuleContext) (symbol : Symbol) (t : Trade) : Bool :=
  decide (t.symbol = symbol) && decide (t.tradeSide = .entry) &&
    decide (ctx.serverTime - t.executedAt ≤ Duration.minutes (effectiveMaxWindowMinutes params))

/-- A trade that the detection passes over. -/
def PassedOver (params : Option RuleParams) (ctx : RuleContext) (symbol : Symbol) (t : Trade) : Prop :=
  t.symbol ≠ symbol ∨ t.tradeSide ≠ .entry ∨
    Duration.minutes (effectiveMaxWindowMinutes params) < ctx.serverTime - t.executedAt

theorem recentEntries_insert (htimes : (ctx.todayTrades.map Trade.executedAt).Nodup)
    (hextra : ∀ t ∈ extra, PassedOver params ctx symbol t) (h : trades.Perm (ctx.todayTrades ++ extra)) :
    recentEntries params { ctx with todayTrades := trades } symbol = recentEntries params ctx symbol := by
  have hnone : extra.filter (isRecentEntry params ctx symbol) = [] := by
    refine List.filter_eq_nil_iff.mpr fun t ht => ?_
    rcases hextra t ht with hsymbol | hside | htime
    · simp [isRecentEntry, hsymbol]
    · simp [isRecentEntry, hside]
    · rw [isRecentEntry, decide_eq_false (not_le.mpr htime), Bool.and_false]
      exact Bool.false_ne_true
  have hperm : (ctx.todayTrades.filter (isRecentEntry params ctx symbol)).Perm
      (trades.filter (isRecentEntry params ctx symbol)) := by
    refine List.Perm.trans ?_ (h.filter _).symm
    rw [List.filter_append, hnone, List.append_nil]
  exact (chronological_congr hperm (htimes.sublist (List.filter_sublist.map _))).symm

end GridTradingRule

open GridTradingRule

/-- Over an exact root the detection is the same in every order of the trades, at prices reflected at a point
and among trades that do not belong to the pattern; scaled prices scale the gaps and nothing else. -/
theorem grid_depends_on_shape [IsStrictOrderedRing R] (hexact : ExactSqrt sqrt)
    (htimes : (ctx.todayTrades.map Trade.executedAt).Nodup) :
    (∀ trades, trades.Perm ctx.todayTrades →
        detectGrid sqrt params { ctx with todayTrades := trades } symbol minEntries =
          detectGrid sqrt params ctx symbol minEntries) ∧
      (∀ k > 0,
        detectGrid sqrt params { ctx with todayTrades := ctx.todayTrades.map (Trade.reprice (k * ·)) }
            symbol minEntries =
          (detectGrid sqrt params ctx symbol minEntries).map
            (Option.map (Prod.map (List.map (k * ·)) id))) ∧
      (∀ c,
        detectGrid sqrt params { ctx with todayTrades := ctx.todayTrades.map (Trade.reprice (c - ·)) }
            symbol minEntries =
          detectGrid sqrt params ctx symbol minEntries) ∧
      ∀ extra trades, (∀ t ∈ extra, PassedOver params ctx symbol t) →
        trades.Perm (ctx.todayTrades ++ extra) →
          detectGrid sqrt params { ctx with todayTrades := trades } symbol minEntries =
            detectGrid sqrt params ctx symbol minEntries := by
  have hinsert (extra trades : List Trade) (hextra : ∀ t ∈ extra, PassedOver params ctx symbol t)
      (h : trades.Perm (ctx.todayTrades ++ extra)) :
      detectGrid sqrt params { ctx with todayTrades := trades } symbol minEntries =
        detectGrid sqrt params ctx symbol minEntries :=
    detectGrid_congr (recentEntries_insert htimes hextra h)
  refine ⟨fun trades h => ?_, fun k hk => ?_, fun c => ?_, hinsert⟩
  · exact hinsert [] trades (List.forall_mem_nil _) (by rwa [List.append_nil])
  · unfold detectGrid
    rw [recentEntries_reprice, gridOf_scale hexact hk]
    cases Duration.tryMinutes (effectiveMaxWindowMinutes params) <;> rfl
  · unfold detectGrid
    rw [recentEntries_reprice, gridOf_reflect]

/-- Four entries, one a minute, each a tenth above the one before. -/
def gridDay : RuleContext :=
  { faultyContext with
    todayTrades := (List.range 4).map fun i : ℕ =>
      { escalatedEntry 1 with price := 1 + (i : Price) / 10, executedAt := Duration.minutes i } }

theorem detectGrid_gridDay :
    detectGrid (fun v => some (Real.sqrt v)) none gridDay ⟨"EURUSD"⟩ 3 =
      .ok (some ([1 / 10, 1 / 10, 1 / 10], 0)) := by
  have hlength : ¬(recentEntries none gridDay ⟨"EURUSD"⟩).length < 3 := by decide +kernel
  have hgaps :
      priceGaps (((recentEntries none gridDay ⟨"EURUSD"⟩).drop
          ((recentEntries none gridDay ⟨"EURUSD"⟩).length - 5)).map Trade.price) =
        [1 / 10, 1 / 10, 1 / 10] := by
    decide +kernel
  have hmean : ¬mean [1 / 10, 1 / 10, 1 / 10] = 0 := by decide +kernel
  have hvariance : variance [1 / 10, 1 / 10, 1 / 10] = 0 := by decide +kernel
  have hcv : cv (fun v => some (Real.sqrt v)) [1 / 10, 1 / 10, 1 / 10] = 0 := by
    rw [cv, hvariance]
    simp
  have hthreshold : (0 : ℝ) < (effectiveCvThreshold none : ℚ) := by
    have hpos : 0 < effectiveCvThreshold none := by decide +kernel
    exact_mod_cast hpos
  have hgrid : gridOf (fun v => some (Real.sqrt v)) (effectiveCvThreshold none) 3
      (recentEntries none gridDay ⟨"EURUSD"⟩) = some ([1 / 10, 1 / 10, 1 / 10], 0) := by
    rw [gridOf_eq, if_neg hlength, hgaps]
    dsimp only
    rw [if_neg (List.cons_ne_nil _ _), if_neg hmean, hcv, if_pos hthreshold]
  unfold detectGrid
  rw [hgrid]
  rfl

theorem grid_depends_on_shape_even :
    detectGrid (fun v => some (Real.sqrt v)) none gridDay ⟨"EURUSD"⟩ 3 =
        .ok (some ([1 / 10, 1 / 10, 1 / 10], 0)) ∧
      detectGrid (fun v => some (Real.sqrt v)) none
          { gridDay with todayTrades := gridDay.todayTrades.reverse } ⟨"EURUSD"⟩ 3 =
        .ok (some ([1 / 10, 1 / 10, 1 / 10], 0)) ∧
      detectGrid (fun v => some (Real.sqrt v)) none
          { gridDay with todayTrades := gridDay.todayTrades.map (Trade.reprice (10 * ·)) } ⟨"EURUSD"⟩ 3 =
        .ok (some ([1, 1, 1], 0)) := by
  obtain ⟨hperm, hscale, -, -⟩ :=
    @grid_depends_on_shape ℝ _ _ (fun v => some (Real.sqrt v)) none gridDay ⟨"EURUSD"⟩ 3 _ exactSqrt_real
      (by decide +kernel)
  refine ⟨detectGrid_gridDay, ?_, ?_⟩
  · rw [hperm _ (List.reverse_perm _), detectGrid_gridDay]
  · rw [hscale 10 (by norm_num), detectGrid_gridDay]
    norm_num [Except.map]

end Propfirm
