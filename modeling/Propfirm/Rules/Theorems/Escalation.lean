import Propfirm.Lib.Timeline
import Propfirm.Rules.Lemmas.Texts

/-!
# Martingale detection

The current losses of a symbol are its losing exits since which none has won. Martingale is an entry
after them that is a multiple of the first. The rule compares the first with the largest entry of the
day, wherever it stands.
-/

namespace Propfirm

open Timeline

namespace GridTradingRule

variable {params : Option RuleParams} {ctx : RuleContext} {symbol : Symbol} {trades : List Trade}
  {first : Trade} {size : Quantity}

/-! ## The definition -/

def IsExitOf (symbol : Symbol) (t : Trade) : Prop := t.symbol = symbol ∧ t.tradeSide = .exit

def IsEntryOf (symbol : Symbol) (t : Trade) : Prop := t.symbol = symbol ∧ t.tradeSide = .entry

instance {t : Trade} : Decidable (IsExitOf symbol t) := inferInstanceAs (Decidable (_ ∧ _))

instance {t : Trade} : Decidable (IsEntryOf symbol t) := inferInstanceAs (Decidable (_ ∧ _))

/-- The exits of the symbol that lost, and after which every exit lost. -/
def currentLosses (symbol : Symbol) (trades : List Trade) : List Trade :=
  trades.filter fun t => decide (IsExitOf symbol t ∧
    ∀ u ∈ trades, IsExitOf symbol u → t.executedAt ≤ u.executedAt → u.netPnl < 0)

def FirstLoss (symbol : Symbol) (trades : List Trade) (first : Trade) : Prop :=
  first ∈ currentLosses symbol trades ∧
    ∀ t ∈ currentLosses symbol trades, first.executedAt ≤ t.executedAt

def EntryReaches (symbol : Symbol) (trades : List Trade) (size : Quantity) : Prop :=
  ∃ entry ∈ trades, IsEntryOf symbol entry ∧ size ≤ entry.quantity

/-- An entry of the size comes after the last of the losses. -/
def EntryFollows (symbol : Symbol) (trades : List Trade) (size : Quantity) : Prop :=
  ∃ entry ∈ trades, IsEntryOf symbol entry ∧
    (∀ t ∈ currentLosses symbol trades, t.executedAt < entry.executedAt) ∧ size ≤ entry.quantity

def Escalates (losses : ℕ) (multiplier : Decimal) (symbol : Symbol) (trades : List Trade) : Prop :=
  losses ≤ (currentLosses symbol trades).length ∧
    ∃ first ∈ trades, FirstLoss symbol trades first ∧ EntryFollows symbol trades (first.quantity * multiplier)

instance : Decidable (FirstLoss symbol trades first) := inferInstanceAs (Decidable (_ ∧ _))

instance : Decidable (EntryFollows symbol trades size) := inferInstanceAs (Decidable (∃ _ ∈ _, _))

instance {losses : ℕ} {multiplier : Decimal} : Decidable (Escalates losses multiplier symbol trades) :=
  inferInstanceAs (Decidable (_ ∧ ∃ _ ∈ _, _))

/-! ## The run of the rule -/

def exitsOf (symbol : Symbol) (trades : List Trade) : List Trade :=
  trades.filter fun t => decide (t.symbol = symbol) && decide (t.tradeSide = .exit)

def lossesInRow (symbol : Symbol) (trades : List Trade) : List Trade :=
  latestRun Trade.executedAt (fun t => decide (t.netPnl < 0)) (exitsOf symbol trades)

theorem lossRun_eq : lossRun ctx symbol = (lossesInRow symbol ctx.todayTrades).map Trade.quantity := rfl

theorem mem_exitsOf {t : Trade} : t ∈ exitsOf symbol trades ↔ t ∈ trades ∧ IsExitOf symbol t := by
  simp [exitsOf, IsExitOf]

section Distinct

variable (htimes : (trades.map Trade.executedAt).Nodup)

include htimes

theorem exitsOf_times : ((exitsOf symbol trades).map Trade.executedAt).Nodup :=
  htimes.sublist (List.filter_sublist.map _)

theorem lossesInRow_perm : (lossesInRow symbol trades).Perm (currentLosses symbol trades) := by
  have hlosses : (currentLosses symbol trades).Nodup := (htimes.of_map _).filter _
  refine (List.perm_ext_iff_of_nodup (latestRun_nodup (exitsOf_times htimes)) hlosses).mpr fun t => ?_
  rw [mem_latestRun (exitsOf_times htimes), mem_exitsOf, currentLosses, List.mem_filter, decide_eq_true_eq,
    and_assoc]
  simp only [mem_exitsOf, and_imp, decide_eq_true_eq]

theorem getLast?_lossesInRow :
    (lossesInRow symbol trades).getLast? = some first ↔ FirstLoss symbol trades first := by
  rw [lossesInRow, getLast?_latestRun (exitsOf_times htimes), ← lossesInRow, FirstLoss]
  simp only [(lossesInRow_perm htimes).mem_iff]

end Distinct

/-- The rule asks for an entry that is large enough, if only any time of the day. -/
theorem detectEscalation_isSome_iff (htimes : (ctx.todayTrades.map Trade.executedAt).Nodup) :
    (detectEscalation params ctx symbol).isSome = true ↔
      effectiveEscalationLosses params ≤ (currentLosses symbol ctx.todayTrades).length ∧
        ∃ first, FirstLoss symbol ctx.todayTrades first ∧
          (first.quantity * effectiveEscalationMultiplier params ≤ 0 ∨
            EntryReaches symbol ctx.todayTrades (first.quantity * effectiveEscalationMultiplier params)) := by
  have hreaches (size : Quantity) :
      size ≤ ((ctx.todayTrades.filter fun t =>
          decide (t.symbol = symbol) && decide (t.tradeSide = .entry)).map Trade.quantity).foldl max 0 ↔
        size ≤ 0 ∨ EntryReaches symbol ctx.todayTrades size := by
    rw [le_foldl_max]
    simp [EntryReaches, IsEntryOf, and_assoc]
  unfold detectEscalation
  simp only [lossRun_eq, List.length_map, (lossesInRow_perm htimes).length_eq, List.getLast?_map]
  split
  · rename_i hshort
    exact iff_of_false (by simp) fun h => absurd h.1 (not_le.mpr hshort)
  · rename_i hlong
    simp only [not_lt.mp hlong, true_and, ← getLast?_lossesInRow htimes, ← hreaches]
    cases (lossesInRow symbol ctx.todayTrades).getLast? with
    | none => simp
    | some first =>
        simp only [Option.map_some, Option.some.injEq, exists_eq_left']
        split
        · rename_i hlarge; exact iff_of_true rfl hlarge
        · rename_i hlarge; exact iff_of_false (by simp) hlarge

theorem FirstLoss.mem (h : FirstLoss symbol trades first) : first ∈ trades := List.mem_of_mem_filter h.1

theorem FirstLoss.unique {other : Trade} (htimes : (trades.map Trade.executedAt).Nodup)
    (h : FirstLoss symbol trades first) (h' : FirstLoss symbol trades other) : other = first :=
  List.inj_on_of_nodup_map htimes h'.mem h.mem ((h'.2 first h.1).antisymm (h.2 other h'.1))

theorem Escalates.detected (htimes : (ctx.todayTrades.map Trade.executedAt).Nodup)
    (h : Escalates (effectiveEscalationLosses params) (effectiveEscalationMultiplier params) symbol
      ctx.todayTrades) : (detectEscalation params ctx symbol).isSome = true := by
  obtain ⟨hlong, first, -, hfirst, entry, hentry, hof, -, hsize⟩ := h
  exact (detectEscalation_isSome_iff htimes).mpr ⟨hlong, first, hfirst, .inr ⟨entry, hentry, hof, hsize⟩⟩

theorem detectEscalation_perm (htimes : (ctx.todayTrades.map Trade.executedAt).Nodup)
    (h : trades.Perm ctx.todayTrades) :
    detectEscalation params { ctx with todayTrades := trades } symbol =
      detectEscalation params ctx symbol := by
  have htimes' : (trades.map Trade.executedAt).Nodup := (h.map _).nodup_iff.mpr htimes
  have hrun : lossRun { ctx with todayTrades := trades } symbol = lossRun ctx symbol :=
    congrArg (List.map Trade.quantity) (latestRun_congr (h.filter _) (exitsOf_times htimes'))
  have hentries :
      ((trades.filter fun t => decide (t.symbol = symbol) && decide (t.tradeSide = .entry)).map
          Trade.quantity).foldl max 0 =
        ((ctx.todayTrades.filter fun t => decide (t.symbol = symbol) && decide (t.tradeSide = .entry)).map
          Trade.quantity).foldl max 0 :=
    ((h.filter _).map _).foldl_eq' (fun x _ y _ z => max_right_comm z x y) 0
  unfold detectEscalation
  dsimp only
  rw [hrun, hentries]

end GridTradingRule

open GridTradingRule

variable {params : Option RuleParams} {ctx : RuleContext} {symbol : Symbol}

/-- The detection follows the definition exactly if, after enough losses, an entry that is large enough is
there after them whenever one is there at all, or whenever the first loss has no size.
The order in which the trades are listed does not matter. -/
theorem escalation_follows_definition_iff (htimes : (ctx.todayTrades.map Trade.executedAt).Nodup)
    (hmultiplier : 0 < effectiveEscalationMultiplier params) :
    (((detectEscalation params ctx symbol).isSome = true ↔
          Escalates (effectiveEscalationLosses params) (effectiveEscalationMultiplier params) symbol
            ctx.todayTrades) ↔
        (effectiveEscalationLosses params ≤ (currentLosses symbol ctx.todayTrades).length →
          ∀ first, FirstLoss symbol ctx.todayTrades first →
            first.quantity ≤ 0 ∨
              EntryReaches symbol ctx.todayTrades (first.quantity * effectiveEscalationMultiplier params) →
            EntryFollows symbol ctx.todayTrades (first.quantity * effectiveEscalationMultiplier params))) ∧
      ∀ trades, trades.Perm ctx.todayTrades →
        detectEscalation params { ctx with todayTrades := trades } symbol =
          detectEscalation params ctx symbol := by
  refine ⟨?_, fun trades h => detectEscalation_perm htimes h⟩
  constructor
  · intro hiff hlong first hfirst hlarge
    have hlarge' := hlarge.imp_left fun hsize => mul_nonpos_of_nonpos_of_nonneg hsize hmultiplier.le
    obtain ⟨-, other, -, hother, hfollows⟩ :=
      hiff.mp ((detectEscalation_isSome_iff htimes).mpr ⟨hlong, first, hfirst, hlarge'⟩)
    rwa [hfirst.unique htimes hother] at hfollows
  · intro hfollows
    refine ⟨fun hsome => ?_, fun h => h.detected htimes⟩
    obtain ⟨hlong, first, hfirst, hlarge⟩ := (detectEscalation_isSome_iff htimes).mp hsome
    have hlarge' := hlarge.imp_left fun hsize => nonpos_of_mul_nonpos_left hsize hmultiplier
    exact ⟨hlong, first, hfirst.mem, hfirst, hfollows hlong first hfirst hlarge'⟩

/-- The trades of a day at one hour each, in the order of the hours. -/
def hourly (trades : List Trade) : List Trade :=
  trades.zipIdx.map fun (t, hour) => { t with executedAt := Duration.hours hour }

def martingaleDay (trades : List Trade) : RuleContext := { faultyContext with todayTrades := hourly trades }

theorem escalation_follows_two_losses :
    (detectEscalation none (martingaleDay [losingExit, losingExit, escalatedEntry 2]) ⟨"EURUSD"⟩).isSome =
        true ∧
      Escalates (effectiveEscalationLosses none) (effectiveEscalationMultiplier none) ⟨"EURUSD"⟩
        (martingaleDay [losingExit, losingExit, escalatedEntry 2]).todayTrades := by
  have hsome : (detectEscalation none (martingaleDay [losingExit, losingExit, escalatedEntry 2])
      ⟨"EURUSD"⟩).isSome = true := by decide +kernel
  have hfollows := (@escalation_follows_definition_iff none
    (martingaleDay [losingExit, losingExit, escalatedEntry 2]) ⟨"EURUSD"⟩ (by decide +kernel)
    (by decide +kernel)).1
  refine ⟨hsome, (hfollows.mpr ?_).mp hsome⟩
  intro _ first hfirst _
  have hsizes : ∀ t ∈ currentLosses ⟨"EURUSD"⟩
      (martingaleDay [losingExit, losingExit, escalatedEntry 2]).todayTrades, t.quantity = 1 := by
    decide +kernel
  rw [hsizes first hfirst.1]
  decide +kernel

/-- The large entry came first; after the losses nothing was opened. -/
theorem escalation_before_losses :
    ((martingaleDay [escalatedEntry 2, losingExit, losingExit]).todayTrades.map Trade.executedAt).Nodup ∧
      0 < effectiveEscalationMultiplier none ∧
      (detectEscalation none (martingaleDay [escalatedEntry 2, losingExit, losingExit]) ⟨"EURUSD"⟩).isSome =
        true ∧
      ¬Escalates (effectiveEscalationLosses none) (effectiveEscalationMultiplier none) ⟨"EURUSD"⟩
        (martingaleDay [escalatedEntry 2, losingExit, losingExit]).todayTrades := by
  decide +kernel

end Propfirm
