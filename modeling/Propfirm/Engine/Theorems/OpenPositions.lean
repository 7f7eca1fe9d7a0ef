import Propfirm.Engine.Lemmas.Liquidations
import Propfirm.Engine.Lemmas.Positions
import Propfirm.Engine.Lemmas.Runs
import Propfirm.Engine.Theorems.Promotion
import Propfirm.Engine.Theorems.Volume
import Propfirm.Lib.Slots

/-!
# The open positions of a run

A fill is booked under an identifier: a position that is opened gets a drawn one, and an exit names the one
it closes.
-/

namespace Propfirm

open Fallible

variable {p : Pipeline} {env : Env} {a b : Account} {ev : PipelineEvent} {r : PipelineResult}
  {trade : Trade} {calls : List Processed}

/-! ## Fills -/

def Trade.position (trade : Trade) (id : PositionId) : Position :=
  .open id trade.accountId trade.symbol (.fromOrder trade.side) trade.price trade.quantity trade.executedAt
    trade.commission

/-- The identifier that a fill is booked under. -/
def Trade.slot (trade : Trade) (drawn : PositionId) : Option PositionId :=
  match trade.tradeSide with
  | .entry | .reverse => some drawn
  | .exit => trade.exitInfo.map TradeExit.positionId

/-- The position that a fill opens. -/
def Trade.entry (trade : Trade) (drawn : PositionId) : Option Position :=
  match trade.tradeSide with
  | .entry | .reverse => if 0 < trade.quantity then some (trade.position drawn) else none
  | .exit => none

theorem Trade.position_isOpen {id : PositionId} : (trade.position id).isOpen = decide (0 < trade.quantity) :=
  rfl

theorem Trade.slot_of_entry {drawn : PositionId} {x : Position} (h : trade.entry drawn = some x) :
    trade.slot drawn = some x.id ∧ x.isOpen = true := by
  unfold Trade.entry at h
  unfold Trade.slot
  cases hside : trade.tradeSide with
  | entry | reverse =>
      rw [hside] at h
      dsimp only at h
      split at h
      · rename_i hpos
        obtain rfl := Option.some.inj h
        exact ⟨rfl, by rw [Trade.position_isOpen]; exact decide_eq_true hpos⟩
      · cases h
  | exit => rw [hside] at h; cases h

theorem fillPosition_slot {drawn : PositionId} {xs : List Position} {position : Position}
    (h : fillPosition drawn xs trade = .ok position) :
    trade.slot drawn = some position.id ∧
      trade.entry drawn = if position.isOpen then some position else none := by
  unfold fillPosition at h
  unfold Trade.slot Trade.entry
  cases hside : trade.tradeSide with
  | entry | reverse =>
      rw [hside] at h
      obtain rfl := Except.ok.inj h
      refine ⟨rfl, ?_⟩
      change _ = if (trade.position drawn).isOpen then some (trade.position drawn) else none
      rw [Trade.position_isOpen]
      simp
  | exit =>
      rw [hside] at h
      dsimp only at h
      cases hinfo : trade.exitInfo with
      | none => rw [hinfo] at h; cases h
      | some info =>
          rw [hinfo] at h
          dsimp only at h
          split at h
          · rename_i pos hfound
            have hid : pos.id = info.positionId := by simpa using List.find?_some hfound
            obtain rfl := Except.ok.inj h
            exact ⟨congrArg some hid.symm, rfl⟩
          · obtain rfl := Except.ok.inj h
            exact ⟨rfl, rfl⟩

theorem Passage.openPositions_fill (s : Passage p env a (.tradeFilled trade) r) :
    r.account.openPositions =
      a.openPositions.filter (fun x => decide (trade.slot env.positionId ≠ some x.id)) ++
        (trade.entry env.positionId).toList := by
  obtain ⟨position, hposition, hfill⟩ := s.tradeFill_eq
  obtain ⟨hslot, hentry⟩ := fillPosition_slot hposition
  have hothers : (fun x : Position => x.id != position.id) =
      fun x => decide (trade.slot env.positionId ≠ some x.id) := by
    funext x
    rw [hslot]
    by_cases h : x.id = position.id
    · simp [h]
    · simp [h, Ne.symm h]
  rw [s.account_openPositions, Evaluated.filled, hfill, hentry, ← hothers]
  simp only [consumeFill, s.applied_openPositions]
  cases position.isOpen <;> simp

/-! ## Calls -/

namespace Processed

def slot (c : Processed) : Option PositionId :=
  match c.ev with
  | .tradeFilled trade => trade.slot c.env.positionId
  | _ => none

def entry (c : Processed) : Option Position :=
  match c.ev with
  | .tradeFilled trade => trade.entry c.env.positionId
  | _ => none

theorem openPositions_eq (c : Processed) :
    c.after.openPositions =
      c.before.openPositions.filter (fun x => decide (c.slot ≠ some x.id)) ++ c.entry.toList := by
  obtain ⟨p, env, a, ev, r, hprocess⟩ := c
  obtain ⟨s⟩ := Pipeline.process_passage hprocess
  cases ev with
  | tradeFilled trade => exact s.openPositions_fill
  | _ =>
      simp only [after, slot, entry]
      rw [s.openPositions_eq (by rintro trade ⟨⟩)]
      simp

theorem slot_of_entry (c : Processed) (x : Position) (h : c.entry = some x) :
    c.slot = some x.id ∧ x.isOpen = true := by
  obtain ⟨p, env, a, ev, r, hprocess⟩ := c
  cases ev with
  | tradeFilled trade => exact Trade.slot_of_entry h
  | _ => cases h

/-- The book as a table that fills write to. -/
def slots : Slots Position.id Processed.before Processed.after Account.openPositions where
  slot := slot
  entry := entry
  slot_of_entry := fun c x h => (c.slot_of_entry x h).1
  table_eq := openPositions_eq

end Processed

/-! ## Runs -/

theorem openPositions_isOpen (h : Run a calls b) (ha : a.openPositions = []) :
    ∀ x ∈ b.openPositions, x.isOpen = true := by
  intro x hx
  obtain ⟨later, c, earlier, -, hentry, -⟩ := (Processed.slots.mem_iff_of_empty h ha).mp hx
  exact (c.slot_of_entry x hentry).2

/-- What is open after a run from an empty book: each position that some fill opened and that no later fill is
booked under, once, and each of them with a quantity. -/
theorem open_positions_of_run (h : Run a calls b) (ha : a.openPositions = []) :
    (∀ x, x ∈ b.openPositions ↔
      ∃ later c earlier, calls = later ++ c :: earlier ∧ c.entry = some x ∧ ∀ d ∈ later, d.slot ≠ some x.id) ∧
      (b.openPositions.map Position.id).Nodup ∧ ∀ x ∈ b.openPositions, x.isOpen = true := by
  exact ⟨fun x => Processed.slots.mem_iff_of_empty h ha, Processed.slots.nodup h ha, openPositions_isOpen h ha⟩

def LiquidationInstruction.ids (i : LiquidationInstruction) : List PositionId :=
  i.positions.map LiquidationPosition.positionId

/-- An entry, a loss that liquidates, and the exit that acknowledges it. -/
theorem liquidated_entry :
    ∃ (a : Account) (r₁ r₂ r₃ : PipelineResult), a.openPositions = [] ∧
      (Pipeline.ofPlan (.default ⟨1⟩ 0)).process ((Env.at 1).drawing 1) a
          (.tradeFilled (openingFill .buy .entry 2 1)) = .ok r₁ ∧
        (Pipeline.ofPlan (.default ⟨1⟩ 0)).process (.at (Duration.seconds 2)) r₁.account
            (.tick (tickAt 2) 1000 1000) = .ok r₂ ∧
          (Pipeline.ofPlan (.default ⟨1⟩ 0)).process (.at (Duration.seconds 3)) r₂.account
              (.tradeFilled (closingFill (-10) (Duration.seconds 3))) = .ok r₃ ∧
            r₁.account.openPositions.map Position.id = [⟨1⟩] ∧
              (liquidations r₂.events).map LiquidationInstruction.ids = [[⟨1⟩]] := by
  have hrun :
      (do
        let a ← (Account.new ⟨1⟩ ⟨1⟩ (.default ⟨1⟩ 0)).start 0
        let r₁ ← (Pipeline.ofPlan (.default ⟨1⟩ 0)).process ((Env.at 1).drawing 1) a
          (.tradeFilled (openingFill .buy .entry 2 1))
        let r₂ ← (Pipeline.ofPlan (.default ⟨1⟩ 0)).process (.at (Duration.seconds 2)) r₁.account
          (.tick (tickAt 2) 1000 1000)
        let _ ← (Pipeline.ofPlan (.default ⟨1⟩ 0)).process (.at (Duration.seconds 3)) r₂.account
          (.tradeFilled (closingFill (-10) (Duration.seconds 3)))
        pure (a.openPositions, r₁.account.openPositions.map Position.id,
          (liquidations r₂.events).map LiquidationInstruction.ids)) =
        .ok ([], [⟨1⟩], [[⟨1⟩]]) := by
    decide +kernel
  obtain ⟨a, -, hrun⟩ := bind_eq_ok.mp hrun
  obtain ⟨r₁, h₁, hrun⟩ := bind_eq_ok.mp hrun
  obtain ⟨r₂, h₂, hrun⟩ := bind_eq_ok.mp hrun
  obtain ⟨r₃, h₃, hrun⟩ := bind_eq_ok.mp hrun
  obtain ⟨hempty, hfacts⟩ := Prod.mk.inj (pure_eq_ok.mp hrun)
  exact ⟨a, r₁, r₂, r₃, hempty, h₁, h₂, h₃, Prod.mk.inj hfacts⟩

theorem open_positions_of_entry :
    ∃ a calls b x, Run a calls b ∧ x ∈ b.openPositions ∧
      ∃ later c earlier, calls = later ++ c :: earlier ∧ c.entry = some x ∧
        ∀ d ∈ later, d.slot ≠ some x.id := by
  obtain ⟨a, r₁, r₂, r₃, hempty, h₁, h₂, -, hids, -⟩ := liquidated_entry
  have hrun : Run a [.of h₁] r₁.account := .cons (Processed.of h₁) .nil
  obtain ⟨x, hx⟩ := List.exists_mem_of_ne_nil r₁.account.openPositions fun h => by rw [h] at hids; cases hids
  exact ⟨a, _, r₁.account, x, hrun, hx, ((open_positions_of_run hrun hempty).1 x).mp hx⟩

/-! ## Liquidations -/

def Position.notional (x : Position) : Money := |x.openQuantity * x.avgEntryPrice|

theorem LiquidationInstruction.new_of_open {accountId : AccountId} {tenantId : TenantId} {xs : List Position}
    {reason : LiquidationReason} {violation : Option ViolationId} {actorId : String} {t : Timestamp}
    (h : ∀ x ∈ xs, x.isOpen = true) :
    (new accountId tenantId xs reason violation actorId t).positions = xs.map .fromPosition ∧
      (new accountId tenantId xs reason violation actorId t).estimatedNotional =
        (xs.map Position.notional).sum := by
  simp only [new, List.filter_eq_self.mpr h, List.map_map, true_and]
  congr 1
  refine List.map_congr_left fun x _ => ?_
  simp [InstrumentRegistry.new, InstrumentRegistry.get, InstrumentSpec.notional, InstrumentSpec.default,
    LiquidationPosition.fromPosition, Position.notional]

theorem Processed.liquidation_eq (c : Processed) {i : LiquidationInstruction}
    (hi : i ∈ liquidations c.result.events) :
    ∃ reason violation actorId t,
      i = .new c.after.id c.after.tenantId c.after.openPositions reason violation actorId t := by
  obtain ⟨s⟩ := c.passage
  rw [s.liquidations_eq] at hi
  split at hi
  · obtain rfl := List.mem_singleton.mp hi
    have hframe : (c.after.id, c.after.tenantId, c.after.openPositions) =
        (s.promoted.id, s.promoted.tenantId, s.promoted.openPositions) :=
      s.account_reading (fun x => (x.id, x.tenantId, x.openPositions)) fun _ _ _ _ => rfl
    obtain ⟨hid, hframe⟩ := Prod.mk.inj hframe
    obtain ⟨htenant, hpositions⟩ := Prod.mk.inj hframe
    rw [hid, htenant, hpositions]
    exact ⟨_, _, _, _, rfl⟩
  · cases hi

/-- Each liquidation in a run from an empty book is for the account, lists every position that is open then,
and estimates the notional by the entry prices. -/
theorem liquidation_covers_book {c : Processed} {i : LiquidationInstruction} (h : Run a (c :: calls) b)
    (ha : a.openPositions = []) (hi : i ∈ liquidations c.result.events) :
    i.accountId = b.id ∧ i.tenantId = b.tenantId ∧ i.positions = b.openPositions.map .fromPosition ∧
      i.estimatedNotional = (b.openPositions.map Position.notional).sum := by
  have hopen := openPositions_isOpen h ha
  cases h with
  | cons _ _ =>
      obtain ⟨reason, violation, actorId, t, rfl⟩ := c.liquidation_eq hi
      exact ⟨rfl, rfl, LiquidationInstruction.new_of_open hopen⟩

theorem liquidation_covers_entry :
    ∃ a c calls b i, Run a (c :: calls) b ∧ i ∈ liquidations c.result.events ∧ i.ids = [⟨1⟩] ∧
      i.positions = b.openPositions.map .fromPosition := by
  obtain ⟨a, r₁, r₂, r₃, hempty, h₁, h₂, -, -, hids⟩ := liquidated_entry
  have hrun : Run a [.of h₂, .of h₁] r₂.account := .cons (Processed.of h₂) (.cons (Processed.of h₁) .nil)
  obtain ⟨i, hi, hi'⟩ := List.mem_map.mp (by rw [hids]; exact List.mem_singleton_self _)
  exact ⟨a, _, _, r₂.account, i, hrun, hi, hi', (liquidation_covers_book hrun hempty hi).2.2.1⟩

/-- A liquidation that is acknowledged empties the book: once every position it lists was exited, in any
order and among any other events that open nothing, no position is left. -/
theorem acknowledged_liquidation_empties_book {c : Processed} {i : LiquidationInstruction}
    {acknowledgements : List Processed} {d : Account} (h : Run a (c :: calls) b)
    (ha : a.openPositions = []) (hi : i ∈ liquidations c.result.events) (hafter : Run b acknowledgements d)
    (hexits : ∀ x ∈ i.positions, ∃ e ∈ acknowledgements, e.slot = some x.positionId)
    (hopens : ∀ e ∈ acknowledgements, e.entry = none) : d.openPositions = [] := by
  have hopen := openPositions_isOpen h ha
  have hpositions : i.positions = b.openPositions.map .fromPosition := by
    cases h with
    | cons _ _ =>
        obtain ⟨reason, violation, actorId, t, rfl⟩ := c.liquidation_eq hi
        exact (LiquidationInstruction.new_of_open hopen).1
  refine Processed.slots.empties hafter (fun x hx => ?_) hopens
  exact hexits (.fromPosition x) (by rw [hpositions]; exact List.mem_map_of_mem hx)

theorem acknowledged_liquidation_empties_entry :
    ∃ a b d calls acknowledgements, Run a calls b ∧ b.openPositions ≠ [] ∧ Run b acknowledgements d ∧
      d.openPositions = [] := by
  obtain ⟨a, r₁, r₂, r₃, hempty, h₁, h₂, h₃, -, hids⟩ := liquidated_entry
  have hrun : Run a [.of h₂, .of h₁] r₂.account := .cons (Processed.of h₂) (.cons (Processed.of h₁) .nil)
  have hafter : Run r₂.account [.of h₃] r₃.account := .cons (Processed.of h₃) .nil
  obtain ⟨i, hi, hi'⟩ := List.mem_map.mp (by rw [hids]; exact List.mem_singleton_self _)
  have hd := acknowledged_liquidation_empties_book hrun hempty hi hafter (fun x hx => by
    have hx' : x.positionId ∈ i.ids := List.mem_map_of_mem hx
    rw [hi'] at hx'
    rw [List.mem_singleton.mp hx']
    exact ⟨.of h₃, List.mem_singleton_self _, rfl⟩) (by simp; rfl)
  refine ⟨a, r₂.account, r₃.account, _, _, hrun, fun hnone => ?_, hafter, hd⟩
  obtain ⟨reason, violation, actorId, t, rfl⟩ := (Processed.of h₂).liquidation_eq hi
  rw [show (Processed.of h₂).after.openPositions = [] from hnone] at hi'
  cases hi'

end Propfirm
