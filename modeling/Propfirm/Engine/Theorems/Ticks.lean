import Propfirm.Engine.Lemmas.Runs
import Propfirm.Engine.Theorems.Promotion

/-!
# The order of ticks

A broker tick is refused unless it is newer than the last tick. An estimated tick is always accepted,
and both move the time of the last tick.
-/

namespace Propfirm

open Fallible

variable {p : Pipeline} {env : Env} {a b : Account} {ev : PipelineEvent} {r : PipelineResult}
  {calls : List Processed}

def PipelineEvent.tickTs : PipelineEvent → Option Timestamp
  | .tick t _ _ | .tickEstimated t => some t.quote.ts
  | _ => none

def PipelineEvent.isBrokerTick : PipelineEvent → Bool
  | .tick .. => true
  | _ => false

/-! ## One call -/

theorem stampTick_lastTickTs : (stampTick a ev).lastTickTs = ev.tickTs.or a.lastTickTs := by
  cases ev <;> rfl

theorem Evaluated.applied_lastTickTs (s : Evaluated env a ev) :
    s.applied.account.lastTickTs = a.lastTickTs :=
  s.event_reading Account.lastTickTs (fun _ => rfl) fun _ => rfl

theorem Passage.account_lastTickTs (s : Passage p env a ev r) :
    r.account.lastTickTs = ev.tickTs.or a.lastTickTs := by
  have hterminated : (s.terminated p s.promoted).lastTickTs = s.promoted.lastTickTs := by
    unfold Evaluated.terminated applyTermination
    cases (s.decision p).accountStatusTarget <;> rfl
  have hpromoted : s.promoted.lastTickTs = (s.marked p).lastTickTs := by
    rcases applyPromotion_ok s.promotion_eq with ⟨-, heq, -⟩ | ⟨-, -, heq, -⟩ <;> rw [heq]
    rfl
  rw [s.account_eq, stampTick_lastTickTs, hterminated, hpromoted,
    s.marked_reading p Account.lastTickTs fun _ _ _ _ _ _ => rfl, s.applied_lastTickTs]

theorem admitTick_ok {now : Timestamp} {last : Option Timestamp} {tick : Tick}
    (h : admitTick now last tick = .ok ()) {t : Timestamp} (ht : t ∈ last) : t < tick.quote.ts := by
  obtain rfl := Option.mem_def.mp ht
  unfold admitTick at h
  dsimp only at h
  split at h
  · cases h
  · split at h
    · cases h
    · rename_i hnot; exact not_le.mp hnot

/-- An accepted broker tick is newer than the last tick. -/
theorem Passage.brokerTick_newer (s : Passage p env a ev r) (hev : ev.isBrokerTick = true)
    {t u : Timestamp} (ht : t ∈ a.lastTickTs) (hu : u ∈ ev.tickTs) : t < u := by
  obtain ⟨trades, htr⟩ := applyEvent_transition s.apply_eq
  have hrouted : s.routed.lastTickTs = a.lastTickTs :=
    s.routed_reading Account.lastTickTs fun _ => rfl
  rw [← hrouted] at ht
  generalize s.applied.account = x at htr
  cases htr with
  | tick hadmit =>
      obtain rfl := Option.mem_some.mp hu
      exact admitTick_ok hadmit ht
  | _ => cases hev

/-! ## Runs -/

/-- The second time is there, and no earlier, if the first is there. -/
def NotLater (x y : Option Timestamp) : Prop := ∀ t ∈ x, ∃ u ∈ y, t ≤ u

theorem NotLater.refl (x : Option Timestamp) : NotLater x x := fun t ht => ⟨t, ht, le_rfl⟩

theorem NotLater.trans {x y z : Option Timestamp} (h : NotLater x y) (h' : NotLater y z) : NotLater x z := by
  intro t ht
  obtain ⟨u, hu, hle⟩ := h t ht
  obtain ⟨v, hv, hle'⟩ := h' u hu
  exact ⟨v, hv, hle.trans hle'⟩

namespace Processed

/-- An estimated tick of the call is no older than the last tick. -/
def EstimateInOrder (c : Processed) : Prop :=
  ∀ tick, c.ev = .tickEstimated tick → NotLater c.before.lastTickTs (some tick.quote.ts)

def NeverBack (c : Processed) : Prop := NotLater c.before.lastTickTs c.after.lastTickTs

theorem after_lastTickTs (c : Processed) : c.after.lastTickTs = c.ev.tickTs.or c.before.lastTickTs := by
  obtain ⟨s⟩ := c.passage
  exact s.account_lastTickTs

/-- The time of the last tick goes back only with an estimated tick. -/
theorem neverBack_iff (c : Processed) : c.NeverBack ↔ c.EstimateInOrder := by
  obtain ⟨s⟩ := c.passage
  rw [NeverBack, after_lastTickTs]
  constructor
  · rintro h tick hev
    rw [hev] at h
    exact h
  · intro h
    cases hev : c.ev with
    | tick tick equity balance =>
        intro t ht
        refine ⟨tick.quote.ts, rfl, (s.brokerTick_newer (by rw [hev]; rfl) ht ?_).le⟩
        rw [hev]
        rfl
    | tickEstimated tick => exact h tick hev
    | _ => exact .refl _

end Processed

/-- The later call is no broker tick, or newer than whatever tick the earlier one was. -/
def NewerThan (later earlier : Processed) : Prop :=
  later.ev.isBrokerTick = true → ∀ t ∈ earlier.ev.tickTs, ∀ u ∈ later.ev.tickTs, t < u

/-- As long as the time of the last tick does not go back, it is no older than any tick of the run. -/
theorem Run.tickTs_le (h : Run a calls b) (hcalls : ∀ c ∈ calls, c.NeverBack) :
    ∀ c ∈ calls, NotLater c.ev.tickTs b.lastTickTs := by
  induction h with
  | nil => simp
  | cons c _ ih =>
      rw [List.forall_mem_cons] at hcalls
      refine List.forall_mem_cons.mpr ⟨fun t ht => ⟨t, ?_, le_rfl⟩, fun c' hc' => ?_⟩
      · rw [c.after_lastTickTs, Option.mem_def.mp ht]
        rfl
      · exact (ih hcalls.2 c' hc').trans hcalls.1

theorem Run.newerThan (h : Run a calls b) (hcalls : ∀ c ∈ calls, c.NeverBack) : calls.Pairwise NewerThan := by
  induction h with
  | nil => exact .nil
  | cons c hrun ih =>
      rw [List.forall_mem_cons] at hcalls
      refine .cons (fun c' hc' hbroker t ht u hu => ?_) (ih hcalls.2)
      obtain ⟨last, hlast, hle⟩ := Run.tickTs_le hrun hcalls.2 c' hc' t ht
      obtain ⟨s⟩ := c.passage
      exact hle.trans_lt (s.brokerTick_newer hbroker hlast hu)

/-- Along a run the time of the last tick never goes back, and each accepted broker tick is newer than
every tick accepted before it, exactly if no estimated tick is older than the last tick. -/
theorem ticks_ordered_iff (h : Run a calls b) :
    ((∀ c ∈ calls, c.NeverBack) ∧ calls.Pairwise NewerThan) ↔ ∀ c ∈ calls, c.EstimateInOrder := by
  constructor
  · rintro ⟨hback, -⟩ c hc
    exact c.neverBack_iff.mp (hback c hc)
  · intro hcalls
    have hback : ∀ c ∈ calls, c.NeverBack := fun c hc => c.neverBack_iff.mpr (hcalls c hc)
    exact ⟨hback, h.newerThan hback⟩

theorem ticks_ordered_broker :
    ∃ (a b : Account) (calls : List Processed),
      Run a calls b ∧
        calls.map Processed.ev =
          [.tick (tickAt 3) 10000 10000, .tickEstimated (tickAt 2), .tick (tickAt 1) 10000 10000] ∧
        (∀ c ∈ calls, c.NeverBack) ∧ calls.Pairwise NewerThan := by
  have hrun :
      (do
        let a ← (Account.new ⟨1⟩ ⟨1⟩ promptPlan).start 0
        let r ← (Pipeline.ofPlan promptPlan).process (.at (Duration.seconds 1)) a
          (.tick (tickAt 1) 10000 10000)
        let r' ← (Pipeline.ofPlan promptPlan).process (.at (Duration.seconds 2)) r.account
          (.tickEstimated (tickAt 2))
        let r'' ← (Pipeline.ofPlan promptPlan).process (.at (Duration.seconds 3)) r'.account
          (.tick (tickAt 3) 10000 10000)
        pure (r.account.lastTickTs, r''.account.status)) =
        .ok (some (Duration.seconds 1), .active) := by
    decide +kernel
  obtain ⟨a, -, hrun⟩ := bind_eq_ok.mp hrun
  obtain ⟨r, h, hrun⟩ := bind_eq_ok.mp hrun
  obtain ⟨r', h', hrun⟩ := bind_eq_ok.mp hrun
  obtain ⟨r'', h'', hrun⟩ := bind_eq_ok.mp hrun
  have hlast := (Prod.mk.inj (pure_eq_ok.mp hrun)).1
  have hcalls : Run a [.of h'', .of h', .of h] r''.account :=
    .cons (Processed.of h'') (.cons (Processed.of h') (.cons (Processed.of h) .nil))
  refine ⟨a, r''.account, _, hcalls, rfl, (ticks_ordered_iff hcalls).mpr ?_⟩
  simp only [List.forall_mem_cons, List.not_mem_nil, false_imp_iff, implies_true, and_true]
  refine ⟨by simp [Processed.EstimateInOrder], ?_, by simp [Processed.EstimateInOrder]⟩
  rintro tick hev t ht
  obtain rfl := PipelineEvent.tickEstimated.inj hev
  change t ∈ r.account.lastTickTs at ht
  rw [hlast] at ht
  obtain rfl := Option.mem_some.mp ht
  exact ⟨_, rfl, by decide⟩

/-- A broker tick cannot be replayed at once. After an older estimated tick it can. -/
theorem tick_replayed_after_estimate :
    (do
      let a ← (Account.new ⟨1⟩ ⟨1⟩ promptPlan).start 0
      let x ← (Pipeline.ofPlan promptPlan).run a [brokerTick 10 10000]
      let y ← (Pipeline.ofPlan promptPlan).run x
        [(.at (Duration.seconds 10), .tickEstimated (tickAt 5))]
      let z ← (Pipeline.ofPlan promptPlan).run y [brokerTick 10 10000]
      pure (x.lastTickTs, ((Pipeline.ofPlan promptPlan).run x [brokerTick 10 10000]).toOption.isSome,
        y.lastTickTs, z.lastTickTs)) =
      .ok (some (Duration.seconds 10), false, some (Duration.seconds 5), some (Duration.seconds 10)) := by
  decide +kernel

end Propfirm
