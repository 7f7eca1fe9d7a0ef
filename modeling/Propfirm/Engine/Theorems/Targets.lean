import Propfirm.Engine.Lemmas.Runs
import Propfirm.Engine.Lemmas.Targets
import Propfirm.Engine.Theorems.Breaches
import Propfirm.Engine.Theorems.Promotion

/-!
# Reached targets

A target is marked whatever the status of the account, but only an active account becomes pending by it.
An account in a breach takes the status it remembers when the breach is overridden.
-/

namespace Propfirm

open Fallible

variable {p : Pipeline} {env : Env} {a b : Account} {ev : PipelineEvent} {r : PipelineResult}
  {calls : List Processed}

/-! ## Tracks -/

/-- What decides whether a reached target can still lead to a promotion. -/
structure Track where
  status : AccountStatus
  memory : Option AccountStatus
  reached : Bool

def Account.track (a : Account) : Track := ⟨a.status, a.statusBeforeBreach, a.targetReachedAt.isSome⟩

/-- A status that agrees with whether the target is reached: one that has reached it does not lead back
to an active account, and is no breach. -/
def AccountStatus.Fits (reached : Bool) (st : AccountStatus) : Prop :=
  if reached then st ≠ .pending ∧ st ≠ .active ∧ st.isBreachTerminal = false
  else st ≠ .targetHitPending

/-- The status fits, or in a breach what is remembered does; a reached target is not forgotten. -/
structure Track.Sound (t : Track) : Prop where
  up : t.status.isBreachTerminal = false → t.memory = none ∧ t.status.Fits t.reached
  down : t.status.isBreachTerminal = true →
    (∀ st ∈ t.memory, st.Fits t.reached) ∧ (t.reached = true → t.memory.isSome = true)

namespace Track.Sound

variable {st d : AccountStatus} {memory : Option AccountStatus} {reached : Bool}

theorem of_up (hup : st.isBreachTerminal = false) (hfits : st.Fits reached) :
    Sound ⟨st, none, reached⟩ :=
  ⟨fun _ => ⟨rfl, hfits⟩, fun hdown => (by rw [hup] at hdown; cases hdown)⟩

theorem of_down (hdown : d.isBreachTerminal = true) (hfits : ∀ st ∈ memory, st.Fits reached)
    (hsome : reached = true → memory.isSome = true) : Sound ⟨d, memory, reached⟩ :=
  ⟨fun hup => (by rw [hdown] at hup; cases hup), fun _ => ⟨hfits, hsome⟩⟩

/-- Between statuses that are no breaches nothing is remembered. -/
theorem move {st' : AccountStatus} {reached' : Bool} (h : Sound ⟨st, memory, reached⟩)
    (hst : st.isBreachTerminal = false) (hst' : st'.isBreachTerminal = false)
    (hfits : st.Fits reached → st'.Fits reached') : Sound ⟨st', memory, reached'⟩ := by
  obtain ⟨hmemory, hst⟩ := h.up hst
  obtain rfl : memory = none := hmemory
  exact of_up hst' (hfits hst)

theorem fits_of_breach (hdown : d.isBreachTerminal = true) : d.Fits false := by
  rintro rfl
  cases hdown

/-- A breach of a sound account remembers it; of a breached one it may, as long as no target is lost. -/
theorem fall (h : Sound ⟨st, memory, reached⟩) (hdown : d.isBreachTerminal = true)
    (hrepeat : st.isBreachTerminal = true → reached = false) : Sound ⟨d, some st, reached⟩ := by
  refine of_down hdown (fun st' hst => ?_) fun _ => rfl
  obtain rfl := Option.mem_some.mp hst
  cases hup : st.isBreachTerminal with
  | false => exact (h.up hup).2
  | true => rw [hrepeat hup]; exact fits_of_breach hup

theorem stop (h : Sound ⟨st, memory, reached⟩) :
    Sound ⟨.emergencyStopped, if memory.isNone then some st else memory, reached⟩ := by
  cases memory with
  | none =>
      refine h.fall rfl fun hdown => ?_
      by_contra hne
      cases (h.down hdown).2 (by simpa using hne)
  | some m =>
      cases hup : st.isBreachTerminal with
      | false => cases (h.up hup).1
      | true => exact of_down rfl (h.down hup).1 (h.down hup).2

theorem clear (h : Sound ⟨d, memory, reached⟩) (hdown : d.isBreachTerminal = true)
    (hst : st.Fits false) (hup : st.isBreachTerminal = false) :
    Sound ⟨memory.getD st, none, reached⟩ := by
  obtain ⟨hfits, hsome⟩ := h.down hdown
  cases memory with
  | none =>
      cases reached with
      | false => exact of_up hup hst
      | true => cases hsome rfl
  | some m =>
      have hm := hfits m rfl
      cases hm' : m.isBreachTerminal with
      | false => exact of_up hm' hm
      | true =>
          -- a breach was remembered, so no target has been reached
          cases reached with
          | false => exact of_down hm' nofun nofun
          | true =>
              have hup := hm.2.2
              rw [hm'] at hup
              cases hup

end Track.Sound

theorem Track.Sound.fits {st : AccountStatus} (h : a.track.Sound) (hs : a.status = st)
    (hup : st.isBreachTerminal = false) : st.Fits a.targetReachedAt.isSome := by
  subst hs
  exact (h.up hup).2

/-- On a sound track an active account has not reached its target and a pending one has. -/
theorem Track.Sound.target (h : a.track.Sound) :
    (a.status = .active → a.targetReachedAt = none) ∧
      (a.status = .targetHitPending → a.targetReachedAt.isSome = true) := by
  constructor
  · intro hs
    have hfits := h.fits hs rfl
    cases htarget : a.targetReachedAt with
    | none => rfl
    | some t => rw [htarget] at hfits; exact absurd rfl hfits.2.1
  · intro hs
    have hfits := h.fits hs rfl
    cases htarget : a.targetReachedAt with
    | none => rw [htarget] at hfits; exact absurd rfl hfits
    | some t => rfl

/-! ## Events -/

theorem AccountStatus.fits_funded {reached : Bool} : AccountStatus.funded.Fits reached := by
  cases reached <;> simp [Fits, isBreachTerminal]

theorem AccountStatus.fits_payoutPending {reached : Bool} : AccountStatus.payoutPending.Fits reached := by
  cases reached <;> simp [Fits, isBreachTerminal]

theorem Transition.track_sound (h : Transition env a ev b) (ha : a.track.Sound) : b.track.Sound := by
  cases h with
  | accountStarted h =>
      obtain ⟨hs, dayStart, -, rfl⟩ := Account.start_eq h
      refine ha.move (by rw [hs]; rfl) rfl fun hfits => ?_
      rw [hs] at hfits
      cases htarget : a.targetReachedAt with
      | none => exact nofun
      | some t => rw [htarget] at hfits; exact absurd rfl hfits.1
  | orderSubmitted => exact ha
  | tradeFilled =>
      rw [eq_of_outsideDays markActiveTradingDay_outsideDays Account.track fun _ => rfl]
      exact ha
  | tick h => exact ha
  | tickEstimated => exact ha
  | dayRollover h =>
      rw [eq_of_outsideDays (rolloverDay_outsideDays h) Account.track fun _ => rfl]
      exact ha
  | endOfDay => exact ha
  | onDemand => exact ha
  | emergencyStop => exact Track.Sound.stop ha
  | overrideBreach h =>
      obtain ⟨hs, rfl⟩ := Account.clearBreach_eq h
      exact Track.Sound.clear ha hs (by split <;> simp [AccountStatus.Fits]) (by split <;> rfl)
  | payoutRequest h =>
      obtain ⟨hs, rfl⟩ := Account.markPayoutPending_ok h
      exact ha.move (AccountStatus.isBreachTerminal_of_payable hs) rfl
        fun _ => AccountStatus.fits_payoutPending
  | payoutApprove h =>
      obtain ⟨hs, rfl⟩ := recordPayout_eq h
      exact ha.move (AccountStatus.isBreachTerminal_of_payable hs) rfl fun _ => AccountStatus.fits_funded

/-! ## Stages -/

/-- While the account is not yet started, or in a breach, its target is not hit; once it is reached, no
rule breaches an account that is in a breach. -/
def Evaluated.TargetKept (s : Evaluated env a ev) (p : Pipeline) : Prop :=
  (s.applied.account.targetReachedAt = none →
      s.applied.account.status = .pending ∨ s.applied.account.status.isBreachTerminal = true →
        (s.decision p).kind ≠ .targetHit) ∧
    (s.applied.account.targetReachedAt ≠ none → s.NoRepeatedBreach p)

theorem Evaluated.applied_track_sound (s : Evaluated env a ev) (ha : a.track.Sound) :
    s.applied.account.track.Sound := by
  obtain ⟨trades, htr⟩ := applyEvent_transition s.apply_eq
  rw [← s.routed_reading Account.track fun _ => rfl] at ha
  exact htr.track_sound ha

theorem Evaluated.filled_track (s : Evaluated env a ev) : s.filled.track = s.applied.account.track := by
  rw [filled]
  cases s.applied.tradeFill <;> rfl

theorem Evaluated.marked_track_sound (s : Evaluated env a ev) (hkept : s.TargetKept p)
    (h : s.applied.account.track.Sound) : (s.marked p).track.Sound := by
  have hfilled := s.filled_track
  rw [marked, applyTargetHit_fst]
  split
  · rename_i hkind
    unfold Account.markTargetReached
    split
    · rename_i hnone
      have htarget : s.applied.account.targetReachedAt = none := by
        have hreached : s.filled.targetReachedAt.isSome = s.applied.account.targetReachedAt.isSome :=
          congrArg Track.reached hfilled
        rw [Option.isNone_iff_eq_none.mp hnone] at hreached
        simpa using hreached.symm
      have hstatus : s.filled.status = s.applied.account.status := congrArg Track.status hfilled
      have hfound : s.filled.status ≠ .pending ∧ s.filled.status.isBreachTerminal = false := by
        rw [hstatus]
        have hnot := fun hfound => hkept.1 htarget hfound hkind
        exact ⟨fun hs => hnot (.inl hs), by simpa using fun hs => hnot (.inr hs)⟩
      rw [← hfilled] at h
      refine h.move hfound.2 ?_ fun _ => ?_
      · split
        · rfl
        · exact hfound.2
      · split
        · exact ⟨by simp, by simp, rfl⟩
        · rename_i hactive
          exact ⟨hfound.1, hactive, hfound.2⟩
    · rwa [hfilled]
  · rwa [hfilled]

theorem Passage.promoted_track_sound (s : Passage p env a ev r) (h : (s.marked p).track.Sound) :
    s.promoted.track.Sound := by
  rcases applyPromotion_ok s.promotion_eq with ⟨-, heq, -⟩ | ⟨hp, -, heq, -⟩
  · rwa [heq]
  · rw [heq]
    simp only [Account.promotable, Bool.and_eq_true, beq_iff_eq] at hp
    refine h.move (by rw [hp.1.2]; rfl) rfl fun _ => ?_
    intro hpending
    cases hpending

theorem Passage.account_track_sound (s : Passage p env a ev r) (hkept : s.TargetKept p)
    (h : s.promoted.track.Sound) : r.account.track.Sound := by
  unfold Account.track
  rw [s.account_status, s.account_statusBeforeBreach, s.account_targetReachedAt]
  cases htarget : (s.decision p).accountStatusTarget with
  | none => exact h
  | some d =>
      refine h.fall (accountStatusTarget_isBreachTerminal htarget) fun hbreach => ?_
      -- a target reached in a breach was reached before the call, and then no rule breaches again
      have happlied : s.applied.account.status.isBreachTerminal = true :=
        s.promoted_isBreachTerminal.symm.trans hbreach
      have hkind : (s.decision p).kind ≠ .targetHit := by
        intro hkind
        simp [Decision.accountStatusTarget, hkind] at htarget
      have hpromoted : s.promoted.targetReachedAt = s.applied.account.targetReachedAt := by
        rcases applyPromotion_ok s.promotion_eq with ⟨-, heq, -⟩ | ⟨-, -, heq, -⟩
        · rw [heq, s.marked_targetReachedAt hkind]
          exact (congrArg Ladder.targetReachedAt s.applied_ladder).symm
        · rw [heq] at hbreach
          cases hbreach
      by_contra hreached
      rw [hpromoted, Bool.not_eq_false, Option.isSome_iff_ne_none] at hreached
      rw [(hkept.2 hreached).target happlied] at htarget
      cases htarget

/-! ## Runs -/

def Processed.TargetKept (c : Processed) : Prop :=
  ∀ s : Evaluated c.env c.before c.ev, s.TargetKept c.pipeline

theorem Processed.track_sound (c : Processed) (hkept : c.TargetKept) (h : c.before.track.Sound) :
    c.after.track.Sound := by
  obtain ⟨s⟩ := c.passage
  have hs := hkept s.toEvaluated
  exact s.account_track_sound hs (s.promoted_track_sound (s.marked_track_sound hs (s.applied_track_sound h)))

theorem Account.Fresh.track_sound (h : a.Fresh) : a.track.Sound := by
  rcases h with ⟨id, tenantId, plan, rfl⟩ | ⟨id, tenantId, plan, at_, h⟩
  · exact .of_up rfl nofun
  · obtain ⟨-, dayStart, -, rfl⟩ := Account.start_eq h
    exact .of_up rfl nofun

/-- While no target is hit by an account that is not yet started or in a breach, and no breach repeated
on one that has reached its target, a reached target is never stranded. -/
theorem targets_not_stranded (ha : a.Fresh) (h : Run a calls b) (hcalls : ∀ c ∈ calls, c.TargetKept) :
    (b.status = .active → b.targetReachedAt = none) ∧
      (b.status = .targetHitPending → b.targetReachedAt.isSome = true) ∧
      (b.targetReachedAt.isSome = true → b.status = .active ∨ b.status = .targetHitPending →
        b.plan.minTradingDays ≤ b.activeTradingDays → b.promotable = true) := by
  have hsound : b.track.Sound :=
    h.invariant (fun x : Account => x.track.Sound) (fun c hc hbefore => c.track_sound hc hbefore) hcalls
      ha.track_sound
  obtain ⟨hactive, hpending⟩ := hsound.target
  refine ⟨hactive, hpending, fun hreached hstatus hdays => ?_⟩
  rcases hstatus with hs | hs
  · rw [hactive hs] at hreached
    cases hreached
  · simp [Account.promotable, hreached, hs, hdays]

theorem targets_not_stranded_tick :
    ∃ (a b : Account) (calls : List Processed),
      a.Fresh ∧ Run a calls b ∧ calls.map Processed.ev = [.tick (tickAt 1) 20000 20000] ∧
        b.status = .targetHitPending ∧ b.targetReachedAt.isSome = true := by
  have hrun :
      (do
        let a ← (Account.new ⟨1⟩ ⟨1⟩ (.default ⟨1⟩ 0)).start 0
        let r ← (Pipeline.ofPlan (.default ⟨1⟩ 0)).process (.at (Duration.seconds 1)) a
          (.tick (tickAt 1) 20000 20000)
        pure (a.status, r.account.status)) = .ok (.active, .targetHitPending) := by
    decide +kernel
  obtain ⟨a, hstart, hrun⟩ := bind_eq_ok.mp hrun
  obtain ⟨r, h, hrun⟩ := bind_eq_ok.mp hrun
  obtain ⟨hactive, hpending⟩ := Prod.mk.inj (pure_eq_ok.mp hrun)
  have hfresh : a.Fresh := .inr ⟨_, _, _, _, hstart⟩
  have hcalls : Run a [.of h] r.account := .cons (Processed.of h) .nil
  refine ⟨a, r.account, _, hfresh, hcalls, rfl, hpending,
    (targets_not_stranded hfresh hcalls ?_).2.1 hpending⟩
  simp only [List.forall_mem_cons, List.not_mem_nil, false_imp_iff, implies_true, and_true]
  intro s
  have hstatus : s.applied.account.status = .active := by
    obtain ⟨trades, htr⟩ := applyEvent_transition s.apply_eq
    generalize s.applied.account = x at htr
    cases htr
    exact s.routed_status.trans hactive
  constructor
  · rintro - (hs | hs) <;> rw [hstatus] at hs <;> cases hs
  · intro _ hs
    rw [hstatus] at hs
    cases hs

/-- A stopped account hits its target; once the stop is overridden it is active, and the target it has
reached is never marked again. -/
theorem target_stranded :
    ∃ (a b : Account) (calls : List Processed),
      a.Fresh ∧ Run a calls b ∧ b.status = .active ∧ b.targetReachedAt.isSome = true ∧
        b.plan.minTradingDays ≤ b.activeTradingDays ∧ b.promotable = false := by
  have hrun :
      (do
        let a ← (Account.new ⟨1⟩ ⟨1⟩ promptPlan).start 0
        let r₁ ← (Pipeline.ofPlan promptPlan).process (.at (Duration.seconds 1)) a
          (.emergencyStop "manual stop" "operations" (Duration.seconds 1))
        let r₂ ← (Pipeline.ofPlan promptPlan).process (.at (Duration.seconds 2)) r₁.account
          (.tick (tickAt 2) 20000 20000)
        let r₃ ← (Pipeline.ofPlan promptPlan).process (.at (Duration.seconds 3)) r₂.account
          (.overrideBreach ⟨⟨1⟩, ⟨0⟩, "stopped in error", "operations", Duration.seconds 3⟩)
        let r₄ ← (Pipeline.ofPlan promptPlan).process (.at (Duration.seconds 4)) r₃.account
          (.tick (tickAt 4) 20000 20000)
        pure (r₄.account.status, r₄.account.targetReachedAt.isSome,
          decide (r₄.account.plan.minTradingDays ≤ r₄.account.activeTradingDays),
          r₄.account.promotable)) = .ok (.active, true, true, false) := by
    decide +kernel
  obtain ⟨a, hstart, hrun⟩ := bind_eq_ok.mp hrun
  obtain ⟨r₁, h₁, hrun⟩ := bind_eq_ok.mp hrun
  obtain ⟨r₂, h₂, hrun⟩ := bind_eq_ok.mp hrun
  obtain ⟨r₃, h₃, hrun⟩ := bind_eq_ok.mp hrun
  obtain ⟨r₄, h₄, hrun⟩ := bind_eq_ok.mp hrun
  have hfacts := pure_eq_ok.mp hrun
  simp only [Prod.mk.injEq, decide_eq_true_eq] at hfacts
  have hcalls : Run a [.of h₄, .of h₃, .of h₂, .of h₁] r₄.account :=
    .cons (Processed.of h₄) (.cons (Processed.of h₃) (.cons (Processed.of h₂)
      (.cons (Processed.of h₁) .nil)))
  exact ⟨a, r₄.account, _, .inr ⟨_, _, _, _, hstart⟩, hcalls, hfacts⟩

end Propfirm
