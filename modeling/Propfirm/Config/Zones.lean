import Propfirm.Config.Plan
import Propfirm.Lib.Clock
import Propfirm.Lib.Fallible

/-!
# Time zones

The daily resets of a plan are marks on the clock of its zone. The two functions of the trading day read
them by resolving local times.
-/

namespace Propfirm

open Fallible Clock

variable {tz : Tz} {plan : ChallengePlan} {t u : Timestamp} {d x : ℤ} {ρ : ℤ → Timestamp}

/-! ## Zones -/

namespace Tz

def localTime (tz : Tz) (t : Timestamp) : ℤ := t + tz.offset t

def utc : Tz where
  name := "UTC"
  offset := fun _ => 0
  fromLocal := some

/-- A local time is resolved if exactly one instant has it, and the offset changes by less than a day
within a day. -/
structure Lawful (tz : Tz) : Prop where
  fromLocal_iff : ∀ {x u},
    tz.fromLocal x = some u ↔ tz.localTime u = x ∧ ∀ v, tz.localTime v = x → v = u
  offset_lt : ∀ {t u}, t ≤ u → u ≤ t + Duration.days 1 → |tz.offset u - tz.offset t| < Duration.days 1

/-- What holds of every zone: a resolved local time is that of the instant, and offsets are below a day. -/
structure Sound (tz : Tz) : Prop where
  localTime_eq : ∀ {x u}, tz.fromLocal x = some u → tz.localTime u = x
  offset_lt : ∀ t, |tz.offset t| < Duration.days 1

theorem utc_sound : utc.Sound where
  localTime_eq := by
    intro x u h
    rw [← Option.some.inj h]
    exact add_zero x
  offset_lt := by
    intro t
    simp [utc, Duration.days]

theorem utc_lawful : utc.Lawful where
  fromLocal_iff := by
    intro x u
    simp only [utc, localTime, add_zero, Option.some.injEq]
    exact ⟨fun h => ⟨h.symm, fun v hv => hv.trans h⟩, fun h => h.1.symm⟩
  offset_lt := by
    intro t u _ _
    simp [utc, Duration.days]

theorem Lawful.steady (h : tz.Lawful) : Steady tz.localTime (Duration.days 1) where
  pos := by decide
  drift_lt := by
    intro t u htu hut
    simpa only [localTime, add_sub_cancel_left] using h.offset_lt htu hut

/-- A zone whose offset changes once, as at the start or the end of daylight saving. -/
def ofJump (name : String) (at_ before after : ℤ) : Tz where
  name
  offset := fun t => if t < at_ then before else after
  fromLocal := fun x =>
    if x - before < at_ then
      -- the local time is shown again after the clock is set back
      if at_ ≤ x - after then none else some (x - before)
    else if at_ ≤ x - after then some (x - after)
    -- or it is skipped when the clock is set forward
    else none

theorem ofJump_localTime {name : String} {at_ before after u x : ℤ} :
    (ofJump name at_ before after).localTime u = x ↔
      u < at_ ∧ u + before = x ∨ at_ ≤ u ∧ u + after = x := by
  simp only [localTime, ofJump]
  split
  · rename_i hlt
    exact ⟨fun h => .inl ⟨hlt, h⟩, fun h => h.elim And.right fun h => absurd h.1 (not_le.mpr hlt)⟩
  · rename_i hlt
    exact ⟨fun h => .inr ⟨not_lt.mp hlt, h⟩, fun h => h.elim (fun h => absurd h.1 hlt) And.right⟩

theorem ofJump_fromLocal {name : String} {at_ before after u x : ℤ} :
    (ofJump name at_ before after).fromLocal x = some u ↔
      u < at_ ∧ u + before = x ∧ x < at_ + after ∨ at_ ≤ u ∧ u + after = x ∧ at_ + before ≤ x := by
  simp only [ofJump]
  split <;> split
  · exact iff_of_false nofun (by omega)
  · rw [Option.some.injEq]
    change (x - before : ℤ) = u ↔ _
    omega
  · rw [Option.some.injEq]
    change (x - after : ℤ) = u ↔ _
    omega
  · exact iff_of_false nofun (by omega)

theorem ofJump_lawful {name : String} {at_ before after : ℤ} (h : |after - before| < Duration.days 1) :
    (ofJump name at_ before after).Lawful where
  fromLocal_iff := by
    intro x u
    rw [ofJump_fromLocal, ofJump_localTime]
    constructor
    · intro hu
      refine ⟨by omega, fun v hv => ?_⟩
      rw [ofJump_localTime] at hv
      change @Eq ℤ v u
      omega
    · rintro ⟨hu, hunique⟩
      -- the other instant that may have the local time is not one
      have hbefore : x - before < at_ → (x - before : ℤ) = u := fun hlt =>
        hunique _ (ofJump_localTime.mpr (.inl ⟨hlt, sub_add_cancel x before⟩))
      have hafter : at_ ≤ x - after → (x - after : ℤ) = u := fun hle =>
        hunique _ (ofJump_localTime.mpr (.inr ⟨hle, sub_add_cancel x after⟩))
      omega
  offset_lt := by
    intro t u _ _
    have hzero : |(0 : ℤ)| < Duration.days 1 := by decide
    simp only [ofJump]
    split <;> split
    · rwa [sub_self]
    · rwa [abs_sub_comm]
    · exact h
    · rwa [sub_self]

end Tz

/-! ## Resets -/

namespace ChallengePlan

/-- Plans without a zone are in UTC. -/
def zone (plan : ChallengePlan) : Tz := plan.timezone.getD .utc

def localDate (plan : ChallengePlan) (t : Timestamp) : ℤ := Timestamp.date (plan.zone.localTime t)

/-- The local time of the reset on a date. -/
def resetOn (plan : ChallengePlan) (date : ℤ) : ℤ := Duration.days date + Duration.hours plan.dayResetTime

theorem resetOn_eq (plan : ChallengePlan) (d : ℤ) :
    plan.resetOn d = d * Duration.days 1 + Duration.hours plan.dayResetTime := by
  simp only [resetOn, Duration.days]
  ring

theorem tradingDayStart_eq (hreset : plan.dayResetTime < 24) (t : Timestamp) :
    plan.tradingDayStart t =
      (expect "LocalResult::unwrap" (plan.zone.fromLocal (plan.resetOn (plan.localDate t)))).map fun u =>
        if u ≤ t then u else u - Duration.days 1 := by
  cases htz : plan.timezone with
  | none =>
      simp only [tradingDayStart, htz, atHour, if_pos hreset, zone, localDate, Option.getD_none, Tz.utc,
        Tz.localTime, add_zero, expect]
      simp only [bind, Except.bind, Except.map, pure, Except.pure, resetOn]
      exact (apply_ite Except.ok _ _ _).symm
  | some tz =>
      simp only [tradingDayStart, htz, atHour, if_pos hreset, zone, localDate, Option.getD_some,
        Tz.localTime, resetOn]
      simp only [bind, Except.bind, Except.map, pure, Except.pure]
      cases tz.fromLocal _ with
      | none => rfl
      | some u =>
          simp only [expect]
          exact (apply_ite Except.ok _ _ _).symm

theorem nextTradingDayStart_eq (hreset : plan.dayResetTime < 24) (t : Timestamp) :
    plan.nextTradingDayStart t =
      expect "LocalResult::unwrap" (plan.zone.fromLocal (plan.resetOn (plan.localDate t + 1))) := by
  cases htz : plan.timezone with
  | none =>
      simp only [nextTradingDayStart, htz, atHour, if_pos hreset, zone, localDate, Option.getD_none, Tz.utc,
        Tz.localTime, add_zero, expect, resetOn]
  | some tz =>
      simp only [nextTradingDayStart, htz, atHour, if_pos hreset, zone, localDate, Option.getD_some,
        Tz.localTime, resetOn]
      rfl

/-- On every date the reset is one instant: the local time is neither skipped nor repeated. -/
def ResetsResolve (plan : ChallengePlan) : Prop := ∀ d, ∃! u, plan.zone.localTime u = plan.resetOn d

/-- The instants of the resets, by date. -/
abbrev Resets (plan : ChallengePlan) (ρ : ℤ → Timestamp) : Prop :=
  Marks plan.zone.localTime (Duration.days 1) (Duration.hours plan.dayResetTime) ρ

theorem ResetsResolve.exists_resets (h : plan.ResetsResolve) : ∃ ρ, plan.Resets ρ := by
  choose ρ hρ hunique using h
  refine ⟨ρ, fun d u => ?_⟩
  rw [← resetOn_eq]
  exact ⟨hunique d u, fun hu => hu ▸ hρ d⟩

namespace Resets

theorem fromLocal (h : plan.Resets ρ) (hzone : plan.zone.Lawful) (d : ℤ) :
    plan.zone.fromLocal (plan.resetOn d) = some (ρ d) := by
  rw [resetOn_eq]
  exact hzone.fromLocal_iff.mpr ⟨h.clock_eq d, fun v hv => (h d v).mp hv⟩

theorem tradingDayStart (h : plan.Resets ρ) (hzone : plan.zone.Lawful) (hreset : plan.dayResetTime < 24)
    (t : Timestamp) :
    plan.tradingDayStart t =
      .ok (if ρ (plan.localDate t) ≤ t then ρ (plan.localDate t)
        else ρ (plan.localDate t) - Duration.days 1) := by
  rw [tradingDayStart_eq hreset, h.fromLocal hzone]
  rfl

theorem nextTradingDayStart (h : plan.Resets ρ) (hzone : plan.zone.Lawful)
    (hreset : plan.dayResetTime < 24) (t : Timestamp) :
    plan.nextTradingDayStart t = .ok (ρ (plan.localDate t + 1)) := by
  rw [nextTradingDayStart_eq hreset, h.fromLocal hzone]
  rfl

theorem localDate (h : plan.Resets ρ) (hreset : plan.dayResetTime < 24) (d : ℤ) :
    plan.localDate (ρ d) = d := by
  rw [ChallengePlan.localDate, h.clock_eq]
  simp only [Timestamp.date, Duration.days, Duration.hours]
  omega

end Resets

end ChallengePlan

end Propfirm
