import Propfirm.Config.Zones

/-!
# Trading days in a time zone

The trading days are meant to partition time: each instant belongs to the day of the last reset, and the
next reset ends it. The start of the day is found from the reset on the local date, one day of 24 hours
earlier if that reset is still to come.
-/

namespace Propfirm

open Fallible Clock

namespace ChallengePlan

variable {plan : ChallengePlan} {t : Timestamp} {d : ℤ} {ρ : ℤ → Timestamp}

structure PartitionsTime (plan : ChallengePlan) : Prop where
  start_ok : ∀ t, ∃ s, plan.tradingDayStart t = .ok s ∧ s ≤ t ∧
    Timestamp.timeOfDay (plan.zone.localTime s) = Duration.hours plan.dayResetTime
  idempotent : ∀ {t s}, plan.tradingDayStart t = .ok s → plan.tradingDayStart s = .ok s
  monotone : ∀ {t u s s'}, t ≤ u → plan.tradingDayStart t = .ok s → plan.tradingDayStart u = .ok s' →
    s ≤ s'
  next_ok : ∀ t, ∃ n, plan.nextTradingDayStart t = .ok n
  constant : ∀ {t s n u}, plan.tradingDayStart t = .ok s → plan.nextTradingDayStart s = .ok n →
    s ≤ u → u < n → plan.tradingDayStart u = .ok s

/-- Every reset is one instant. Between two of them the local date is that of the first; or it is that of
the second, and both have the same offset. -/
structure ResetsEvenly (plan : ChallengePlan) : Prop where
  resolve : plan.ResetsResolve
  dates : ∀ {d u v t}, plan.zone.localTime u = plan.resetOn d →
    plan.zone.localTime v = plan.resetOn (d + 1) → u ≤ t → t < v →
      plan.localDate t = d ∨ plan.localDate t = d + 1 ∧ plan.zone.offset u = plan.zone.offset v

/-- Each instant between two resets starts at the first of them. -/
def StartsAtReset (plan : ChallengePlan) (ρ : ℤ → Timestamp) : Prop :=
  ∀ {d t}, ρ d ≤ t → t < ρ (d + 1) → plan.tradingDayStart t = .ok (ρ d)

namespace Resets

theorem next_eq_iff (h : plan.Resets ρ) (d : ℤ) :
    ρ (d + 1) = ρ d + Duration.days 1 ↔ plan.zone.offset (ρ d) = plan.zone.offset (ρ (d + 1)) := by
  have hfirst : ρ d + plan.zone.offset (ρ d) = _ := h.clock_eq d
  have hnext : ρ (d + 1) + plan.zone.offset (ρ (d + 1)) = _ := h.clock_eq (d + 1)
  rw [add_mul, one_mul] at hnext
  constructor <;> intro heq <;> linarith

theorem partitionsTime (h : plan.Resets ρ) (hzone : plan.zone.Lawful) (hreset : plan.dayResetTime < 24)
    (hstart : plan.StartsAtReset ρ) : plan.PartitionsTime := by
  have hmono : StrictMono ρ := h.strictMono hzone.steady
  have hself (d : ℤ) : plan.tradingDayStart (ρ d) = .ok (ρ d) := hstart le_rfl (hmono (lt_add_one d))
  have hbetween (t : Timestamp) :
      ∃ d, plan.tradingDayStart t = .ok (ρ d) ∧ ρ d ≤ t ∧ t < ρ (d + 1) := by
    obtain ⟨d, hd, hlt⟩ := exists_between hmono t
    exact ⟨d, hstart hd hlt, hd, hlt⟩
  have hvalue {t s : Timestamp} (hs : plan.tradingDayStart t = .ok s) :
      ∃ d, s = ρ d ∧ ρ d ≤ t ∧ t < ρ (d + 1) := by
    obtain ⟨d, hd, hle, hlt⟩ := hbetween t
    exact ⟨d, Except.ok.inj (hs.symm.trans hd), hle, hlt⟩
  constructor
  case start_ok =>
    intro t
    obtain ⟨d, hd, hle, -⟩ := hbetween t
    refine ⟨ρ d, hd, hle, ?_⟩
    rw [h.clock_eq]
    simp only [Timestamp.timeOfDay, Duration.days, Duration.hours]
    omega
  case idempotent =>
    intro t s hs
    obtain ⟨d, rfl, -, -⟩ := hvalue hs
    exact hself d
  case monotone =>
    intro t u s s' htu hs hs'
    obtain ⟨d, rfl, hle, -⟩ := hvalue hs
    obtain ⟨d', rfl, -, hlt⟩ := hvalue hs'
    exact hmono.monotone (index_le hmono (hle.trans htu) hlt)
  case next_ok =>
    intro t
    exact ⟨_, h.nextTradingDayStart hzone hreset t⟩
  case constant =>
    intro t s n u hs hn hle hlt
    obtain ⟨d, rfl, -, -⟩ := hvalue hs
    rw [h.nextTradingDayStart hzone hreset, h.localDate hreset] at hn
    exact hstart hle (Except.ok.inj hn ▸ hlt)

/-- Before the reset of the local date, 24 hours back from it are right if they lead to a reset. -/
theorem start_eq_iff (h : plan.Resets ρ) (hzone : plan.zone.Lawful) (hreset : plan.dayResetTime < 24)
    (hd : ρ d ≤ t) (hlt : t < ρ (d + 1)) :
    plan.tradingDayStart t = .ok (ρ d) ↔
      plan.localDate t = d ∨
        plan.localDate t = d + 1 ∧ plan.zone.offset (ρ d) = plan.zone.offset (ρ (d + 1)) := by
  have hmono : StrictMono ρ := h.strictMono hzone.steady
  rw [h.tradingDayStart hzone hreset, Except.ok.injEq, ← h.next_eq_iff]
  generalize plan.localDate t = e
  constructor
  · intro heq
    split at heq
    · exact .inl (hmono.injective heq)
    · rename_i hnot
      have heq' : ρ e = ρ d + Duration.days 1 := by linarith
      have hafter : d < e := hmono.lt_iff_lt.mp (hd.trans_lt (not_le.mp hnot))
      have hbefore : e < d + 2 := by
        refine hmono.lt_iff_lt.mp ?_
        rw [heq']
        exact h.add_lt hzone.steady d
      have hnext : e = d + 1 := by omega
      exact .inr ⟨hnext, hnext ▸ heq'⟩
  · rintro (rfl | ⟨rfl, hnext⟩)
    · rw [if_pos hd]
    · rw [if_neg (not_le.mpr hlt), hnext, add_sub_cancel_right]

end Resets

theorem PartitionsTime.resetsResolve (h : plan.PartitionsTime) (hzone : plan.zone.Lawful)
    (hreset : plan.dayResetTime < 24) : plan.ResetsResolve := by
  intro d
  -- some instant has the date, and its start is found from the reset on that date
  obtain ⟨t, ht⟩ := hzone.steady.exists_period d
  obtain ⟨s, hs, -⟩ := h.start_ok t
  rw [tradingDayStart_eq hreset, show plan.localDate t = d from ht] at hs
  obtain ⟨u, hu, -⟩ := map_eq_ok.mp hs
  cases hlocal : plan.zone.fromLocal (plan.resetOn d) with
  | none => rw [hlocal] at hu; cases hu
  | some u =>
      obtain ⟨heq, hunique⟩ := hzone.fromLocal_iff.mp hlocal
      exact ⟨u, heq, hunique⟩

theorem PartitionsTime.startsAtReset (h : plan.PartitionsTime) (hzone : plan.zone.Lawful)
    (hreset : plan.dayResetTime < 24) (hρ : plan.Resets ρ) : plan.StartsAtReset ρ := by
  intro d t hd hlt
  have hmono : StrictMono ρ := hρ.strictMono hzone.steady
  choose f hf hle hhour using h.start_ok
  have hfix (d : ℤ) : f (ρ d) = ρ d := by
    have hself := hf (ρ d)
    rw [hρ.tradingDayStart hzone hreset, hρ.localDate hreset, if_pos le_rfl] at hself
    exact (Except.ok.inj hself).symm
  have hmark : f t = ρ (plan.localDate (f t)) := by
    refine (hρ _ _).mp ?_
    rw [← hhour t]
    exact (Int.ediv_mul_add_emod _ _).symm
  rw [hf t, eq_last_mark hmono (fun t u htu => h.monotone htu (hf t) (hf u)) hfix (hle t) hmark hd hlt]

theorem PartitionsTime.resetsEvenly (h : plan.PartitionsTime) (hzone : plan.zone.Lawful)
    (hreset : plan.dayResetTime < 24) : plan.ResetsEvenly := by
  have hresolve := h.resetsResolve hzone hreset
  obtain ⟨ρ, hρ⟩ := hresolve.exists_resets
  refine ⟨hresolve, fun hu hv hle hlt => ?_⟩
  rw [resetOn_eq] at hu hv
  obtain rfl := (hρ _ _).mp hu
  obtain rfl := (hρ _ _).mp hv
  exact (hρ.start_eq_iff hzone hreset hle hlt).mp (h.startsAtReset hzone hreset hρ hle hlt)

theorem ResetsEvenly.partitionsTime (h : plan.ResetsEvenly) (hzone : plan.zone.Lawful)
    (hreset : plan.dayResetTime < 24) : plan.PartitionsTime := by
  obtain ⟨ρ, hρ⟩ := h.resolve.exists_resets
  refine hρ.partitionsTime hzone hreset fun hle hlt => (hρ.start_eq_iff hzone hreset hle hlt).mpr ?_
  exact h.dates (by rw [resetOn_eq, hρ.clock_eq]) (by rw [resetOn_eq, hρ.clock_eq]) hle hlt

/-! ## Fixed offsets -/

theorem resetsEvenly_of_fixed {c : ℤ} (hoffset : ∀ t, plan.zone.offset t = c)
    (hreset : plan.dayResetTime < 24) : plan.ResetsEvenly := by
  have hlocal (u : ℤ) : plan.zone.localTime u = u + c := congrArg (u + ·) (hoffset u)
  constructor
  case resolve =>
    intro d
    simp only [hlocal]
    exact ⟨plan.resetOn d - c, sub_add_cancel _ _, fun v hv => eq_sub_of_add_eq hv⟩
  case dates =>
    intro d u v t hu hv (hle : @LE.le ℤ _ u t) (hlt : @LT.lt ℤ _ t v)
    rw [hlocal, resetOn] at hu hv
    simp only [Duration.days, Duration.hours] at hu hv
    have hdate : plan.localDate t = d ∨ plan.localDate t = d + 1 := by
      simp only [localDate, hlocal, Timestamp.date, Duration.days]
      omega
    exact hdate.imp_right fun hnext => ⟨hnext, (hoffset u).trans (hoffset v).symm⟩

theorem partitionsTime_of_utc (htz : plan.timezone = none) (hreset : plan.dayResetTime < 24) :
    plan.PartitionsTime := by
  have hzone : plan.zone = .utc := by rw [zone, htz]; rfl
  have heven : plan.ResetsEvenly := resetsEvenly_of_fixed (c := 0) (fun t => by rw [hzone]; rfl) hreset
  exact heven.partitionsTime (hzone ▸ Tz.utc_lawful) hreset

end ChallengePlan

variable {plan : ChallengePlan}

/-- In a zone the trading days partition time exactly if the resets divide it evenly. -/
theorem trading_days_partition_time_iff (hzone : plan.zone.Lawful) (hreset : plan.dayResetTime < 24) :
    plan.PartitionsTime ↔ plan.ResetsEvenly :=
  ⟨fun h => h.resetsEvenly hzone hreset, fun h => h.partitionsTime hzone hreset⟩

/-! ## Daylight saving -/

/-- Daylight saving starts on 8 March 2026, when the clock goes from two to three. -/
def newYorkSpring : Tz :=
  .ofJump "America/New_York" (Duration.days 20520 + Duration.hours 7) (Duration.hours (-5))
    (Duration.hours (-4))

/-- It ends on 1 November 2026, when the clock goes from two back to one. -/
def newYorkAutumn : Tz :=
  .ofJump "America/New_York" (Duration.days 20758 + Duration.hours 6) (Duration.hours (-4))
    (Duration.hours (-5))

def zonedPlan (tz : Tz) (hour : ℕ) : ChallengePlan :=
  { ChallengePlan.default ⟨1⟩ 0 with timezone := some tz, dayResetTime := hour }

theorem zonedPlan_localTime {hour : ℕ} {u x : ℤ} :
    (zonedPlan newYorkSpring hour).zone.localTime u = x ↔
      u < 20520 * 86400000000000 + 7 * 3600000000000 ∧ u - 5 * 3600000000000 = x ∨
        20520 * 86400000000000 + 7 * 3600000000000 ≤ u ∧ u - 4 * 3600000000000 = x := by
  refine Tz.ofJump_localTime.trans ?_
  simp only [Duration.days, Duration.hours]
  omega

/-- At midnight the change of the clock does no harm. -/
theorem newYorkSpring_resetsEvenly : (zonedPlan newYorkSpring 0).ResetsEvenly where
  resolve := by
    intro d
    have hreset : (zonedPlan newYorkSpring 0).resetOn d = d * 86400000000000 := add_zero _
    simp only [zonedPlan_localTime, hreset]
    rcases le_or_gt d 20520 with hd | hd
    · refine ⟨d * 86400000000000 + 5 * 3600000000000, by dsimp only; omega, fun v hv => ?_⟩
      change @Eq ℤ v _
      omega
    · refine ⟨d * 86400000000000 + 4 * 3600000000000, by dsimp only; omega, fun v hv => ?_⟩
      change @Eq ℤ v _
      omega
  dates := by
    intro d u v t hu hv (hle : @LE.le ℤ _ u t) (hlt : @LT.lt ℤ _ t v)
    have hreset (e : ℤ) : (zonedPlan newYorkSpring 0).resetOn e = e * 86400000000000 := add_zero _
    rw [zonedPlan_localTime, hreset] at hu hv
    have ht := zonedPlan_localTime.mp (rfl : (zonedPlan newYorkSpring 0).zone.localTime t = _)
    left
    change (zonedPlan newYorkSpring 0).zone.localTime t / (1 * 86400000000000) = d
    omega

theorem trading_days_partition_time_midnight : (zonedPlan newYorkSpring 0).PartitionsTime :=
  have hzone : (zonedPlan newYorkSpring 0).zone.Lawful := Tz.ofJump_lawful (by decide)
  (trading_days_partition_time_iff hzone (by decide)).mpr newYorkSpring_resetsEvenly

/-- Seventeen hours on the day of the change: the start is an hour before the reset, and earlier than
that of instants before. A reset that is skipped or repeated stops the call. -/
theorem trading_days_broken_by_clock_change :
    newYorkSpring.Lawful ∧ newYorkAutumn.Lawful ∧
      (zonedPlan newYorkSpring 17).tradingDayStart (Duration.days 20520 + Duration.hours 16) =
        .ok (Duration.days 20519 + Duration.hours 21) ∧
      Timestamp.timeOfDay (newYorkSpring.localTime (Duration.days 20519 + Duration.hours 21)) =
        Duration.hours 16 ∧
      (zonedPlan newYorkSpring 17).tradingDayStart (Duration.days 20519 + Duration.hours 23) =
        .ok (Duration.days 20519 + Duration.hours 22) ∧
      (zonedPlan newYorkSpring 2).tradingDayStart (Duration.days 20520 + Duration.hours 16) =
        panicWith "LocalResult::unwrap" ∧
      (zonedPlan newYorkSpring 2).nextTradingDayStart (Duration.days 20519 + Duration.hours 7) =
        panicWith "LocalResult::unwrap" ∧
      (zonedPlan newYorkAutumn 1).tradingDayStart (Duration.days 20758 + Duration.hours 16) =
        panicWith "LocalResult::unwrap" := by
  refine ⟨Tz.ofJump_lawful (by decide), Tz.ofJump_lawful (by decide), ?_⟩
  decide +kernel

end Propfirm
