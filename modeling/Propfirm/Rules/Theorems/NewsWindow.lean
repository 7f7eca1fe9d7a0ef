import Mathlib.Algebra.Order.Group.Abs
import Mathlib.Algebra.Order.Group.Int
import Mathlib.Data.Set.Basic
import Propfirm.Rules.Evaluators.Timing

/-!
# Windows around news events

Every event recurs weekly. The rule takes the occurrence on the day of an instant or in the six days
after it, and counts whole minutes.
-/

namespace Propfirm

variable {e : NewsEvent} {ts t d : ℤ} {w w' : ℤ}

/-! ## Occurrences -/

namespace NewsEvent

/-- The time of day. -/
def time (e : NewsEvent) : ℤ := Duration.hours e.hour + Duration.minutes e.minute

def OccursAt (e : NewsEvent) (t : Timestamp) : Prop :=
  t.weekday = e.weekday ∧ t.timeOfDay = e.time

structure WellFormed (e : NewsEvent) : Prop where
  weekday_lt : e.weekday < 7
  hour_lt : e.hour < 24
  minute_lt : e.minute < 60

theorem WellFormed.time_mem (h : e.WellFormed) : 0 ≤ e.time ∧ e.time < Duration.days 1 := by
  have hhour := h.hour_lt
  have hminute := h.minute_lt
  simp only [time, Duration.hours, Duration.minutes, Duration.days]
  omega

/-- The number of days from the epoch to the instance of the event. -/
def instanceDate (e : NewsEvent) (ts : ℤ) : ℤ :=
  Timestamp.date ts + (e.weekday - (Timestamp.date ts + 3) % 7) % 7

theorem instanceAt_eq (e : NewsEvent) (ts : ℤ) :
    e.instanceAt ts = Duration.days (e.instanceDate ts) + e.time := by
  simp only [instanceAt, instanceDate, time, Timestamp.weekday, Timestamp.date, Duration.days, Duration.hours,
    Duration.minutes]
  change @Eq ℤ _ _
  omega

theorem instanceAt_add_week (e : NewsEvent) (ts : ℤ) :
    e.instanceAt (ts + Duration.days 7) = e.instanceAt ts + Duration.days 7 := by
  simp only [instanceAt_eq, instanceDate, Timestamp.date, Duration.days]
  change @Eq ℤ _ _
  omega

/-- The occurrences are the instance and those whole weeks away from it. -/
theorem WellFormed.occursAt_iff (h : e.WellFormed) (ts : ℤ) :
    e.OccursAt t ↔ ∃ k : ℤ, t = e.instanceAt ts + k * Duration.days 7 := by
  have hweekday := h.weekday_lt
  have htime := h.time_mem
  rw [instanceAt_eq]
  simp only [OccursAt, instanceDate, Timestamp.weekday, Timestamp.date, Timestamp.timeOfDay,
    Duration.days] at htime ⊢
  generalize e.time = time at htime ⊢
  constructor
  · rintro ⟨hday, htime⟩
    refine ⟨(t / 86400000000000 -
      (ts / 86400000000000 + (e.weekday - (ts / 86400000000000 + 3) % 7) % 7)) / 7, ?_⟩
    omega
  · rintro ⟨k, rfl⟩
    omega

theorem WellFormed.instanceAt_mem (h : e.WellFormed) (ts : ℤ) :
    Duration.days (Timestamp.date ts) ≤ e.instanceAt ts ∧
      e.instanceAt ts < Duration.days (Timestamp.date ts + 7) := by
  have htime := h.time_mem
  rw [instanceAt_eq]
  simp only [instanceDate, Timestamp.date, Duration.days] at htime ⊢
  generalize e.time = time at htime ⊢
  change (_ : ℤ) ≤ _ ∧ (_ : ℤ) < _
  omega

/-- Of the instants whole weeks apart, the one in the week from a day on is the nearest of those that do
not lie before the day. -/
theorem abs_sub_le_weeks {first k : ℤ} (hlow : Duration.days (Timestamp.date ts) ≤ first)
    (hhigh : first < Duration.days (Timestamp.date ts + 7))
    (hdate : Timestamp.date ts ≤ Timestamp.date (first + k * Duration.days 7)) :
    |ts - first| ≤ |ts - (first + k * Duration.days 7)| := by
  simp only [Timestamp.date, Duration.days] at hlow hhigh hdate ⊢
  change @LE.le ℤ _ _ _ at hlow
  rcases eq_or_ne k 0 with rfl | hk
  · rw [zero_mul, add_zero]
  · rw [abs_sub_comm ts, abs_sub_comm ts, abs_of_nonneg (a := first + _ - ts) (by omega), abs_le]
    omega

theorem WellFormed.abs_instanceAt_le (h : e.WellFormed) (ht : e.OccursAt t)
    (hdate : Timestamp.date ts ≤ Timestamp.date t) : |ts - e.instanceAt ts| ≤ |ts - t| := by
  obtain ⟨k, rfl⟩ := (h.occursAt_iff ts).mp ht
  obtain ⟨hlow, hhigh⟩ := h.instanceAt_mem ts
  exact abs_sub_le_weeks hlow hhigh hdate

end NewsEvent

theorem builtinEvents_wellFormed (he : e ∈ builtinEvents) : e.WellFormed := by
  have h : ∀ e ∈ builtinEvents, e.weekday < 7 ∧ e.hour < 24 ∧ e.minute < 60 := by decide
  exact ⟨(h e he).1, (h e he).2.1, (h e he).2.2⟩

/-! ## The window -/

theorem abs_numMinutes_le : |Duration.numMinutes d| ≤ w ↔ |d| < Duration.minutes (w + 1) := by
  have hnonneg {d : ℤ} (hd : 0 ≤ d) : |Duration.numMinutes d| ≤ w ↔ |d| < Duration.minutes (w + 1) := by
    have hquot : 0 ≤ d / 60000000000 := Int.ediv_nonneg hd (by decide)
    simp only [Duration.numMinutes, Duration.minutes]
    rw [Int.tdiv_eq_ediv_of_nonneg hd, abs_of_nonneg hquot, abs_of_nonneg hd]
    change d / 60000000000 ≤ w ↔ @LT.lt ℤ _ _ _
    omega
  rcases Int.le_total 0 d with hd | hd
  · exact hnonneg hd
  · have hneg := hnonneg (Int.neg_nonneg_of_nonpos hd)
    rw [Duration.numMinutes, Int.neg_tdiv, abs_neg, abs_neg] at hneg
    exact hneg

/-- The distances of an instant to the instances of the events. -/
def newsDistances (ts : Timestamp) : Set Duration := {d | ∃ e ∈ builtinEvents, |ts - e.instanceAt ts| = d}

theorem withinNewsWindow_isSome :
    (withinNewsWindow ts w).isSome = true ↔ ∃ d ∈ newsDistances ts, d < Duration.minutes (w + 1) := by
  simp only [withinNewsWindow, List.find?_isSome, decide_eq_true_eq, abs_numMinutes_le, newsDistances,
    Set.mem_ofPred_eq]
  constructor
  · rintro ⟨e, he, hlt⟩
    exact ⟨_, ⟨e, he, rfl⟩, hlt⟩
  · rintro ⟨-, ⟨e, he, rfl⟩, hlt⟩
    exact ⟨e, he, hlt⟩

/-- Some occurrence of an event, before or after the instant, is at most `w` minutes away. -/
def NewsWithin (ts : Timestamp) (w : ℤ) : Prop :=
  ∃ e ∈ builtinEvents, ∃ t, e.OccursAt t ∧ |ts - t| ≤ Duration.minutes w

/-- Such an occurrence on an earlier day. -/
def NewsBefore (ts : Timestamp) (w : ℤ) : Prop :=
  ∃ e ∈ builtinEvents, ∃ t, e.OccursAt t ∧ Timestamp.date t < ts.date ∧ |ts - t| ≤ Duration.minutes w

theorem newsWithin_iff :
    NewsWithin ts w ↔ (∃ d ∈ newsDistances ts, d ≤ Duration.minutes w) ∨ NewsBefore ts w := by
  constructor
  · rintro ⟨e, he, t, ht, hle⟩
    rcases lt_or_ge (Timestamp.date t) (Timestamp.date ts) with hdate | hdate
    · exact .inr ⟨e, he, t, ht, hdate, hle⟩
    · exact .inl ⟨_, ⟨e, he, rfl⟩, ((builtinEvents_wellFormed he).abs_instanceAt_le ht hdate).trans hle⟩
  · rintro (⟨-, ⟨e, he, rfl⟩, hle⟩ | ⟨e, he, t, ht, -, hle⟩)
    · refine ⟨e, he, e.instanceAt ts, ?_, hle⟩
      exact ((builtinEvents_wellFormed he).occursAt_iff ts).mpr ⟨0, by simp⟩
    · exact ⟨e, he, t, ht, hle⟩

/-- The last event of a day leaves six hours of it. -/
theorem not_newsBefore (hw : w < 360) : ¬NewsBefore ts w := by
  rintro ⟨e, he, t, ⟨-, htime⟩, hdate, hle⟩
  have hlast : ∀ e ∈ builtinEvents, e.time ≤ 64800000000000 := by decide
  have hle' := (le_abs_self _).trans hle
  have hlast := hlast e he
  rw [← htime] at hlast
  simp only [Timestamp.timeOfDay, Timestamp.date, Duration.days, Duration.minutes] at *
  change ts - t ≤ (_ : ℤ) at hle'
  omega

theorem minutes_lt_succ (w : ℤ) : Duration.minutes w < Duration.minutes (w + 1) := by
  simp only [Duration.minutes]
  change w * 60000000000 < (w + 1) * 60000000000
  omega

theorem withinNewsWindow_mono (hle : w ≤ w') (h : (withinNewsWindow ts w).isSome = true) :
    (withinNewsWindow ts w').isSome = true := by
  obtain ⟨d, hd, hlt⟩ := withinNewsWindow_isSome.mp h
  refine withinNewsWindow_isSome.mpr ⟨d, hd, hlt.trans_le ?_⟩
  exact Int.mul_le_mul_of_nonneg_right (Int.add_le_add_right hle 1) (by decide)

/-- What is reported lies within the window, or less than a minute outside it. -/
theorem withinNewsWindow_iff :
    (withinNewsWindow ts w).isSome = true ↔
      (∃ d ∈ newsDistances ts, d ≤ Duration.minutes w) ∨
        ∃ d ∈ newsDistances ts, Duration.minutes w < d ∧ d < Duration.minutes (w + 1) := by
  rw [withinNewsWindow_isSome]
  constructor
  · rintro ⟨d, hd, hlt⟩
    rcases le_or_gt d (Duration.minutes w) with hle | hgt
    · exact .inl ⟨d, hd, hle⟩
    · exact .inr ⟨d, hd, hgt, hlt⟩
  · rintro (⟨d, hd, hle⟩ | ⟨d, hd, -, hlt⟩)
    · exact ⟨d, hd, hle.trans_lt (minutes_lt_succ w)⟩
    · exact ⟨d, hd, hlt⟩

theorem withinNewsWindow_add_week : withinNewsWindow (ts + Duration.days 7) w = withinNewsWindow ts w := by
  unfold withinNewsWindow
  simp only [NewsEvent.instanceAt_add_week, add_sub_add_right_eq_sub]

/-- An event is reported for the instances that are less than one minute more away, and missed for an
occurrence on an earlier day. -/
theorem news_window_iff (ts : Timestamp) (w : ℤ) :
    (((withinNewsWindow ts w).isSome = true ↔ NewsWithin ts w) ↔
        (∃ d ∈ newsDistances ts, d ≤ Duration.minutes w) ∨
          ((∃ d ∈ newsDistances ts, Duration.minutes w < d ∧ d < Duration.minutes (w + 1)) ↔
            NewsBefore ts w)) ∧
      withinNewsWindow (ts + Duration.days 7) w = withinNewsWindow ts w ∧
      ∀ w', w ≤ w' → (withinNewsWindow ts w).isSome = true → (withinNewsWindow ts w').isSome = true := by
  refine ⟨?_, withinNewsWindow_add_week, fun _ hle => withinNewsWindow_mono hle⟩
  rw [withinNewsWindow_iff, newsWithin_iff]
  constructor
  · intro h
    by_cases hnear : ∃ d ∈ newsDistances ts, d ≤ Duration.minutes w
    · exact .inl hnear
    · rw [or_iff_right hnear, or_iff_right hnear] at h
      exact .inr h
  · rintro (hnear | h)
    · exact iff_of_true (.inl hnear) (.inl hnear)
    · exact or_congr_right h

/-- Friday, some minutes after the payroll report. -/
def afterPayrolls (minutes seconds : ℤ) : Timestamp :=
  Duration.days 1 + Duration.hours 12 + Duration.minutes (30 + minutes) + Duration.seconds seconds

theorem news_window_after_payrolls :
    (withinNewsWindow (afterPayrolls 1 30) 2).map NewsEvent.name = some "NFP" ∧
      NewsWithin (afterPayrolls 1 30) 2 := by
  have hreported : (withinNewsWindow (afterPayrolls 1 30) 2).map NewsEvent.name = some "NFP" := by decide
  refine ⟨hreported, ((news_window_iff (afterPayrolls 1 30) 2).1.mpr (.inl ?_)).mp (by decide)⟩
  exact ⟨_, ⟨⟨"NFP", 4, 12, 30⟩, by decide, rfl⟩, by decide⟩

/-- Thursday at half past midnight. -/
def thursdayNight : Timestamp := Duration.days 7 + Duration.minutes 30

theorem news_window_uneven :
    ((withinNewsWindow (afterPayrolls 2 59) 2).isSome = true ∧ ¬NewsWithin (afterPayrolls 2 59) 2) ∧
      (withinNewsWindow thursdayNight 400).isSome = false ∧ NewsWithin thursdayNight 400 := by
  refine ⟨⟨by decide, fun hnear => ?_⟩, by decide, ?_⟩
  · obtain ⟨-, ⟨e, he, rfl⟩, hle⟩ := (newsWithin_iff.mp hnear).resolve_right (not_newsBefore (by decide))
    have hfar : ∀ e ∈ builtinEvents,
        ¬|afterPayrolls 2 59 - e.instanceAt (afterPayrolls 2 59)| ≤ Duration.minutes 2 := by
      decide
    exact hfar e he hle
  · refine ⟨⟨"FOMC", 2, 18, 0⟩, by decide, Duration.days 6 + Duration.hours 18, ⟨?_, ?_⟩, by decide⟩
    · decide
    · decide

end Propfirm
