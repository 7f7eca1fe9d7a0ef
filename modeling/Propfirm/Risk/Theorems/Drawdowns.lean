import Mathlib.Algebra.Order.Field.Basic
import Mathlib.Tactic.Linarith
import Propfirm.Lib.Curve
import Propfirm.Risk.Drawdown

/-!
# Drawdowns of a curve

The two functions of the largest drawdown and the one of its percentage are the same pass over the curve, with
different amounts. That of the longest drawdown cuts the curve into stretches.
-/

namespace Propfirm

open Curve

variable {equity : List Money}

/-! ## The pass -/

namespace DrawdownScan

variable {s : DrawdownScan} {m : Money} {dd : Decimal}

def pair (s : DrawdownScan) : Decimal × Decimal := (s.peak, s.maxDd)

theorem lift_pair : (s.lift m).pair = (max s.peak m, s.maxDd) := by
  unfold lift
  split
  · rename_i h
    rw [max_eq_right h.le]
    rfl
  · rename_i h
    rw [max_eq_left (not_lt.mp h)]
    rfl

theorem note_pair : (s.note dd).pair = (s.peak, max s.maxDd dd) := by
  unfold note
  split
  · rename_i h
    rw [max_eq_right h.le]
    rfl
  · rename_i h
    rw [max_eq_left (not_lt.mp h)]
    rfl

theorem lift_peak : (s.lift m).peak = max s.peak m := congrArg Prod.fst lift_pair

theorem lift_maxDd : (s.lift m).maxDd = s.maxDd := congrArg Prod.snd lift_pair

theorem money_pair (s : DrawdownScan) (m : Money) : scanStep (· - ·) s.pair m = (s.money m).pair := by
  rw [money, note_pair, lift_peak, lift_maxDd]
  rfl

/-- A peak of zero adds nothing. -/
theorem pct_pair (hs : 0 ≤ s.maxDd) : scanStep (fun p m => (p - m) / p) s.pair m = (s.pct m).pair := by
  have hpct : s.pct m =
      if (s.lift m).peak = 0 then s.lift m
      else (s.lift m).note (((s.lift m).peak - m) / (s.lift m).peak) := rfl
  change (max s.peak m, max s.maxDd ((max s.peak m - m) / max s.peak m)) = _
  rw [hpct]
  split
  · rename_i hpeak
    rw [lift_peak] at hpeak
    rw [lift_pair, hpeak, div_zero, max_eq_left hs]
  · rw [note_pair, lift_peak, lift_maxDd]

theorem pct_maxDd_nonneg (hs : 0 ≤ s.maxDd) : 0 ≤ (s.pct m).maxDd := by
  have hpair : max s.maxDd _ = (s.pct m).maxDd := congrArg Prod.snd (pct_pair hs)
  exact hpair ▸ hs.trans (le_max_left _ _)

end DrawdownScan

namespace Metrics

theorem maxDrawdown_eq_scan (equity : List Money) : maxDrawdown equity = (scan (· - ·) equity).2 :=
  congrArg Prod.snd (List.foldl_hom DrawdownScan.pair DrawdownScan.money_pair).symm

theorem foldl_pct_pair {s : DrawdownScan} (hs : 0 ≤ s.maxDd) (equity : List Money) :
    equity.foldl (scanStep fun p m => (p - m) / p) s.pair = (equity.foldl DrawdownScan.pct s).pair := by
  induction equity generalizing s with
  | nil => rfl
  | cons m equity ih =>
      rw [List.foldl_cons, List.foldl_cons, DrawdownScan.pct_pair hs]
      exact ih (DrawdownScan.pct_maxDd_nonneg hs)

theorem maxDrawdownPct_eq_scan (equity : List Money) :
    maxDrawdownPct equity = (scan (fun p m => (p - m) / p) equity).2 :=
  congrArg Prod.snd (foldl_pct_pair (s := DrawdownScan.zero) le_rfl equity).symm

/-! ## The largest drawdown -/

theorem maxDrawdown_isMaximum (hequity : ∀ m ∈ equity, 0 ≤ m) :
    IsMaximum {d | ∃ x y, Before equity x y ∧ d = x - y} (maxDrawdown equity) := by
  rw [maxDrawdown_eq_scan]
  refine isMaximum_of_insert ?_ (scan_isGreatest hequity fun x y p _ hxp _ _ => sub_le_sub_right hxp y)
  rintro ⟨d, x, y, hxy, -⟩
  exact ⟨x, x, .refl hxy.mem_left, (sub_self x).symm⟩

theorem drop_pct_le {x y p : Decimal} (hx : 0 ≤ x) (hxp : x ≤ p) (hy : 0 ≤ y) (hyp : y ≤ p) :
    (x - y) / x ≤ (p - y) / p := by
  rcases hx.eq_or_lt with rfl | hx
  · rw [div_zero]
    exact div_nonneg (sub_nonneg.mpr hyp) (hy.trans hyp)
  · rw [sub_div, sub_div, div_self hx.ne', div_self (hx.trans_le hxp).ne']
    exact sub_le_sub_left (div_le_div_of_nonneg_left hy hx hxp) 1

theorem maxDrawdownPct_isMaximum (hequity : ∀ m ∈ equity, 0 ≤ m) :
    IsMaximum {d | ∃ x y, Before equity x y ∧ 0 < x ∧ d = (x - y) / x} (maxDrawdownPct equity) := by
  have hgreatest := scan_isGreatest hequity fun x y p => drop_pct_le (x := x) (y := y) (p := p)
  -- a pair from a sample of zero counts as no drawdown
  have hset : insert 0 (amounts (fun x y => (x - y) / x) equity) =
      insert 0 {d | ∃ x y, Before equity x y ∧ 0 < x ∧ d = (x - y) / x} := by
    ext d
    constructor
    · rintro (hd | ⟨x, y, hxy, rfl⟩)
      · exact .inl hd
      · rcases (hequity x hxy.mem_left).eq_or_lt with rfl | hx
        · exact .inl (div_zero _)
        · exact .inr ⟨x, y, hxy, hx, rfl⟩
    · rintro (hd | ⟨x, y, hxy, -, rfl⟩)
      · exact .inl hd
      · exact .inr ⟨x, y, hxy, rfl⟩
  rw [maxDrawdownPct_eq_scan]
  refine isMaximum_of_insert ?_ (hset ▸ hgreatest)
  rintro ⟨d, x, y, hxy, hx, -⟩
  exact ⟨x, x, .refl hxy.mem_left, hx, by rw [sub_self, zero_div]⟩

theorem validate_ok_iff : validate equity = .ok () ↔ equity ≠ [] ∧ ∀ m ∈ equity, 0 ≤ m := by
  unfold validate
  split
  · rename_i hempty
    exact iff_of_false (fun h => by cases h) fun h => h.1 hempty
  · rename_i hne
    rw [and_iff_right hne]
    split
    · rename_i hany
      obtain ⟨m, hm, hneg⟩ := List.any_eq_true.mp hany
      exact iff_of_false (fun h => by cases h) fun h => not_lt.mpr (h m hm) (of_decide_eq_true hneg)
    · rename_i hnone
      refine iff_of_true rfl fun m hm => not_lt.mp fun hneg => hnone ?_
      exact List.any_eq_true.mpr ⟨m, hm, decide_eq_true hneg⟩

/-- A valid curve never loses more than it has. -/
theorem maxDrawdownPct_mem_Icc (h : validate equity = .ok ()) : maxDrawdownPct equity ∈ Set.Icc 0 1 := by
  have hequity := (validate_ok_iff.mp h).2
  rcases maxDrawdownPct_isMaximum hequity with ⟨⟨x, y, hxy, hx, heq⟩, hgreatest⟩ | ⟨-, hzero⟩
  · constructor
    · exact hgreatest ⟨x, x, .refl hxy.mem_left, hx, by rw [sub_self, zero_div]⟩
    · rw [heq, div_le_one hx]
      exact sub_le_self x (hequity y hxy.mem_right)
  · rw [hzero]
    exact ⟨le_rfl, zero_le_one⟩

end Metrics

/-- Both functions of the largest drawdown return the greatest fall from a sample to a later one, and that of
the percentage the greatest such fall as a part of the earlier sample. -/
theorem drawdowns_match_definition (hequity : ∀ m ∈ equity, 0 ≤ m) :
    IsMaximum {d | ∃ x y, Before equity x y ∧ d = x - y} (Drawdown.maxDrawdown equity) ∧
      IsMaximum {d | ∃ x y, Before equity x y ∧ d = x - y} (Metrics.maxDrawdown equity) ∧
      IsMaximum {d | ∃ x y, Before equity x y ∧ 0 < x ∧ d = (x - y) / x} (Metrics.maxDrawdownPct equity) :=
  ⟨Metrics.maxDrawdown_isMaximum hequity, Metrics.maxDrawdown_isMaximum hequity,
    Metrics.maxDrawdownPct_isMaximum hequity⟩

theorem drawdowns_of_dip :
    IsMaximum {d : Decimal | ∃ x y, Before [100, 120, 90, 110] x y ∧ d = x - y} 30 ∧
      IsMaximum {d : Decimal | ∃ x y, Before [100, 120, 90, 110] x y ∧ 0 < x ∧ d = (x - y) / x} (1 / 4) := by
  have h := @drawdowns_match_definition [100, 120, 90, 110] (by decide +kernel)
  rw [show Drawdown.maxDrawdown [100, 120, 90, 110] = 30 by decide +kernel,
    show Metrics.maxDrawdownPct [100, 120, 90, 110] = 1 / 4 by decide +kernel] at h
  exact ⟨h.1, h.2.2⟩

/-! ## The longest drawdown -/

/-- A curve without a drawdown never falls. -/
theorem Drawdown.maxDrawdown_eq_zero_iff (hequity : ∀ m ∈ equity, 0 ≤ m) :
    maxDrawdown equity = 0 ↔ equity.Pairwise (· ≤ ·) := by
  rw [pairwise_iff_before fun _ => le_rfl]
  rcases Metrics.maxDrawdown_isMaximum hequity with hgreatest | ⟨hempty, hzero⟩
  · constructor
    · intro hzero x y hxy
      have hle : x - y ≤ maxDrawdown equity := hgreatest.2 ⟨x, y, hxy, rfl⟩
      exact sub_nonpos.mp (hzero ▸ hle)
    · intro hrises
      obtain ⟨x, y, hxy, heq⟩ := hgreatest.1
      refine le_antisymm (heq.trans_le (sub_nonpos.mpr (hrises x y hxy))) ?_
      exact hgreatest.2 ⟨x, x, .refl hxy.mem_left, (sub_self x).symm⟩
  · refine iff_of_true hzero fun x y hxy => ?_
    exact absurd (hempty ▸ ⟨x, y, hxy, rfl⟩ : x - y ∈ (∅ : Set Decimal)) (Set.notMem_empty _)

namespace Drawdown

/-- What a stretch contributes to the longest drawdown: its length, if it has a second sample. -/
def duration (s : Stretch Money) : ℕ := if s.rest = [] then 0 else s.length

/-- The sample that the drawdown of an open stretch started from, at the next sample. -/
def startOf (s : Stretch Money) (i : ℕ) : Option ℕ := if s.rest = [] then none else some (i - s.length)

namespace DurationScan

variable {s : Stretch Money} {i longest : ℕ}

theorem finish_stretch (hi : s.length ≤ i) (hlen : s.length < 2 ^ 32) :
    finish ⟨s.peak, startOf s i, longest⟩ i = max longest (duration s) := by
  unfold finish startOf duration
  split_ifs with hrest
  · rw [max_eq_left (Nat.zero_le _)]
  · have hlength : (i - (i - s.length)) % 2 ^ 32 = s.length := by
      rw [Nat.sub_sub_self hi, Nat.mod_eq_of_lt hlen]
    simp only [hlength]
    split_ifs with hlt
    · exact (max_eq_right hlt.le).symm
    · exact (max_eq_left (not_lt.mp hlt)).symm

theorem step_exceeds {y : Money} (hy : s.peak < y) (hi : s.length ≤ i) (hlen : s.length < 2 ^ 32) :
    step ⟨s.peak, startOf s i, longest⟩ (y, i) =
      ⟨(Stretch.start y).peak, startOf (.start y) (i + 1), max longest (duration s)⟩ := by
  simp only [step, if_pos hy, finish_stretch hi hlen]
  rfl

theorem step_stays {y : Money} (hy : y ≤ s.peak) (hpeak : 0 < s.peak) :
    step ⟨s.peak, startOf s i, longest⟩ (y, i) =
      ⟨(s.extend y hy).peak, startOf (s.extend y hy) (i + 1), longest⟩ := by
  have hnext : startOf (s.extend y hy) (i + 1) = some (i - s.length) := by
    rw [startOf, if_neg (by simp [Stretch.extend]), Stretch.length_extend, Nat.add_sub_add_right]
  rw [hnext]
  simp only [step, if_neg (not_lt.mpr hy)]
  by_cases hrest : s.rest = []
  · -- the drawdown starts from the sample before, which is the peak
    have hlength : s.length = 1 := by rw [s.length_eq, hrest, List.length_nil]
    rw [startOf, if_pos hrest, if_pos ⟨rfl, hpeak⟩, hlength]
    rfl
  · rw [startOf, if_neg hrest, if_neg (by simp)]
    rfl

/-- The pass over the rest of a curve, from within a stretch. -/
theorem foldl_finish (s : Stretch Money) (ys : List Money) (hi : s.length ≤ i)
    (hlen : ∀ t ∈ stretchesFrom s ys, t.length < 2 ^ 32) (hpeak : 0 < s.peak) (hys : ∀ y ∈ ys, 0 < y) :
    ((ys.zipIdx i).foldl step ⟨s.peak, startOf s i, longest⟩).finish (i + ys.length) =
      ((stretchesFrom s ys).map duration).foldl max longest := by
  induction ys generalizing s i longest with
  | nil => exact finish_stretch hi (hlen s List.mem_cons_self)
  | cons y ys ih =>
      obtain ⟨hy, hys⟩ := List.forall_mem_cons.mp hys
      rw [List.length_cons, List.zipIdx_cons, List.foldl_cons, Nat.add_comm ys.length 1, ← Nat.add_assoc]
      unfold stretchesFrom at hlen ⊢
      split at hlen
      · rename_i hexceeds
        obtain ⟨hfirst, hlater⟩ := List.forall_mem_cons.mp hlen
        rw [dif_pos hexceeds, step_exceeds hexceeds hi hfirst, List.map_cons, List.foldl_cons]
        exact ih (.start y) (by rw [Stretch.length_eq]; exact Nat.succ_le_succ (Nat.zero_le _)) hlater
          hy hys
      · rename_i hexceeds
        rw [dif_neg hexceeds, step_stays (not_lt.mp hexceeds) hpeak]
        exact ih (s.extend y _) (by rw [Stretch.length_extend]; omega) hlen hpeak hys

end DurationScan

/-- The length of the longest stretch with a second sample. -/
theorem maxDrawdownDuration_eq (hequity : ∀ m ∈ equity, 0 < m)
    (hlen : ∀ s ∈ stretches equity, s.length < 2 ^ 32) :
    maxDrawdownDuration equity = ((stretches equity).map duration).foldl max 0 := by
  cases equity with
  | nil => rfl
  | cons x xs =>
      obtain ⟨hx, hxs⟩ := List.forall_mem_cons.mp hequity
      have hfirst : DurationScan.step .zero (x, 0) = ⟨x, startOf (.start x) 1, 0⟩ := by
        simp only [DurationScan.step, DurationScan.zero, if_pos hx]
        rfl
      have hone : (Stretch.start x).length ≤ 1 := le_rfl
      rw [maxDrawdownDuration, List.zipIdx_cons, List.foldl_cons, hfirst, List.length_cons,
        Nat.add_comm xs.length 1]
      exact DurationScan.foldl_finish (.start x) xs hone hlen hx hxs

theorem length_le_maxDrawdownDuration (hequity : ∀ m ∈ equity, 0 < m)
    (hlen : ∀ s ∈ stretches equity, s.length < 2 ^ 32)
    {s : Stretch Money} (hs : s ∈ stretches equity) (hrest : s.rest ≠ []) :
    s.length ≤ maxDrawdownDuration equity := by
  have hle := (foldl_max_isGreatest 0 ((stretches equity).map duration)).2
    (Set.mem_insert_of_mem _ (List.mem_map_of_mem hs))
  rwa [duration, if_neg hrest, ← maxDrawdownDuration_eq hequity hlen] at hle

theorem exists_length_eq (hequity : ∀ m ∈ equity, 0 < m)
    (hlen : ∀ s ∈ stretches equity, s.length < 2 ^ 32)
    (hne : maxDrawdownDuration equity ≠ 0) :
    ∃ s ∈ stretches equity, s.rest ≠ [] ∧ maxDrawdownDuration equity = s.length := by
  rw [maxDrawdownDuration_eq hequity hlen] at hne ⊢
  rcases (foldl_max_isGreatest 0 ((stretches equity).map duration)).1 with hzero | hmem
  · exact absurd hzero hne
  · obtain ⟨s, hs, hduration⟩ := List.mem_map.mp hmem
    rw [← hduration] at hne ⊢
    have hrest : s.rest ≠ [] := fun hnil => hne (if_pos hnil)
    exact ⟨s, hs, hrest, if_neg hrest⟩

/-- The longest drawdown is the longest stretch that dips, and none where there is no drawdown. -/
structure DurationMatches (equity : List Money) : Prop where
  zero_iff : maxDrawdownDuration equity = 0 ↔ maxDrawdown equity = 0
  isGreatest : maxDrawdownDuration equity ≠ 0 →
    IsGreatest {n | ∃ s ∈ stretches equity, s.Dips ∧ n = s.length} (maxDrawdownDuration equity)

end Drawdown

open Drawdown

/-- A stretch of samples at its peak counts as a drawdown. It goes unnoticed where a stretch that dips is at
least as long. -/
theorem drawdown_duration_iff (hequity : ∀ m ∈ equity, 0 < m)
    (hlen : ∀ s ∈ stretches equity, s.length < 2 ^ 32) :
    DurationMatches equity ↔
      ∀ s ∈ stretches equity, s.rest ≠ [] → ∃ s' ∈ stretches equity, s'.Dips ∧ s.length ≤ s'.length := by
  have hfalls : maxDrawdown equity = 0 ↔ ∀ s ∈ stretches equity, ¬s.Dips :=
    (maxDrawdown_eq_zero_iff fun m hm => (hequity m hm).le).trans (pairwise_le_iff equity)
  have hbound : ∀ s ∈ stretches equity, s.rest ≠ [] → s.length ≤ maxDrawdownDuration equity :=
    fun _ hs => length_le_maxDrawdownDuration hequity hlen hs
  have hpositive : ∀ s ∈ stretches equity, s.rest ≠ [] → maxDrawdownDuration equity ≠ 0 := by
    intro s hs hrest hzero
    have hle := hbound s hs hrest
    rw [hzero, s.length_eq] at hle
    exact absurd hle (Nat.not_succ_le_zero _)
  constructor
  · intro hmatches s hs hrest
    obtain ⟨s', hs', hdips, heq⟩ := (hmatches.isGreatest (hpositive s hs hrest)).1
    exact ⟨s', hs', hdips, heq ▸ hbound s hs hrest⟩
  · intro hlevel
    -- the longest stretch may be level, but then one that dips is as long
    have hdips : maxDrawdownDuration equity ≠ 0 →
        ∃ s ∈ stretches equity, s.Dips ∧ maxDrawdownDuration equity = s.length := by
      intro hne
      obtain ⟨s, hs, hrest, heq⟩ := exists_length_eq hequity hlen hne
      obtain ⟨s', hs', hdips, hle⟩ := hlevel s hs hrest
      exact ⟨s', hs', hdips, le_antisymm (heq.trans_le hle) (hbound s' hs' hdips.rest_ne_nil)⟩
    constructor
    · rw [hfalls]
      constructor
      · intro hzero s hs hdips
        exact hpositive s hs hdips.rest_ne_nil hzero
      · intro hnone
        by_contra hne
        obtain ⟨s, hs, hdip, -⟩ := hdips hne
        exact hnone s hs hdip
    · intro hne
      refine ⟨hdips hne, ?_⟩
      rintro n ⟨s, hs, hdip, rfl⟩
      exact hbound s hs hdip.rest_ne_nil

/-- The only stretch with a second sample dips. -/
theorem drawdown_duration_of_dip : DurationMatches [100, 120, 90, 130] :=
  (drawdown_duration_iff (by decide +kernel) (by decide)).mpr (by decide +kernel)

/-- The samples never fall, and yet the longest drawdown has three of them. -/
theorem level_curve_has_duration :
    Drawdown.maxDrawdown [100, 100, 100, 110] = 0 ∧ maxDrawdownDuration [100, 100, 100, 110] = 3 ∧
      ¬DurationMatches [100, 100, 100, 110] := by
  have hdrawdown : Drawdown.maxDrawdown [100, 100, 100, 110] = 0 := by decide +kernel
  have hduration : maxDrawdownDuration [100, 100, 100, 110] = 3 := by decide +kernel
  refine ⟨hdrawdown, hduration, fun hmatches => ?_⟩
  rw [hmatches.zero_iff.mpr hdrawdown] at hduration
  exact absurd hduration (by decide)

end Propfirm
