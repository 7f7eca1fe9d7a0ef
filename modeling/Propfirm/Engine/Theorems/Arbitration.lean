import Propfirm.Engine.Lemmas.Decision

/-!
# Arbitration between reports

The worst class decides, and in it the highest priority. Neither depends on the order of the reports.
-/

namespace Propfirm

variable {reports xs ys : List RuleReport} {k : DecisionKind} {v : Violation}

def DecisionKind.severity : DecisionKind → ℕ
  | .pass => 0
  | .warn => 1
  | .earlyWarning => 2
  | .targetHit => 3
  | .gapFlagged => 4
  | .softFail => 5
  | .fail => 6
  | .liquidate => 7
  | .emergency => 8

/-- The classes that are present; to pass is always one of them. -/
def classes (reports : List RuleReport) : Set DecisionKind :=
  insert .pass {k | ∃ r ∈ reports, r.verdict.decisionKind = k}

def priorities (reports : List RuleReport) (k : DecisionKind) : Set ℕ :=
  {p | ∃ r ∈ reports, r.verdict.decisionKind = k ∧ r.priority = p}

/-! ## The class -/

theorem mem_precedence (hk : k ≠ .pass) : k ∈ precedence := by
  cases k <;> simp_all [precedence]

theorem precedence_pairwise : precedence.Pairwise fun a b => b.severity ≤ a.severity := by
  decide

theorem Decision.kind_mem_classes (reports : List RuleReport) :
    (fromReports reports).kind ∈ classes reports := by
  by_cases hk : (fromReports reports).kind = .pass
  · exact .inl hk
  · exact .inr (reported_iff.mp (reported_of_kind hk rfl))

theorem Decision.severity_le_kind {r : RuleReport} (hr : r ∈ reports) :
    r.verdict.decisionKind.severity ≤ (fromReports reports).kind.severity := by
  by_cases hk : r.verdict.decisionKind = .pass
  · rw [hk]
    exact Nat.zero_le _
  · have hreported : reported reports r.verdict.decisionKind = true := reported_iff.mpr ⟨r, hr, rfl⟩
    rw [fromReports_kind]
    cases hfind : precedence.find? (reported reports) with
    | none =>
        have hnone := List.find?_eq_none.mp hfind _ (mem_precedence hk)
        exact absurd hreported hnone
    | some k =>
        exact Select.rank_le_of_find? precedence_pairwise hfind (mem_precedence hk) hreported

/-! ## The priority -/

theorem mem_classified_fst (hk : k ≠ .pass) {p : ℕ} :
    p ∈ (classified reports k).map Prod.fst ↔ p ∈ priorities reports k := by
  simp only [classified, List.mem_map, List.mem_filterMap, priorities, Set.mem_ofPred_eq]
  constructor
  · rintro ⟨w, ⟨r, hr, hv⟩, rfl⟩
    split at hv
    · rename_i hkind
      obtain ⟨v, -, rfl⟩ := Option.map_eq_some_iff.mp hv
      exact ⟨r, hr, hkind, rfl⟩
    · cases hv
  · rintro ⟨r, hr, hkind, rfl⟩
    obtain ⟨v, hv⟩ := Option.isSome_iff_exists.mp (Verdict.violation_isSome.mpr (hkind ▸ hk))
    exact ⟨(r.priority, v), ⟨r, hr, by simp [hkind, hv]⟩, rfl⟩

theorem Decision.winningPriority_isGreatest (hk : (fromReports reports).kind ≠ .pass) :
    IsGreatest (priorities reports (fromReports reports).kind) (fromReports reports).winningPriority := by
  obtain ⟨r, hr, hkind⟩ := reported_iff.mp (reported_of_kind hk rfl)
  rw [fromReports_winningPriority]
  cases hmax : ((classified reports (fromReports reports).kind).map Prod.fst).max? with
  | none =>
      have hnil := List.max?_eq_none_iff.mp hmax
      have hmem := (mem_classified_fst hk).mpr ⟨r, hr, hkind, rfl⟩
      rw [hnil] at hmem
      cases hmem
  | some p =>
      obtain ⟨hmem, hle⟩ := List.max?_eq_some_iff.mp hmax
      exact ⟨(mem_classified_fst hk).mp hmem, fun q hq => hle q ((mem_classified_fst hk).mpr hq)⟩

theorem Decision.winningPriority_pass (hk : (fromReports reports).kind = .pass) :
    (fromReports reports).winningPriority = 0 := by
  rw [fromReports_winningPriority, hk, classified_pass]
  rfl

/-! ## Order -/

theorem reported_perm (h : xs.Perm ys) : reported xs = reported ys := by
  funext k
  exact h.any_eq

theorem priorities_perm (h : xs.Perm ys) (k : DecisionKind) : priorities xs k = priorities ys k := by
  ext p
  simp only [priorities, Set.mem_ofPred_eq, h.mem_iff]

theorem Decision.kind_perm (h : xs.Perm ys) : (fromReports xs).kind = (fromReports ys).kind := by
  rw [fromReports_kind, fromReports_kind, reported_perm h]

theorem Decision.winningPriority_perm (h : xs.Perm ys) :
    (fromReports xs).winningPriority = (fromReports ys).winningPriority := by
  by_cases hk : (fromReports xs).kind = .pass
  · rw [winningPriority_pass hk, winningPriority_pass (kind_perm h ▸ hk)]
  · have hx := winningPriority_isGreatest hk
    have hy := winningPriority_isGreatest (kind_perm h ▸ hk)
    rw [← kind_perm h, ← priorities_perm h] at hy
    exact hx.unique hy

theorem Decision.accountStatusTarget_perm (h : xs.Perm ys) :
    (fromReports xs).accountStatusTarget = (fromReports ys).accountStatusTarget := by
  rw [accountStatusTarget, accountStatusTarget, kind_perm h]

theorem Decision.allViolations_perm (h : xs.Perm ys) :
    (fromReports xs).allViolations.Perm (fromReports ys).allViolations := by
  rw [fromReports_allViolations, fromReports_allViolations]
  exact h.filterMap _

/-- The decision on a list of reports, and what reordering them leaves of it. -/
theorem arbitration_order_free (xs ys : List RuleReport) (h : xs.Perm ys) :
    ((Decision.fromReports xs).kind ∈ classes xs ∧
        ∀ k ∈ classes xs, k.severity ≤ (Decision.fromReports xs).kind.severity) ∧
      ((Decision.fromReports xs).kind = .pass → (Decision.fromReports xs).winningPriority = 0) ∧
      ((Decision.fromReports xs).kind ≠ .pass →
        IsGreatest (priorities xs (Decision.fromReports xs).kind)
          (Decision.fromReports xs).winningPriority) ∧
      (Decision.fromReports xs).allViolations = (xs.filterMap fun r => r.verdict.violation) ∧
      (Decision.fromReports xs).kind = (Decision.fromReports ys).kind ∧
      (Decision.fromReports xs).winningPriority = (Decision.fromReports ys).winningPriority ∧
      (Decision.fromReports xs).accountStatusTarget = (Decision.fromReports ys).accountStatusTarget ∧
      (Decision.fromReports xs).allViolations.Perm (Decision.fromReports ys).allViolations := by
  refine ⟨⟨Decision.kind_mem_classes xs, ?_⟩, Decision.winningPriority_pass,
    Decision.winningPriority_isGreatest, Decision.fromReports_allViolations xs, Decision.kind_perm h,
    Decision.winningPriority_perm h, Decision.accountStatusTarget_perm h, Decision.allViolations_perm h⟩
  rintro k (rfl | ⟨r, hr, rfl⟩)
  · exact Nat.zero_le _
  · exact Decision.severity_le_kind hr

/-- A report of a rule on the first account. -/
def sampleReport (rule : RuleName) (priority : ℕ) (verdict : Violation → RuleVerdict) : RuleReport where
  ruleId := .named rule
  ruleName := "sample"
  verdict :=
    verdict
      { id := ⟨1⟩, accountId := ⟨1⟩, tenantId := ⟨1⟩, ruleId := .named rule, ruleName := "sample"
        kind := .custom, severity := .hard, message := [], occurredAt := 0, breachValue := none
        thresholdValue := none, utilization := none }
  scope := .onTick
  priority
  evaluatedAt := 0
  contextKind := .onTick

/-- A target of the highest priority does not win over a breach of the lowest. -/
theorem arbitration_order_free_breach_wins :
    let target := sampleReport .profitTarget 1000 .targetHit
    let breach := sampleReport .dailyDrawdown 0 .fail
    (Decision.fromReports [target, breach]).kind = .fail ∧
      (Decision.fromReports [breach, target]).kind = .fail := by
  intro target breach
  have h := arbitration_order_free [target, breach] [breach, target] (.swap ..)
  have hkind : (Decision.fromReports [target, breach]).kind = .fail := rfl
  exact ⟨hkind, h.2.2.2.2.1.symm.trans hkind⟩

/-! ## Ties -/

/-- The classes whose reason is one violation. -/
def decisiveKinds : List DecisionKind := [.emergency, .liquidate, .fail, .softFail, .gapFlagged, .targetHit]

theorem Decision.fromReports_winner (h : (fromReports reports).kind ∈ decisiveKinds) :
    ∃ p v, pickWinner (classified reports (fromReports reports).kind) = some (p, v) ∧
      (fromReports reports).reason.violation = some v := by
  unfold fromReports at h ⊢
  dsimp only at h ⊢
  repeat' split
  all_goals simp_all [decisiveKinds, DecisionReason.violation]

theorem pickWinner_split {xs : List (ℕ × Violation)} {w : ℕ × Violation} (h : pickWinner xs = some w) :
    ∃ before after, xs = before ++ w :: after ∧ (∀ y ∈ before, y.1 ≤ w.1) ∧ ∀ y ∈ after, y.1 < w.1 := by
  cases xs with
  | nil => cases h
  | cons x xs =>
      cases h
      exact Select.foldl_later_split x xs

theorem classify_eq_some {k : DecisionKind} (hk : k ≠ .pass) {r : RuleReport}
    (h : r.verdict.decisionKind = k) :
    ∃ v, (if r.verdict.decisionKind = k then r.verdict.violation.map fun v => (r.priority, v) else none) =
      some (r.priority, v) := by
  obtain ⟨v, hv⟩ := Option.isSome_iff_exists.mp (Verdict.violation_isSome.mpr (h ▸ hk))
  exact ⟨v, by rw [if_pos h, hv]; rfl⟩

/-- The report whose violation a class is decided by. -/
theorem classified_split {k : DecisionKind} (hk : k ≠ .pass) {p : ℕ}
    (h : pickWinner (classified reports k) = some (p, v)) :
    ∃ before r after, reports = before ++ r :: after ∧ r.verdict.decisionKind = k ∧
      r.verdict.violation = some v ∧
      (∀ x ∈ before, x.verdict.decisionKind = k → x.priority ≤ r.priority) ∧
      ∀ x ∈ after, x.verdict.decisionKind = k → x.priority < r.priority := by
  obtain ⟨before, after, hsplit, hbefore, hafter⟩ := pickWinner_split h
  obtain ⟨l₁, l₂, rfl, hl₁, hl₂⟩ := List.filterMap_eq_append_iff.mp hsplit
  obtain ⟨m₁, r, m₂, rfl, hm₁, hr, hm₂⟩ := List.filterMap_eq_cons_iff.mp hl₂
  split at hr
  · rename_i hkind
    obtain ⟨w, hw, heq⟩ := Option.map_eq_some_iff.mp hr
    obtain ⟨rfl, rfl⟩ := Prod.mk.inj heq
    refine ⟨l₁ ++ m₁, r, m₂, by rw [List.append_assoc], hkind, hw, fun x hx hxk => ?_, fun x hx hxk => ?_⟩
    · obtain ⟨u, hu⟩ := classify_eq_some hk hxk
      rcases List.mem_append.mp hx with hx | hx
      · apply hbefore (x.priority, u)
        rw [← hl₁]
        exact List.mem_filterMap.mpr ⟨x, hx, hu⟩
      · rw [hm₁ x hx] at hu
        cases hu
    · obtain ⟨u, hu⟩ := classify_eq_some hk hxk
      apply hafter (x.priority, u)
      rw [← hm₂]
      exact List.mem_filterMap.mpr ⟨x, hx, hu⟩
  · cases hr

namespace Decision

/-- The report is of the class that decides, and none of the class has a greater priority. -/
def leads (reports : List RuleReport) (r : RuleReport) : Bool :=
  decide (r.verdict.decisionKind = (fromReports reports).kind ∧
    ∀ x ∈ reports, x.verdict.decisionKind = (fromReports reports).kind → x.priority ≤ r.priority)

def leaders (reports : List RuleReport) : List RuleReport := reports.filter (leads reports)

theorem leaders_getLast (h : (fromReports reports).kind ∈ decisiveKinds) :
    ∃ r, (leaders reports).getLast? = some r ∧
      (fromReports reports).reason.violation = r.verdict.violation := by
  have hpass : (fromReports reports).kind ≠ .pass := fun hpass => by simp [hpass, decisiveKinds] at h
  obtain ⟨p, v, hw, hreason⟩ := fromReports_winner h
  obtain ⟨before, r, after, hsplit, hkind, hv, hbefore, hafter⟩ := classified_split hpass hw
  have hleads : leads reports r = true := by
    refine decide_eq_true ⟨hkind, fun x hx hxk => ?_⟩
    rw [hsplit, List.mem_append, List.mem_cons] at hx
    rcases hx with hx | rfl | hx
    · exact hbefore x hx hxk
    · exact le_rfl
    · exact (hafter x hx hxk).le
  have hrest : after.filter (leads reports) = [] := by
    refine List.filter_eq_nil_iff.mpr fun x hx hlead => ?_
    obtain ⟨hxk, hle⟩ := of_decide_eq_true hlead
    have hr : r ∈ reports := by simp [hsplit]
    exact absurd (hle r hr hkind) (not_le.mpr (hafter x hx hxk))
  have hleaders : leaders reports = before.filter (leads reports) ++ [r] := by
    calc leaders reports
        = (before ++ r :: after).filter (leads reports) := congrArg (List.filter _) hsplit
      _ = before.filter (leads reports) ++ [r] := by
          rw [List.filter_append, List.filter_cons_of_pos hleads, hrest]
  exact ⟨r, by rw [hleaders, List.getLast?_concat], hreason.trans hv.symm⟩

end Decision

/-- Of the leaders the last decides. The reason names the first exactly if their violations are equal. -/
theorem first_leader_decides_iff (reports : List RuleReport)
    (h : (Decision.fromReports reports).kind ∈ decisiveKinds) :
    ∃ first last, (Decision.leaders reports).head? = some first ∧
      (Decision.leaders reports).getLast? = some last ∧
      ((Decision.fromReports reports).reason.violation = first.verdict.violation ↔
        last.verdict.violation = first.verdict.violation) := by
  obtain ⟨last, hlast, hreason⟩ := Decision.leaders_getLast h
  have hne : Decision.leaders reports ≠ [] := fun hnil => by simp [hnil] at hlast
  exact ⟨_, last, List.head?_eq_some_head hne, hlast, by rw [hreason]⟩

/-- A report without a rival decides, whatever stands after it. -/
theorem first_leader_decides_alone :
    let daily := sampleReport .dailyDrawdown 200 .liquidate
    let total := sampleReport .maxDrawdown 100 .liquidate
    Decision.leaders [total, daily, total] = [daily] ∧
      (Decision.fromReports [total, daily, total]).reason.violation = daily.verdict.violation := by
  intro daily total
  have hleaders : Decision.leaders [total, daily, total] = [daily] := by decide +kernel
  obtain ⟨first, last, hfirst, hlast, hiff⟩ :=
    first_leader_decides_iff [total, daily, total] (by decide +kernel)
  rw [hleaders] at hfirst hlast
  cases hfirst
  cases hlast
  exact ⟨hleaders, hiff.mpr rfl⟩

/-- Two rules of the default priority stop an order: the one registered first is not the one named. -/
theorem first_leader_not_decisive :
    let count := sampleReport .maxOpenPositions 100 .fail
    let stop := sampleReport .slRequired 100 .fail
    (Decision.fromReports [count, stop]).kind = .fail ∧
      Decision.leaders [count, stop] = [count, stop] ∧
      (Decision.fromReports [count, stop]).reason.violation ≠ count.verdict.violation := by
  decide +kernel

end Propfirm
