import LeagueAudit.Report.Basic

/-!
Exit codes. Each class of findings has a code of its own and the highest one wins: scores before
hard violations, these before an infeasible result, and that before any other error.
-/
namespace LeagueAudit

/-- A highest code is reached by the start or by one of the codes. -/
theorem le_foldl_max {n start : Nat} {codes : List Nat} :
    n ≤ codes.foldl max start ↔ n ≤ start ∨ ∃ c ∈ codes, n ≤ c := by
  induction codes generalizing start with
  | nil => simp
  | cons c rest ih =>
    have hmax : n ≤ max start c ↔ n ≤ start ∨ n ≤ c := by omega
    rw [List.foldl_cons, ih, hmax, or_assoc]
    simp [List.mem_cons]

namespace Entry

theorem exitCode_eq_four {e : Entry} : e.exitCode = 4 ↔ e.check ∈ scoringChecks := by
  unfold exitCode
  split
  · next h => simpa using h
  · next h => simpa using h

end Entry

namespace Finding

@[simp] theorem exitCode_entry (e : Entry) : (entry e).exitCode = e.exitCode := rfl

theorem exitCode_cases (f : Finding) : f.exitCode = 1 ∨ f.exitCode = 4 := by
  cases f with
  | entry e =>
    rw [exitCode_entry, Entry.exitCode]
    split <;> simp
  | given value =>
    simp only [exitCode]
    split <;> simp

end Finding

namespace Report

/-- Some error is about scores. -/
def aboutScores (r : Report) : Bool := r.errors.any fun f => f.exitCode == 4

/-- Some finding calls for code one at least. -/
def complains (r : Report) : Bool :=
  !r.errors.isEmpty || r.failOnWarnings && !r.warnings.isEmpty

theorem mem_codes {c : Nat} (r : Report) :
    c ∈ r.codes ↔ (∃ f ∈ r.errors, f.exitCode = c) ∨ (c = 2 ∧ r.infeasible = true) ∨
      (c = 3 ∧ r.hardViolations.isEmpty = false) ∨
      (c = 1 ∧ r.failOnWarnings = true ∧ r.warnings.isEmpty = false) := by
  unfold codes
  simp only [List.mem_append, List.mem_map, or_assoc]
  cases r.infeasible <;> cases r.hardViolations.isEmpty <;> cases r.failOnWarnings <;>
    cases r.warnings.isEmpty <;> simp

/-- A code is reached by an error or by one of the other findings. -/
theorem succ_le_exitCode (r : Report) (n : Nat) :
    n + 1 ≤ r.exitCode ↔ (∃ f ∈ r.errors, n + 1 ≤ f.exitCode) ∨
      (n + 1 ≤ 2 ∧ r.infeasible = true) ∨
      (n + 1 ≤ 3 ∧ r.hardViolations.isEmpty = false) ∨
      (n + 1 ≤ 1 ∧ r.failOnWarnings = true ∧ r.warnings.isEmpty = false) := by
  have hzero : ¬n + 1 ≤ 0 := by omega
  rw [exitCode, le_foldl_max, or_iff_right hzero]
  constructor
  · rintro ⟨c, hc, h⟩
    rcases (mem_codes r).mp hc with ⟨f, hf, rfl⟩ | ⟨rfl, hi⟩ | ⟨rfl, hv⟩ | ⟨rfl, hw⟩
    · exact .inl ⟨f, hf, h⟩
    · exact .inr (.inl ⟨h, hi⟩)
    · exact .inr (.inr (.inl ⟨h, hv⟩))
    · exact .inr (.inr (.inr ⟨h, hw⟩))
  · rintro (⟨f, hf, h⟩ | ⟨h, hi⟩ | ⟨h, hv⟩ | ⟨h, hw⟩)
    · exact ⟨f.exitCode, (mem_codes r).mpr (.inl ⟨f, hf, rfl⟩), h⟩
    · exact ⟨2, (mem_codes r).mpr (.inr (.inl ⟨rfl, hi⟩)), h⟩
    · exact ⟨3, (mem_codes r).mpr (.inr (.inr (.inl ⟨rfl, hv⟩))), h⟩
    · exact ⟨1, (mem_codes r).mpr (.inr (.inr (.inr ⟨rfl, hw⟩))), h⟩

theorem exists_one_le_errors (r : Report) :
    (∃ f ∈ r.errors, 1 ≤ f.exitCode) ↔ r.errors.isEmpty = false := by
  have hall : ∀ f : Finding, 1 ≤ f.exitCode := fun f => by
    rcases f.exitCode_cases with h | h <;> omega
  cases r.errors <;> simp [hall]

/-- Above code one, errors are about scores. -/
theorem exists_succ_le_errors (r : Report) {n : Nat} (hlow : 1 ≤ n) (hhigh : n ≤ 3) :
    (∃ f ∈ r.errors, n + 1 ≤ f.exitCode) ↔ r.aboutScores = true := by
  have hfour : ∀ f : Finding, n + 1 ≤ f.exitCode ↔ f.exitCode = 4 := fun f => by
    rcases f.exitCode_cases with h | h <;> omega
  simp [aboutScores, List.any_eq_true, hfour]

theorem four_le_exitCode (r : Report) : 4 ≤ r.exitCode ↔ r.aboutScores = true := by
  rw [succ_le_exitCode, exists_succ_le_errors r (by omega) (by omega)]
  simp

theorem three_le_exitCode (r : Report) :
    3 ≤ r.exitCode ↔ r.aboutScores = true ∨ r.hardViolations.isEmpty = false := by
  rw [succ_le_exitCode, exists_succ_le_errors r (by omega) (by omega)]
  simp

theorem two_le_exitCode (r : Report) :
    2 ≤ r.exitCode ↔ r.aboutScores = true ∨ r.infeasible = true ∨
      r.hardViolations.isEmpty = false := by
  rw [succ_le_exitCode, exists_succ_le_errors r (by omega) (by omega)]
  simp

theorem one_le_exitCode (r : Report) :
    1 ≤ r.exitCode ↔ r.infeasible = true ∨ r.hardViolations.isEmpty = false ∨
      r.complains = true := by
  rw [succ_le_exitCode, exists_one_le_errors, complains]
  simp only [Bool.or_eq_true, Bool.not_eq_true', Bool.and_eq_true]
  grind

theorem exitCode_le_four (r : Report) : r.exitCode ≤ 4 := by
  refine Nat.le_of_not_lt fun h => ?_
  rcases (r.succ_le_exitCode 4).mp h with ⟨f, -, hcode⟩ | ⟨h, -⟩ | ⟨h, -⟩ | ⟨h, -⟩
  · rcases f.exitCode_cases with hf | hf <;> omega
  all_goals omega

/-- The exit code as a choice among the classes of findings. -/
theorem exitCode_eq (r : Report) :
    r.exitCode =
      if r.aboutScores then 4
      else if !r.hardViolations.isEmpty then 3
      else if r.infeasible then 2
      else if r.complains then 1
      else 0 := by
  have h4 := r.four_le_exitCode
  have h3 := r.three_le_exitCode
  have h2 := r.two_le_exitCode
  have h1 := r.one_le_exitCode
  have hle := r.exitCode_le_four
  cases hs : r.aboutScores <;> cases hv : r.hardViolations.isEmpty <;>
    cases hi : r.infeasible <;> cases hc : r.complains <;>
    simp [hs, hv, hi, hc] at h1 h2 h3 h4 ⊢ <;> omega

theorem exitCode_eq_zero_iff (r : Report) :
    r.exitCode = 0 ↔ r.errors = [] ∧ r.hardViolations = [] ∧ r.infeasible = false ∧
      (r.failOnWarnings = true → r.warnings = []) := by
  rw [← Nat.lt_one_iff, ← Nat.not_le, one_le_exitCode, complains]
  simp only [not_or, Bool.or_eq_true, Bool.and_eq_true, Bool.not_eq_true', Bool.not_eq_true,
    Bool.not_eq_false, List.isEmpty_iff, not_and]
  constructor
  · rintro ⟨hfeasible, hhard, herrors, hwarnings⟩
    exact ⟨herrors, hhard, hfeasible, hwarnings⟩
  · rintro ⟨herrors, hhard, hfeasible, hwarnings⟩
    exact ⟨hfeasible, hhard, herrors, hwarnings⟩

/-- A clean report has no errors and no violated hard constraints. -/
theorem clean_of_exitCode_eq_zero {r : Report} (h : r.exitCode = 0) :
    r.errors = [] ∧ r.hardViolations = [] :=
  ⟨(r.exitCode_eq_zero_iff.mp h).1, (r.exitCode_eq_zero_iff.mp h).2.1⟩

/-- More findings never make a lower exit code. -/
theorem exitCode_le_of_subset {r s : Report} (herrors : r.errors ⊆ s.errors)
    (hwarnings : r.warnings ⊆ s.warnings) (hhard : r.hardViolations ⊆ s.hardViolations)
    (hinfeasible : r.infeasible = true → s.infeasible = true)
    (hfail : r.failOnWarnings = s.failOnWarnings) : r.exitCode ≤ s.exitCode := by
  have hsome {α : Type} {xs ys : List α} (hsub : xs ⊆ ys) (hxs : xs.isEmpty = false) :
      ys.isEmpty = false := by
    rw [List.isEmpty_eq_false_iff] at *
    exact fun hys => hxs (List.eq_nil_of_subset_nil (hys ▸ hsub))
  -- A code above that of `s` would be reached by `s` too.
  refine Nat.le_of_not_lt fun hlt => Nat.lt_irrefl s.exitCode ((s.succ_le_exitCode _).mpr ?_)
  rcases (r.succ_le_exitCode _).mp hlt with ⟨f, hf, hcode⟩ | ⟨hcode, hi⟩ | ⟨hcode, hv⟩ |
    ⟨hcode, hw, hs⟩
  · exact .inl ⟨f, herrors hf, hcode⟩
  · exact .inr (.inl ⟨hcode, hinfeasible hi⟩)
  · exact .inr (.inr (.inl ⟨hcode, hsome hhard hv⟩))
  · exact .inr (.inr (.inr ⟨hcode, hfail ▸ hw, hsome hwarnings hs⟩))

end Report
end LeagueAudit
