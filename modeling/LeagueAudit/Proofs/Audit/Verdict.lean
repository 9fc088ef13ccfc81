import LeagueAudit.Proofs.Audit.Causes
import LeagueAudit.Proofs.Rule.Default

/-!
The exit code of an audit, told from what is wrong with the result alone: scores come before
violated hard constraints, these before an infeasible result, and that before all other faults.
-/
namespace LeagueAudit

open Index

namespace Scorekeeper

variable {k : Scorekeeper} {result : Json} {evaluations : List Evaluation} {ledger : ReportedLedger}
  {r : Reconciliation}

end Scorekeeper

namespace Auditor

variable {auditor : Auditor} {league raw document : Json} {audit : ResultAudit} {checked : Bool}
  {notes : List Entry}

/-- A result that schedules nothing. -/
def emptyResult : Json :=
  .obj [("feasible", .bool true), ("assignments", .arr []), ("scores", .obj [])]

/-- The exit code is three or more exactly when a violated hard constraint lists a violation, a rule
failed, or scores differ that are not corrected. The default rules list what they count. -/
theorem three_le_exitCode_iff_lists (haudit : auditor.auditResult league raw = .ok audit)
    {r : Reconciliation} (hr : audit.reconciliation = some r) :
    (3 ≤ audit.report.exitCode ↔
      (∃ ev ∈ r.evaluations, ev.constraint.soft = false ∧ ev.status = .violated ∧
        ev.violations ≠ []) ∨
      (∃ ev ∈ r.evaluations, ev.status = .failed) ∨
      (auditor.config.fixScores = false ∧ r.differences ≠ [])) ∧
    (auditor.catalog = .default →
      (∃ ev ∈ r.evaluations, ev.constraint.soft = false ∧ ev.status = .violated) →
      3 ≤ audit.report.exitCode) := by
  rcases auditResult_eq_ok haudit with ⟨_, _, -, -, hnone⟩ | ⟨_, _, -, index, r', h⟩
  · cases hnone.symm.trans hr
  cases h.holdsReconciliation.symm.trans hr
  have hiff : 3 ≤ audit.report.exitCode ↔ _ ∨ _ := audit.report.three_le_exitCode
  rw [h.aboutScores_iff, h.hardViolations_iff, or_comm] at hiff
  refine ⟨hiff, fun hcatalog => ?_⟩
  rintro ⟨ev, hev, hhard, hviolated⟩
  obtain ⟨doc, -, hdoc⟩ := exists_source_of_mapM_eq_ok h.reconciles.1 hev
  exact hiff.mpr (.inl ⟨ev, hev, hhard, hviolated,
    Engine.violations_ne_nil_of_violated hcatalog (Engine.evaluateAmong_eq_ok hdoc) hviolated⟩)

/-- A rule that counts two misses and lists none. -/
def countOnly : Rule where
  id := "count_only"
  run _ := ⟨[], .ok (.value (.obj [("count", .int 2)]))⟩

/-- What an audit with this rule is made with. -/
def countingAuditor : Auditor := { catalog := { rules := [("count_only", countOnly)] } }

/-- An instance with one hard constraint under this rule. -/
def countedLeague : Json :=
  .obj [("fixtures", .arr []), ("constraints", .arr [.obj
    [("id", .str "H1"), ("type", .str "hard"), ("ruleId", .str "count_only")]])]

theorem auditResult_countOnly :
    ∃ audit r, countingAuditor.auditResult countedLeague emptyResult = .ok audit ∧
      audit.reconciliation = some r ∧ audit.report.exitCode = 0 ∧
      ∃ ev ∈ r.evaluations, ev.constraint.soft = false ∧ ev.status = .violated := by
  obtain ⟨audit, haudit, hview⟩ := exists_ok_of_toOption_map
    (x := countingAuditor.auditResult countedLeague emptyResult)
    (f := fun audit => (audit.report.exitCode, audit.reconciliation.map fun r =>
      r.evaluations.any fun ev => !ev.constraint.soft && ev.status = .violated))
    (b := (0, some true)) (by decide +kernel)
  obtain ⟨hcode, hr⟩ := Prod.mk.inj hview
  obtain ⟨r, hr, hany⟩ := Option.map_eq_some_iff.mp hr
  obtain ⟨ev, hev, hviolated⟩ := List.any_eq_true.mp hany
  exact ⟨audit, r, haudit, hr, hcode, ev, hev, by simpa using hviolated⟩

theorem three_le_exitCode_iff_lists_countOnly :
    ∃ audit r, countingAuditor.auditResult countedLeague emptyResult = .ok audit ∧
      audit.reconciliation = some r ∧
      ¬∃ ev ∈ r.evaluations, ev.constraint.soft = false ∧ ev.status = .violated ∧
        ev.violations ≠ [] := by
  obtain ⟨audit, r, haudit, hr, hcode, -⟩ := auditResult_countOnly
  refine ⟨audit, r, haudit, hr, fun hlists => ?_⟩
  have h := (three_le_exitCode_iff_lists haudit hr).1.mpr (.inl hlists)
  omega

/-- A violated hard constraint can pass with exit code zero. -/
theorem violated_of_exitCode_zero :
    ∃ audit r, countingAuditor.auditResult countedLeague emptyResult = .ok audit ∧
      audit.reconciliation = some r ∧
      (∃ ev ∈ r.evaluations, ev.constraint.soft = false ∧ ev.status = .violated) ∧
      ¬3 ≤ audit.report.exitCode := by
  obtain ⟨audit, r, haudit, hr, hcode, hviolated⟩ := auditResult_countOnly
  exact ⟨audit, r, haudit, hr, hviolated, by omega⟩

end Auditor
end LeagueAudit
