import LeagueAudit.Proofs.Audit.Reported

/-!
What an audit warns of: what was not in its place, a result that its solver calls infeasible, what
the constraints and the ledger tell, whatever cannot be read of the documents, and unknown venues.
-/
namespace LeagueAudit

namespace Report

theorem warnings_addErrors (r : Report) (es : List Entry) :
    (r.addErrors es).warnings = r.warnings := by rw [addErrors_eq]

theorem warnings_markPassed (r : Report) (check : String) :
    (r.markPassed check).warnings = r.warnings := by
  unfold markPassed
  split <;> rfl

theorem warnings_extend (r : Report) (errors warnings : List Entry) :
    (r.extend errors warnings).warnings = r.warnings ++ warnings.map .entry := by
  rw [extend, addWarnings, warnings_addErrors]

end Report

namespace ResultAudit

/-- What an audit tells of a result that its solver calls infeasible. -/
def feasibleWarnings (document : Json) : List Entry :=
  if isFeasible document then [] else [infeasibleWarning]

/-- The diagnostics of the index that are no errors. -/
def issueWarnings (index : Index) (timed : List String) : List Entry :=
  (index.issues.filter fun issue => !isIssueError timed issue).map issueEntry

theorem warnings_noteFeasible (document : Json) (r : Report) :
    (noteFeasible document r).warnings =
      r.warnings ++ (feasibleWarnings document).map .entry := by
  unfold noteFeasible feasibleWarnings
  cases isFeasible document with
  | true => exact (List.append_nil _).symm
  | false => rfl

theorem warnings_noteIssues (index : Index) (timed : List String) (r : Report) :
    (noteIssues index timed r).warnings =
      r.warnings ++ (issueWarnings index timed ++ venueWarnings index).map .entry := by
  -- The issues are told one by one, so the induction is about any report that is there already.
  have hfold : ∀ issues : List Issue, ∀ r : Report,
      (issues.foldl (fun (report : Report) issue =>
        if isIssueError timed issue then report.addError (issueEntry issue)
        else report.addWarning (issueEntry issue)) r).warnings =
      r.warnings ++ ((issues.filter fun issue => !isIssueError timed issue).map issueEntry).map
        .entry := by
    intro issues
    induction issues with
    | nil =>
      intro r
      exact (List.append_nil _).symm
    | cons issue rest ih =>
      intro r
      rw [List.foldl_cons, ih, List.filter_cons]
      cases isIssueError timed issue with
      | true => rfl
      | false =>
        rw [if_neg Bool.false_ne_true, Bool.not_false, if_pos rfl, Report.addWarning,
          List.map_cons, List.map_cons, List.append_assoc, List.singleton_append]
  unfold noteIssues issueWarnings
  dsimp only
  rw [Report.addWarnings, hfold, List.map_append, List.append_assoc]

/-- Every diagnostic of the index is an error or a warning. -/
theorem issues_eq_nil_iff (index : Index) (timed : List String) :
    index.issues = [] ↔ issueErrors index timed = [] ∧ issueWarnings index timed = [] := by
  unfold issueErrors issueWarnings
  rw [List.map_eq_nil_iff, List.map_eq_nil_iff, List.filter_eq_nil_iff, List.filter_eq_nil_iff]
  constructor
  · intro h
    simp [h]
  · rintro ⟨herrors, hwarnings⟩
    rw [List.eq_nil_iff_forall_not_mem]
    intro issue hissue
    have hnot := hwarnings issue hissue
    simp only [Bool.not_eq_true', Bool.not_eq_false] at hnot
    exact herrors issue hissue hnot

end ResultAudit

namespace Auditor

open ResultAudit

variable {auditor : Auditor} {league : Json} {audit : ResultAudit}

theorem warnings_auditDocument {document : Json} {report : Report}
    (h : auditor.auditDocument league document report = .ok audit) {index : Index}
    {r : Reconciliation} (hindex : audit.index = some index)
    (hr : audit.reconciliation = some r) :
    audit.report.warnings = report.warnings ++
      (feasibleWarnings document ++ (r.warnings ++
        (issueWarnings index (timedFixtures r.evaluations) ++ venueWarnings index))).map
        .entry := by
  unfold auditDocument at h
  obtain ⟨index', -, h⟩ := bind_eq_ok.mp h
  obtain ⟨r', -, h⟩ := bind_eq_ok.mp h
  cases Except.ok.inj h
  cases hindex
  cases hr
  rw [Report.setDetails, warnings_noteIssues, Report.warnings_extend, Report.warnings_markPassed,
    Report.warnings_addErrors, warnings_noteFeasible]
  simp only [List.map_append, List.append_assoc]

theorem warnings_of_object {members : List (String × Json)} (hschemas : auditor.schemas = none)
    (h : auditor.auditResult league (.obj members) = .ok audit) {index : Index}
    {r : Reconciliation} (hstaged : Staged auditor league audit index r) :
    audit.report.warnings =
      (((Canonical.ofMembers members).warnings.map fun message =>
          ({ check := "NormalizationApplied", message } : Entry)) ++
        (feasibleWarnings audit.document ++ (r.warnings ++
          (issueWarnings index (timedFixtures r.evaluations) ++ venueWarnings index)))).map
        .entry := by
  have hlacks : auditor.lacksResultSchema = false := by
    unfold lacksResultSchema
    rw [hschemas]
    rfl
  have hdocument := (staged_of_object hschemas h).1
  unfold auditResult at h
  rw [structureOf_object hschemas, hlacks] at h
  rw [warnings_auditDocument h hstaged.holdsIndex hstaged.holdsReconciliation, hdocument]
  simp only [List.map_append]
  rfl

end Auditor
end LeagueAudit
