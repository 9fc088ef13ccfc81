import LeagueAudit.Audit.Result
import LeagueAudit.Proofs.Json.Members
import LeagueAudit.Proofs.Outcome
import LeagueAudit.Proofs.Report.Operations

/-!
The stages of an audit and the report they make. Once the structure is sound, the report holds the
errors of all later stages in turn, and nothing else counts for its exit code.
-/
namespace LeagueAudit

namespace Report

/-- A later report has some more errors, and maybe other warnings, checks and details. -/
structure Adds (r : Report) (es : List Entry) (later : Report) : Prop where
  errors : later.errors = r.errors ++ es.map .entry
  infeasible : later.infeasible = r.infeasible
  failOnWarnings : later.failOnWarnings = r.failOnWarnings

theorem Adds.trans {r s t : Report} {es fs : List Entry} (hs : r.Adds es s) (ht : s.Adds fs t) :
    r.Adds (es ++ fs) t where
  errors := by rw [ht.errors, hs.errors, List.map_append, List.append_assoc]
  infeasible := ht.infeasible.trans hs.infeasible
  failOnWarnings := ht.failOnWarnings.trans hs.failOnWarnings

theorem adds_nil (r : Report) : r.Adds [] r := ⟨(List.append_nil _).symm, rfl, rfl⟩

theorem adds_addError (r : Report) (e : Entry) : r.Adds [e] (r.addError e) := ⟨rfl, rfl, rfl⟩

theorem adds_addWarning (r : Report) (e : Entry) : r.Adds [] (r.addWarning e) :=
  ⟨(List.append_nil _).symm, rfl, rfl⟩

theorem adds_addWarnings (r : Report) (es : List Entry) : r.Adds [] (r.addWarnings es) :=
  ⟨(List.append_nil _).symm, rfl, rfl⟩

theorem adds_setDetails (r : Report) (more : List (String × Json)) :
    r.Adds [] (r.setDetails more) :=
  ⟨(List.append_nil _).symm, rfl, rfl⟩

theorem adds_markPassed (r : Report) (check : String) : r.Adds [] (r.markPassed check) := by
  obtain ⟨checks, hchecks⟩ := r.exists_markPassed_eq check
  rw [hchecks]
  exact ⟨(List.append_nil _).symm, rfl, rfl⟩

theorem adds_addErrors (r : Report) (es : List Entry) : r.Adds es (r.addErrors es) := by
  rw [addErrors_eq]
  exact ⟨rfl, rfl, rfl⟩

theorem details_addErrors (r : Report) (es : List Entry) :
    (r.addErrors es).details = r.details := by rw [addErrors_eq]

theorem adds_extend (r : Report) (errors warnings : List Entry) :
    r.Adds errors (r.extend errors warnings) := by
  have h := (r.adds_addErrors errors).trans ((r.addErrors errors).adds_addWarnings warnings)
  rwa [List.append_nil] at h

theorem hardViolations_of_detail {r : Report} {vs : List Json}
    (h : r.detail "hardViolations" = .arr vs) : r.hardViolations = vs :=
  hardViolations_eq (hardViolations?_of_detail h)

end Report

namespace ResultAudit

theorem noteFeasible_eq (document : Json) (r : Report) :
    ∃ warnings details, noteFeasible document r =
      { r with warnings, details, infeasible := r.infeasible || !isFeasible document } := by
  unfold noteFeasible
  cases isFeasible document with
  | true => exact ⟨r.warnings, _, by rw [Bool.not_true, Bool.or_false]; rfl⟩
  | false => exact ⟨_, _, by rw [Bool.not_false, Bool.or_true]; rfl⟩

/-- The diagnostics of the index that are errors. -/
def issueErrors (index : Index) (timed : List String) : List Entry :=
  (index.issues.filter (isIssueError timed)).map issueEntry

theorem adds_noteIssues (index : Index) (timed : List String) (r : Report) :
    r.Adds (issueErrors index timed) (noteIssues index timed r) := by
  unfold noteIssues issueErrors
  suffices hfold : ∀ issues : List Issue, ∀ r : Report,
      r.Adds ((issues.filter (isIssueError timed)).map issueEntry)
        (issues.foldl (fun (report : Report) issue =>
          if isIssueError timed issue then report.addError (issueEntry issue)
          else report.addWarning (issueEntry issue)) r) by
    have h := (hfold index.issues r).trans (Report.adds_addWarnings _ (venueWarnings index))
    rwa [List.append_nil] at h
  intro issues
  induction issues with
  | nil => exact fun r => r.adds_nil
  | cons issue rest ih =>
    intro r
    rw [List.foldl_cons, List.filter_cons]
    split
    · exact (r.adds_addError _).trans (ih _)
    · exact (r.adds_addWarning _).trans (ih _)

theorem errors_ne_nil_of_broken {check : Option (Json → Except Fault (List String))} {raw : Json}
    {notes errors : List Entry} (h : structureOf check raw = .ok (.broken notes errors)) :
    errors ≠ [] := by
  unfold structureOf at h
  cases check with
  | none =>
    dsimp only at h
    obtain ⟨found, hfound, h⟩ := bind_eq_ok.mp h
    cases Except.ok.inj hfound
    rw [if_neg (by simp)] at h
    split at h <;> cases Except.ok.inj h
    simp
  | some check =>
    dsimp only at h
    obtain ⟨found, -, h⟩ := bind_eq_ok.mp h
    split at h
    · cases Except.ok.inj h
    · next hfirst =>
      split at h
      · cases Except.ok.inj h
        cases found <;> simp
      · next canonical hcanonical =>
        obtain ⟨again, -, h⟩ := bind_eq_ok.mp h
        split at h
        · cases Except.ok.inj h
        · cases Except.ok.inj h
          have hobject : raw.isObject = true := by
            cases raw with
            | obj members => rfl
            | _ => cases hcanonical
          cases found with
          | nil => simp [hobject] at hfirst
          | cons => simp

end ResultAudit

open ResultAudit

/-- What the stages after a sound structure found, and what their report is made of. -/
structure Staged (auditor : Auditor) (league : Json) (audit : ResultAudit) (index : Index)
    (r : Reconciliation) : Prop where
  built : auditor.index league audit.document = .ok index
  reconciled : auditor.scorekeeper.reconcile auditor.engine league audit.document index = .ok r
  holdsIndex : audit.index = some index
  holdsReconciliation : audit.reconciliation = some r
  errors : audit.report.errors =
    (cardinalityErrors index ++ r.errors ++
      issueErrors index (timedFixtures r.evaluations)).map .entry
  infeasible : audit.report.infeasible = !isFeasible audit.document
  failOnWarnings : audit.report.failOnWarnings = auditor.config.failOnWarnings
  hardViolations : audit.report.hardViolations = r.hardViolations

namespace Auditor

theorem detail_setDetails (report : Report) (index : Index) (r : Reconciliation) {key : String}
    {value : Json} (h : (key, value) ∈ details index r) :
    (report.setDetails (details index r)).detail key = value := by
  rw [Report.detail, Report.setDetails,
    Json.lookup_setMembers_of_mem (by simp [details]) h report.details, Option.getD_some]

theorem hardViolations_setDetails (report : Report) (index : Index) (r : Reconciliation) :
    (report.setDetails (details index r)).hardViolations = r.hardViolations :=
  Report.hardViolations_of_detail (detail_setDetails report index r (by simp [details]))

theorem auditDocument_eq_ok {auditor : Auditor} {league document : Json} {report : Report}
    {audit : ResultAudit} (h : auditor.auditDocument league document report = .ok audit)
    (hclean : report.errors = []) (hfeasible : report.infeasible = false)
    (hfail : report.failOnWarnings = auditor.config.failOnWarnings) :
    audit.document = document ∧ ∃ index r, Staged auditor league audit index r := by
  unfold auditDocument at h
  obtain ⟨index, hindex, h⟩ := bind_eq_ok.mp h
  obtain ⟨r, hr, h⟩ := bind_eq_ok.mp h
  cases Except.ok.inj h
  obtain ⟨warnings, details, hnote⟩ := noteFeasible_eq document report
  have hadds := (((Report.adds_addErrors (noteFeasible document report)
    (cardinalityErrors index)).trans (Report.adds_markPassed _ "CardinalityViolation")).trans
    (Report.adds_extend _ r.errors r.warnings)).trans
    (adds_noteIssues index (timedFixtures r.evaluations) _)
  have hall := hadds.trans (Report.adds_setDetails _ (ResultAudit.details index r))
  rw [hnote] at hall
  refine ⟨rfl, index, r, hindex, hr, rfl, rfl, ?_, ?_, ?_, hardViolations_setDetails _ index r⟩
  · simpa [hnote, hclean] using hall.errors
  · simpa [hnote, hfeasible] using hall.infeasible
  · simpa [hnote, hfail] using hall.failOnWarnings

/-- A missing schema of results is only warned of. -/
theorem adds_schemaNote (auditor : Auditor) :
    (auditor.report "Result").Adds [] (if auditor.lacksResultSchema then
      (auditor.report "Result").addWarning schemaMissing else auditor.report "Result") := by
  split
  · exact Report.adds_addWarning _ _
  · exact Report.adds_nil _

/-- An audit ends with the errors of a broken structure, or after all stages. -/
theorem auditResult_eq_ok {auditor : Auditor} {league raw : Json} {audit : ResultAudit}
    (h : auditor.auditResult league raw = .ok audit) :
    (∃ notes errors, structureOf auditor.resultCheck raw = .ok (.broken notes errors) ∧
      audit.report.errors = errors.map .entry ∧ audit.reconciliation = none) ∨
    ∃ checked notes,
      structureOf auditor.resultCheck raw = .ok (.sound checked notes audit.document) ∧
      ∃ index r, Staged auditor league audit index r := by
  unfold auditResult at h
  obtain ⟨outcome, houtcome, h⟩ := bind_eq_ok.mp h
  dsimp only at h
  have hstart := auditor.adds_schemaNote
  generalize (if auditor.lacksResultSchema then
      (auditor.report "Result").addWarning schemaMissing else auditor.report "Result") = start
    at h hstart
  cases outcome with
  | broken notes errors =>
    cases Except.ok.inj h
    have hadds := (hstart.trans (start.adds_addWarnings notes)).trans
      (Report.adds_addErrors _ errors)
    exact .inl ⟨notes, errors, houtcome, by simpa [Auditor.report] using hadds.errors, rfl⟩
  | sound checked notes document =>
    have hnoted := hstart.trans (start.adds_addWarnings notes)
    dsimp only at h
    generalize start.addWarnings notes = noted at h hnoted
    have hmarked : noted.Adds []
        (if checked then noted.markPassed "SchemaViolation" else noted) := by
      split
      · exact Report.adds_markPassed _ _
      · exact Report.adds_nil _
    have hadds := (hnoted.trans hmarked).trans
      (Report.adds_setDetails _ [("normalized", .bool !notes.isEmpty)])
    obtain ⟨rfl, hstaged⟩ := auditDocument_eq_ok h (by rw [hadds.errors]; rfl)
      hadds.infeasible hadds.failOnWarnings
    exact .inr ⟨checked, notes, houtcome, hstaged⟩

/-- An audit of a broken structure reports its errors, and what else it reports are warnings. -/
theorem auditResult_of_broken {auditor : Auditor} {raw : Json} {notes errors : List Entry}
    (h : structureOf auditor.resultCheck raw = .ok (.broken notes errors)) (league : Json) :
    ∃ audit, auditor.auditResult league raw = .ok audit ∧ audit.index = none ∧
      audit.reconciliation = none ∧ (auditor.report "Result").Adds errors audit.report ∧
      audit.report.details = [] := by
  have hadds := auditor.adds_schemaNote
  have hnone : (if auditor.lacksResultSchema then (auditor.report "Result").addWarning
      schemaMissing else auditor.report "Result").details = [] := by
    split <;> rfl
  unfold auditResult
  rw [h]
  dsimp only
  generalize (if auditor.lacksResultSchema then
      (auditor.report "Result").addWarning schemaMissing else auditor.report "Result") = start
    at hadds hnone
  refine ⟨_, rfl, rfl, rfl, ?_, ?_⟩
  · exact (hadds.trans (start.adds_addWarnings notes)).trans (Report.adds_addErrors _ errors)
  · rw [Report.details_addErrors]
    exact hnone

/-- The report of an audit ends with the details of its reconciliation. -/
theorem report_eq_setDetails {auditor : Auditor} {league raw : Json} {audit : ResultAudit}
    {r : Reconciliation} (h : auditor.auditResult league raw = .ok audit)
    (hr : audit.reconciliation = some r) :
    ∃ before index, audit.report = Report.setDetails before (details index r) := by
  unfold auditResult at h
  obtain ⟨outcome, -, h⟩ := bind_eq_ok.mp h
  cases outcome with
  | broken notes errors =>
    cases Except.ok.inj h
    cases hr
  | sound checked notes document =>
    obtain ⟨index, -, h⟩ := bind_eq_ok.mp h
    obtain ⟨r', -, h⟩ := bind_eq_ok.mp h
    cases Except.ok.inj h
    cases hr
    exact ⟨_, index, rfl⟩

end Auditor
end LeagueAudit
