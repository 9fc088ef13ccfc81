import LeagueAudit.Audit.Basic
import LeagueAudit.Canonical

/-!
The audit of one result against its instance: the structure, whether the solver calls the result
feasible, one assignment for each fixture, the constraints, and the ledger of scores. A broken
structure ends the audit; whatever else is wrong is reported.
-/
namespace LeagueAudit

/-- The audit of a result. -/
structure ResultAudit where
  report : Report
  /-- The document that was audited, in the canonical layout if need be. -/
  document : Json
  /-- None when the structure is broken. -/
  index : Option Index := none
  reconciliation : Option Reconciliation := none

namespace ResultAudit

/-- The result with a corrected ledger. -/
def fixed (audit : ResultAudit) : Option Json := audit.reconciliation.bind (·.fixed)

/-- The rules that failed, as they are told. -/
def ruleAlarms (evaluations : List Evaluation) : List String :=
  evaluations.filterMap fun ev => ev.trouble.map Trouble.text

/-- What is told at once: a broken structure, and the rules that failed. -/
def alarms (audit : ResultAudit) : List String :=
  match audit.reconciliation with
  | none => [s!"Result failed structural validation: {audit.report.errors.length} error(s)"]
  | some r => ruleAlarms r.evaluations

/-- The names under which the schema of results may be known. -/
def schemaNames : List String :=
  ["osss-results.schema.json", "osss-result.schema.json", "results.schema.json",
    "result.schema.json", "https://opensportsscheduling.org/schemas/osss-results.schema.json"]

def schemaMissing : Entry :=
  { check := "SchemaUnavailable"
    message := "No OSSS result schema found; structural validation skipped"
    action := some "Point --schemas at a directory containing osss-results.schema.json." }

def schemaError (message : String) (action : Option String := none) : Entry :=
  { check := "SchemaViolation", message, action }

def fixStructure : String := "Fix the result to match osss-results.schema.json."

/-- What the structural stage settles: the errors of a broken structure, or the document to audit
and the notes about its layout. -/
inductive Structure where
  | broken (notes errors : List Entry)
  | sound (checked : Bool) (notes : List Entry) (document : Json)

/-- The structure of a result under a check of documents; without one, the layout alone counts. A
document that fails is given one more chance in the canonical layout. -/
def structureOf (check : Option (Json → Except Fault (List String))) (raw : Json) :
    Except Fault Structure := do
  let errors ←
    match check with
    | none => .ok []
    | some check => check raw
  if check.isSome && errors.isEmpty && raw.isObject then
    .ok (.sound true [] raw)
  else
    match Canonical.read raw with
    | .error t =>
      .ok (.broken [] ((if errors.isEmpty then [t.message] else errors).map (schemaError ·)))
    | .ok canonical =>
      let notes := canonical.warnings.map fun message =>
        ({ check := "NormalizationApplied", message } : Entry)
      match check with
      | none => .ok (.sound false notes canonical.toJson)
      | some check =>
        if (← check canonical.toJson).isEmpty then .ok (.sound true notes canonical.toJson)
        else .ok (.broken notes (errors.map (schemaError · (some fixStructure))))

/-- The solver calls the result feasible. -/
def isFeasible (document : Json) : Bool :=
  match document.field "feasible" with
  | .bool b => b
  | _ => false

def infeasibleWarning : Entry :=
  { check := "Infeasible"
    message := "Result feasible=false (solver reports infeasible)."
    action := some "Inspect the solver log; the schedule is not a feasible solution." }

/-- Notes whether the solver calls the result feasible. -/
def noteFeasible (document : Json) (report : Report) : Report :=
  let feasible := isFeasible document
  let report := report.setDetails [("feasible", .bool feasible)]
  if feasible then report else { report with infeasible := true }.addWarning infeasibleWarning

/-- A fixture that must be scheduled and is not assigned exactly once. -/
def cardinalityErrors (index : Index) : List Entry :=
  index.fixtures.filterMap fun (id, doc) =>
    let count := index.countOf id
    if (doc.field "conditional").truthy || count = 1 then none
    else
      some
        { check := "CardinalityViolation"
          message := s!"Fixture '{id}' must be assigned exactly once, found {count}"
          entities := .obj [("fixtureId", .str id)] }

/-- The check that a diagnostic of the index belongs to. -/
def issueCheck : IssueKind → String
  | .unknownFixture => "ReferentialIntegrity"
  | .invalidStart => "MalformedTimestamp"
  | .invalidEnd => "MalformedTimestamp"
  | .unknownTimezone => "UnknownTimezone"
  | .malformedAssignment => "MalformedEntry"
  | .malformedEntity => "MalformedEntry"

/-- An unknown fixture is an error, and so is an unreadable start that a hard rule about times
needed. -/
def isIssueError (timed : List String) (issue : Issue) : Bool :=
  issue.kind = .unknownFixture ||
    (issue.kind = .invalidStart && issue.fixture.any timed.contains)

def issueEntry (issue : Issue) : Entry :=
  { check := issueCheck issue.kind
    message := issue.message
    entities :=
      match issue.fixture.filter (!·.isEmpty) with
      | some id => .obj [("fixtureId", .str id)]
      | none => .null }

/-- Assignments to venues that nobody declares; without any venue there is nothing to compare. -/
def venueWarnings (index : Index) : List Entry :=
  if index.venues.isEmpty then []
  else
    index.assignments.filterMap fun a =>
      match a.venue with
      | none => none
      | some venue =>
        if (index.venues.lookup venue).isSome then none
        else
          some
            { check := "ReferentialIntegrity"
              message :=
                s!"Assignment for fixture '{a.fixture}' references unknown venue '{venue}'"
              entities := .obj [("fixtureId", .str a.fixture), ("venueId", .str venue)] }

/-- The fixtures whose times were read by hard rules. -/
def timedFixtures (evaluations : List Evaluation) : List String :=
  (evaluations.filter fun ev => ev.checked && !ev.constraint.soft).flatMap fun ev =>
    ev.timed.getD []

/-- Reports the diagnostics of the index. -/
def noteIssues (index : Index) (timed : List String) (report : Report) : Report :=
  let report := index.issues.foldl (fun (report : Report) issue =>
    if isIssueError timed issue then report.addError (issueEntry issue)
    else report.addWarning (issueEntry issue)) report
  report.addWarnings (venueWarnings index)

/-- An evaluation in one row. -/
def constraintRow (ev : Evaluation) : Json :=
  .obj [("constraintId", .str ev.constraint.label),
    ("ruleId", (ev.constraint.ruleId.map Json.str).getD .null),
    ("type", .str ev.constraint.severity), ("status", .str ev.status.name),
    ("violations", .int ev.count), ("penalty", .float ev.penalty), ("durationMs", .null)]

/-- The details that the reconciliation leads to. -/
def details (index : Index) (r : Reconciliation) : List (String × Json) :=
  [("totalPenalty", .float r.totalPenalty),
    ("reportedTotalPenalty", (r.reportedTotal.map Json.float).getD .null),
    ("hardViolations", .arr r.hardViolations), ("byConstraint", .arr r.byConstraint),
    ("unassignedFixtures", .arr (index.unassigned.map Json.str)),
    ("constraints", .arr (r.evaluations.map constraintRow))]

end ResultAudit

namespace Auditor

/-- How the schemas check a result, when they hold a schema of results. -/
def resultCheck (auditor : Auditor) : Option (Json → Except Fault (List String)) :=
  auditor.schemas.bind fun schemas =>
    (schemas.resolve ResultAudit.schemaNames).map fun name document =>
      schemas.validate document name

/-- There are schemas, but none of results. -/
def lacksResultSchema (auditor : Auditor) : Bool :=
  auditor.schemas.isSome && auditor.resultCheck.isNone

/-- The stages after the structural one. -/
def auditDocument (auditor : Auditor) (league document : Json) (report : Report) :
    Except Fault ResultAudit := do
  let report := ResultAudit.noteFeasible document report
  let index ← auditor.index league document
  let report := (report.addErrors (ResultAudit.cardinalityErrors index)).markPassed
    "CardinalityViolation"
  let r ← auditor.scorekeeper.reconcile auditor.engine league document index
  let report := report.extend r.errors r.warnings
  let report := ResultAudit.noteIssues index (ResultAudit.timedFixtures r.evaluations) report
  let report := report.setDetails (ResultAudit.details index r)
  .ok { report, document, index := some index, reconciliation := some r }

/-- What an audit tells before the fault that ends it: the rules that failed until then. -/
def alarmsBefore (auditor : Auditor) (league raw : Json) : List String :=
  match ResultAudit.structureOf auditor.resultCheck raw with
  | .ok (.sound _ _ document) =>
    match auditor.index league document with
    | .ok index =>
      ResultAudit.ruleAlarms
        (auditor.engine.evaluatedBefore index (league.field "constraints").items)
    | .error _ => []
  | _ => []

/-- Audits a result. -/
def auditResult (auditor : Auditor) (league raw : Json) : Except Fault ResultAudit := do
  let report := auditor.report "Result"
  let report :=
    if auditor.lacksResultSchema then report.addWarning ResultAudit.schemaMissing else report
  match ← ResultAudit.structureOf auditor.resultCheck raw with
  | .broken notes errors =>
    .ok
      { report := (report.addWarnings notes).addErrors errors
        document := if raw.isObject then raw else .obj [] }
  | .sound checked notes document =>
    let report := report.addWarnings notes
    let report := if checked then report.markPassed "SchemaViolation" else report
    auditor.auditDocument league document
      (report.setDetails [("normalized", .bool !notes.isEmpty)])

end Auditor
end LeagueAudit
