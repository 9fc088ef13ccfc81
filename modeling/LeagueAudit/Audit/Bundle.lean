import LeagueAudit.Audit.Instance
import LeagueAudit.Audit.Result
import LeagueAudit.Documents

/-!
The audit of a folder of examples. Each folder in it holds an instance and maybe a result; the
findings of all examples go into one report, each tagged with its example, so the exit code of the
bundle is the highest of any example.
-/
namespace LeagueAudit

/-- The audit of one example. -/
structure ExampleAudit where
  name : String
  league : Report
  /-- None when there is no result to audit. -/
  result : Option Report := none
  /-- What is told at once. -/
  alarms : List String := []

namespace ExampleAudit

/-- The reports of an example. -/
def reports (item : ExampleAudit) : List Report := item.league :: item.result.toList

/-- The higher exit code of instance and result. -/
def exitCode (item : ExampleAudit) : Nat :=
  max item.league.exitCode ((item.result.map Report.exitCode).getD 0)

/-- An example in one row. -/
def row (item : ExampleAudit) : Json :=
  let code (r : Report) : Json := .int r.exitCode
  .obj [("example", .str item.name), ("exitCode", .int item.exitCode),
    ("instance", code item.league), ("result", (item.result.map code).getD .null)]

/-- The files of an example. -/
def leaguePath (folder : Path) : Path := folder.child "osss-instance.json"

def resultPath (folder : Path) : Path := folder.child "osss-results.json"

/-- The report about a file that is not there. -/
def missingFile (subject : String) (path : Path) : Report :=
  ({ subject } : Report).addError
    { check := "MissingFile"
      message := s!"Missing file: {path.text}"
      entities := .obj [("path", .str path.text)] }

/-- The report about a file that cannot be loaded. -/
def unreadable (subject : String) (t : Trouble) : Report :=
  ({ subject } : Report).addError
    { check := "UnreadableDocument", message := t.message, action := t.action }

end ExampleAudit

/-- The audit of a folder of examples. -/
structure Bundle where
  report : Report
  examples : List ExampleAudit

namespace Bundle

/-- An entry with the name of its example; an entity of the entry keeps its own name. -/
def taggedEntry (name : String) (e : Entry) : Entry :=
  { e with entities := .obj (Json.setMembers [("example", .str name)] e.entities.members) }

/-- An entry of an example, marked with its name. -/
def tagged (name : String) : Finding → Finding
  | .entry e => taggedEntry name e
  | .given value => .given value

/-- A hard violation with the name of its example. -/
def taggedViolation (name : String) (v : Json) : Json :=
  .obj (Json.setMembers [("example", .str name)] v.members)

/-- Folds a report of an example into the report of the bundle. -/
def merge (name : String) (bundle part : Report) : Report :=
  let errors := part.errors.map (tagged name)
  let bundle := ({ bundle with
    errors := bundle.errors ++ errors
    warnings := bundle.warnings ++ part.warnings.map (tagged name) }.settle errors).1
  let bundle := { bundle with infeasible := bundle.infeasible || part.infeasible }
  let hard := part.hardViolations.map (taggedViolation name)
  if hard.isEmpty then bundle
  else bundle.setDetails [("hardViolations", .arr (bundle.hardViolations ++ hard))]

/-- Folds the reports of an example into the report of the bundle. -/
def mergeExample (bundle : Report) (item : ExampleAudit) : Report :=
  item.reports.foldl (merge item.name) bundle

def emptyBundle (folder : Path) : Entry :=
  { check := "EmptyBundle", message := s!"No example folders under {folder.text}" }

/-- The bundle of audited examples. -/
def ofExamples (report : Report) (folder : Path) (examples : List ExampleAudit) : Bundle :=
  let report := examples.foldl mergeExample report
  let report := report.setDetails [("bundle", .arr (examples.map ExampleAudit.row))]
  ⟨if examples.isEmpty then report.addWarning (emptyBundle folder) else report, examples⟩

def folderMissing (folder : Path) : Trouble :=
  ⟨.data, s!"Examples directory not found: {folder.text}", "validate_bundle",
    some "Pass a directory whose sub-folders hold osss-instance.json files."⟩

end Bundle

namespace Auditor

open ExampleAudit

/-- Audits the result of an example whose instance is loaded. -/
def auditExampleResult (auditor : Auditor) (files : Files) (requireResults : Bool) (folder : Path)
    (league : Json) : Except Fault (Option Report × List String) := do
  let path := resultPath folder
  if ← files.isFile path then
    match Documents.load files "result" path with
    | .error (.trouble t) => .ok (some (unreadable "Result" t), [])
    | .error f => .error f
    | .ok raw => do
      let audit ← auditor.auditResult league raw
      .ok (some audit.report, audit.alarms)
  else .ok (if requireResults then some (missingFile "Result" path) else none, [])

/-- Audits one example. -/
def auditExample (auditor : Auditor) (files : Files) (requireResults : Bool) (folder : Path) :
    Except Fault ExampleAudit := do
  let path := leaguePath folder
  let name := folder.name
  if !(← files.isFile path) then .ok { name, league := missingFile "Instance" path }
  else
    match Documents.load files "instance" path with
    | .error (.trouble t) => .ok { name, league := unreadable "Instance" t }
    | .error f => .error f
    | .ok doc => do
      let league ← auditor.auditInstance doc
      let (result, alarms) ← auditor.auditExampleResult files requireResults folder doc
      .ok { name, league, result, alarms }

/-- What the audit of an example tells before the fault that ends it. -/
def exampleAlarmsBefore (auditor : Auditor) (files : Files) (folder : Path) : List String :=
  match Documents.load files "instance" (leaguePath folder),
    Documents.load files "result" (resultPath folder) with
  | .ok league, .ok raw =>
    if (auditor.auditInstance league).isOk then auditor.withoutFixing.alarmsBefore league raw
    else []
  | _, _ => []

/-- The folders of the examples, in order of their names. -/
def exampleFolders (files : Files) (folder : Path) : List Path :=
  ((files.children folder).map folder.child).filter fun path =>
    (files.isFolder path).toOption.getD false

/-- Audits each example of a folder. -/
def auditExamples (auditor : Auditor) (files : Files) (requireResults : Bool) (folder : Path) :
    List (Except Fault ExampleAudit) :=
  (exampleFolders files folder).map (auditor.withoutFixing.auditExample files requireResults)

/-- The bundle of examples that were all audited. -/
def bundleOf (auditor : Auditor) (folder : Path) (audits : List (Except Fault ExampleAudit)) :
    Except Fault Bundle := do
  .ok (Bundle.ofExamples (auditor.report "Bundle") folder (← audits.mapM fun audit => audit))

/-- Audits a folder of examples. -/
def auditBundle (auditor : Auditor) (files : Files) (requireResults : Bool) (folder : Path) :
    Except Fault Bundle := do
  if !(← files.isFolder folder) then .error (.trouble (Bundle.folderMissing folder))
  else auditor.bundleOf folder (auditor.auditExamples files requireResults folder)

end Auditor
end LeagueAudit
