import LeagueAudit.Audit.Bundle
import LeagueAudit.Audit.Ranking
import LeagueAudit.CommandLine.Request
import LeagueAudit.Config.Load
import LeagueAudit.Metrics
import LeagueAudit.Registry.Load
import LeagueAudit.Report.Text
import LeagueAudit.Schema.Load

/-!
Carrying out requests on known files. What was written and told before a fault stays.
-/
namespace LeagueAudit.CommandLine

/-- What has happened so far. -/
structure Progress where
  files : Files
  /-- What was told at once. -/
  alarms : List String := []

/-- Work that changes files, tells alarms, and may end with a fault. -/
abbrev Session := ExceptT Fault (StateM Progress)

/-- Tells alarms. -/
def tell (alarms : List String) : Session Unit :=
  modify fun (p : Progress) => { p with alarms := p.alarms ++ alarms }

/-- Work that changes nothing. -/
def lift {α : Type} (x : Except Fault α) : Session α := ExceptT.mk (pure x)

def liftTrouble {α : Type} (x : Except Trouble α) : Session α := lift (x.mapError .trouble)

def knownFiles : Session Files := do return (← get).files

/-- Why a file cannot be written. -/
def writeFault (path : Path) (f : FileFault) : Fault :=
  .trouble ⟨.data, s!"atomic write failed for {path.text}: {f.message path}",
    "report.atomic_write_text", some "Check output directory permissions and disk space."⟩

/-- Writes a file. -/
def write (path : Path) (text : String) : Session Unit := do
  if text.toList.any Text.isStandIn then throw .unwritableText
  match (← knownFiles).write path text with
  | .ok files => modify fun p => { p with files }
  | .error f => throw (writeFault path f)

/-- The settings that the command line gives itself. -/
def given (request : Request) : List (String × Json) :=
  let text (name : String) (value : Option Value) : List (String × Json) :=
    (value.map fun v => [(name, v.toJson)]).getD []
  let flag (name : String) (on : Bool) : List (String × Json) :=
    if on then [(name, .bool true)] else []
  let flags :=
    match request.command with
    | .result _ _ fix strict _ => flag "fix_scores" fix ++ flag "strict_missing_rules" strict
    | _ => []
  text "schemas_dir" request.schemas ++ text "registry_dir" request.registry ++
    text "output_dir" request.outputDir ++ flags

/-- The settings of a request. -/
def configOf (files : Files) (request : Request) : Except Fault Config :=
  match request.config with
  | some path => Config.load files path (given request)
  | none => Config.ofJson (.obj (given request))

/-- A folder of the settings. -/
def folderOf (setting : Option String) : Option Path := (notEmpty setting).map .ofText

/-- What the audits of a request are made with. -/
def auditorOf (files : Files) (now : String) (config : Config) : Except Fault Auditor := do
  let registry ←
    match folderOf config.registryDir with
    | some folder => do .ok (some (← Registry.load files folder))
    | none => .ok none
  let schemas ←
    match folderOf config.schemasDir with
    | some folder => do .ok (some (← SchemaCatalog.load files folder).toCheck)
    | none => .ok none
  .ok { config, registry, schemas, now }

/-- The files that a command reads or writes by name. -/
def namedFiles : Command → List Path
  | .league league => [league]
  | .result league result _ _ out => league :: result.toList ++ out.toList
  | .compare league results => league :: results
  | .bundle _ _ => []

/-- The folders that a command reads. -/
def namedFolders : Command → List Path
  | .bundle folder _ => [folder]
  | _ => []

/-- The files that a request reads or writes by name. -/
def filesOf (config : Config) (request : Request) : List Path :=
  let registry := (folderOf config.registryDir).toList.flatMap fun folder =>
    [Registry.rulesPath folder, Registry.objectivesPath folder]
  request.config.toList ++ registry ++ (folderOf config.outputDir).toList ++
    namedFiles request.command

/-- The folders whose whole contents a request reads. -/
def foldersOf (config : Config) (request : Request) : List Path :=
  (folderOf config.schemasDir).toList ++ namedFolders request.command

/-- The report and the metrics of a request. -/
abbrev Finding := Report × Option Metrics

/-- A result has to be named. -/
def missingResult : Fault :=
  .wrongType "expected str, bytes or os.PathLike object, not list"

/-- Writes the fixed result, and notes where. -/
def writeFixed (audit : ResultAudit) (target : Path) : Session Report := do
  match audit.fixed with
  | none => return audit.report
  | some document =>
    write target (document.documentText ++ "\n")
    return audit.report.setDetails [("fixedResultPath", .str target.text)]

/-- The value of an audit, or its fault after the alarms that it told. -/
def audited {α : Type} (audit : Except Fault α) (alarms : α → List String)
    (before : Unit → List String) : Session α := do
  match audit with
  | .ok a =>
    tell (alarms a)
    return a
  | .error f =>
    tell (before ())
    throw f

def runResult (auditor : Auditor) (league : Path) (result : Option Path) (out : Option Path) :
    Session Finding := do
  let result ← lift (result.elim (.error missingResult) .ok)
  let files ← knownFiles
  let league ← lift (Documents.load files "instance" league)
  let raw ← lift (Documents.load files "result" result)
  let audit ← audited (auditor.auditResult league raw) ResultAudit.alarms
    fun _ => auditor.alarmsBefore league raw
  let report ← writeFixed audit (out.getD result)
  if auditor.config.writeMetrics then
    return (report, some (← lift (Metrics.collect report audit.index)))
  else return (report, none)

def runCompare (auditor : Auditor) (league : Path) (results : List Path) : Session Finding := do
  let files ← knownFiles
  let league ← lift (Documents.load files "instance" league)
  let results ← lift (Documents.loadMany files "result" results)
  let audits := auditor.auditResults league results
  let _ ← (audits.zip results).mapM fun ((_, audit), _, raw) =>
    audited audit ResultAudit.alarms fun _ => auditor.alarmsBefore league raw
  return ((← lift (auditor.compareAudits audits)).report, none)

def runBundle (auditor : Auditor) (folder : Path) (requireResults : Bool) : Session Finding := do
  let files ← knownFiles
  if !(← lift (files.isFolder folder)) then throw (.trouble (Bundle.folderMissing folder))
  let audits := auditor.auditExamples files requireResults folder
  let _ ← (audits.zip (Auditor.exampleFolders files folder)).mapM fun (audit, item) =>
    audited audit ExampleAudit.alarms fun _ => auditor.exampleAlarmsBefore files item
  return ((← lift (auditor.bundleOf folder audits)).report, none)

def runLeague (auditor : Auditor) (league : Path) : Session Finding := do
  let league ← lift (Documents.load (← knownFiles) "instance" league)
  return (← lift (auditor.auditInstance league), none)

/-- Carries out a command. -/
def runCommand (auditor : Auditor) : Command → Session Finding
  | .league league => runLeague auditor league
  | .result league result _ _ out => runResult auditor league result out
  | .compare league results => runCompare auditor league results
  | .bundle folder requireResults => runBundle auditor folder requireResults

/-- Writes the report and the metrics as the settings ask. -/
def writeFindings (now : String) (config : Config) (finding : Finding) : Session Unit := do
  match folderOf config.outputDir with
  | none => return
  | some folder =>
    let (report, metrics) := finding
    if config.writeReport then
      write (folder.child "validation_report.json") ((report.toJson now).documentText ++ "\n")
    match metrics with
    | none => return
    | some metrics =>
      write (folder.child Metrics.fileName)
        (← liftTrouble (Metrics.documentText (metrics.toJson now)))

/-- Carries out a request. -/
def runRequest (now : String) (request : Request) : Session Report := do
  let files ← knownFiles
  let config ← lift (configOf files request)
  let auditor ← lift (auditorOf files now config)
  let finding ← runCommand auditor request.command
  writeFindings now config finding
  return finding.1

/-- What a request leads to. -/
structure Outcome where
  exit : Nat
  output : String
  alarms : List String
  files : Files

/-- What is told about a fault. -/
def faultAlarm : Fault → String
  | .trouble t => t.text
  | _ => "Unexpected error occurred:"

/-- The report as it is printed. -/
def shown (now : String) (asJson : Bool) (report : Report) : Except Fault String :=
  if asJson then .ok (report.toJson now).documentText
  else Report.renderText (.obj report.fields)

/-- Carries out a request on files: the exit code is that of the report, or one after a fault. -/
def run (files : Files) (now : String) (request : Request) : Outcome :=
  let session : Session (Nat × String) := do
    let report ← runRequest now request
    return (report.exitCode, (← lift (shown now request.asJson report)) ++ "\n")
  match session.run.run { files } with
  | (.ok (exit, output), p) => ⟨exit, output, p.alarms, p.files⟩
  | (.error f, p) => ⟨1, "", p.alarms ++ [faultAlarm f], p.files⟩

end LeagueAudit.CommandLine
