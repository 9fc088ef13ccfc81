import LeagueAudit.Files.Basic
import LeagueAudit.Json.Reader
import LeagueAudit.Text.Case

/-!
Loading documents: a document is a JSON file whose root is an object. Several documents are known by
their file names, and by their whole paths where names repeat.
-/
namespace LeagueAudit

namespace Documents

/-- Why a document cannot be loaded. -/
inductive LoadFault where
  | missing
  | extension (suffix : String)
  | syntaxFault (fault : Json.SyntaxFault)
  | unreadable (fault : FileFault)
  | notObject (typeName : String)

namespace LoadFault

def message (kind : String) (path : Path) : LoadFault → String
  | missing => s!"{Text.capitalize kind} file not found: {path.text}"
  | extension suffix =>
    let shown := if suffix.isEmpty then "(none)" else suffix
    s!"Invalid {kind} file extension: {shown}"
  | syntaxFault f =>
    s!"Invalid JSON in {path.text}: {f.problem.message} (line {f.line}, column {f.column})"
  | unreadable f => s!"Unable to read {kind} file {path.text}: {f.message path}"
  | notObject typeName =>
    s!"{Text.capitalize kind} root must be a JSON object, got {typeName}: {path.text}"

def action (kind : String) : LoadFault → String
  | missing => "Verify the file path."
  | extension _ => "OSSS documents are JSON files with a .json extension."
  | syntaxFault _ => "Fix the JSON syntax."
  | unreadable _ => "Check file permissions and encoding (UTF-8)."
  | notObject _ => s!"Wrap the {kind} in a single top-level JSON object."

def source : LoadFault → String
  | notObject _ => "DocumentLoader.load"
  | _ => "DocumentLoader._read_json"

def trouble (kind : String) (path : Path) (f : LoadFault) : Trouble :=
  ⟨.data, f.message kind path, f.source, some (f.action kind)⟩

/-- The fault that a document which cannot be loaded leads to. -/
def fault (kind : String) (path : Path) : LoadFault → Fault
  | syntaxFault f => f.problem.limit?.getD (.trouble (trouble kind path (.syntaxFault f)))
  | f => .trouble (trouble kind path f)

end LoadFault

/-- Reads the document in a file that is there. -/
def read (files : Files) (path : Path) : Except LoadFault Json :=
  if Text.lower path.suffix != ".json" then .error (.extension path.suffix)
  else
    match files.read path with
    | .error f => .error (.unreadable f)
    | .ok cs =>
      match Json.read cs with
      | .error f => .error (.syntaxFault f)
      | .ok (.obj members) => .ok (.obj members)
      | .ok j => .error (.notObject j.typeName)

/-- Loads a document of a kind. -/
def load (files : Files) (kind : String) (path : Path) : Except Fault Json := do
  let found := if ← files.exists? path then read files path else .error .missing
  found.mapError (LoadFault.fault kind path)

/-- The label of one more document: its file name, or its whole path when the name is taken. -/
def labelFor (documents : List (String × Json)) (path : Path) : String :=
  if (documents.lookup path.name).isSome then path.text else path.name

/-- Loads documents in turn, after those that are loaded already. -/
def loadAll (files : Files) (kind : String) (documents : List (String × Json)) (path : Path) :
    Except Fault (List (String × Json)) := do
  .ok (Json.setMember (labelFor documents path) (← load files kind path) documents)

/-- Loads several documents by label. -/
def loadMany (files : Files) (kind : String) (paths : List Path) :
    Except Fault (List (String × Json)) :=
  paths.foldlM (loadAll files kind) []

end Documents
end LeagueAudit
