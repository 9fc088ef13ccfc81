import LeagueAudit.Files.Basic
import LeagueAudit.Json.Reader
import LeagueAudit.Registry.Basic

/-!
Loading a registry from a folder: one file lists the rules, and another one may list the objectives.
Each is a list, or an object that holds the list.
-/
namespace LeagueAudit.Registry

/-- A trouble with the files of a registry. -/
def fileTrouble (message : String) (action : Option String := none) : Fault :=
  .trouble ⟨.registry, message, "load_registry", action⟩

/-- Reads a JSON file. -/
def readFile (files : Files) (path : Path) : Except Fault Json :=
  match files.read path with
  | .error (.unreadable f) => .error (.unreadableBytes f)
  | .error f =>
    .error (fileTrouble s!"Registry file could not be read: {path.text} ({f.message path})")
  | .ok cs =>
    match Json.read cs with
    | .ok j => .ok j
    | .error f =>
      let place := s!"{f.problem.message} at line {f.line}"
      .error (f.problem.limit?.getD
        (fileTrouble s!"Registry file is not valid JSON: {path.text} ({place})"))

/-- The list that a file holds. -/
def listOf (doc : Json) (key : String) (path : Path) : Except Fault (List Json) :=
  let items :=
    match doc with
    | .obj _ => (doc.find? key).getD (.arr [])
    | j => j
  match items with
  | .arr items => .ok items
  | _ =>
    let shape := "\x7b" ++ key ++ ": []\x7d"
    .error (fileTrouble s!"Registry must be an array or {shape}: {path.text}")

/-- Reads the list of a file. -/
def readList (files : Files) (key : String) (path : Path) : Except Fault (List Json) := do
  listOf (← readFile files path) key path

/-- The file that lists the rules. -/
def rulesPath (folder : Path) : Path := folder.child "constraints.json"

def objectivesPath (folder : Path) : Path := folder.child "objectives.json"

/-- Loads the registry of a folder. -/
def load (files : Files) (folder : Path) : Except Fault Registry := do
  let path := rulesPath folder
  if !(← files.isFile path) then
    .error (fileTrouble s!"Registry file not found: {path.text}"
      (some "Point --registry at a directory containing constraints.json."))
  else
    let constraints ← readList files "constraints" path
    let objectives ←
      if ← files.isFile (objectivesPath folder) then
        readList files "objectives" (objectivesPath folder)
      else .ok []
    .ok (ofLists constraints objectives)

end LeagueAudit.Registry
