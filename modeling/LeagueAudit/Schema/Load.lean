import LeagueAudit.Files.Basic
import LeagueAudit.Json.Reader
import LeagueAudit.Schema.Catalog

/-!
Loading the schemas of a folder and of all folders in it. Files that are no JSON or no schemas are
passed over; of several files with one name the last one counts.
-/
namespace LeagueAudit.SchemaCatalog

/-- The members by which a schema is told from other documents. -/
def schemaMarks : List String :=
  ["$schema", "$id", "type", "properties", "allOf", "anyOf", "oneOf"]

def looksLikeSchema (doc : Json) : Bool := schemaMarks.any doc.has

/-- The schema in a file, when there is one. -/
def schemaIn (files : Files) (path : Path) : Except Fault (Option Json) :=
  match files.read path with
  | .error (.unreadable f) => .error (.unreadableBytes f)
  | .error _ => .ok none
  | .ok cs =>
    match Json.read cs with
    | .ok doc => .ok (if looksLikeSchema doc then some doc else none)
    | .error f => f.problem.limit?.elim (.ok none) .error

def folderMissing (folder : Path) : Trouble :=
  ⟨.data, s!"Schemas directory not found: {folder.text}", "SchemaCatalog.from_dir",
    some "Point --schemas at the OSSS schemas directory."⟩

/-- The paths of the files below a folder that may hold schemas. -/
def candidates (files : Files) (folder : Path) : List Path :=
  ((files.below folder).map fun steps => { folder with parts := folder.parts ++ steps }).filter
    fun path => path.name.endsWith ".json"

/-- Loads the schemas of a folder. -/
def load (files : Files) (folder : Path) : Except Fault SchemaCatalog := do
  if !(← files.isFolder folder) then .error (.trouble (folderMissing folder))
  else
    let found ← (candidates files folder).foldlM (fun found path => do
      match ← schemaIn files path with
      | some schema => .ok (Json.setMember path.name schema found)
      | none => .ok found) []
    ofSchemas found

end LeagueAudit.SchemaCatalog
