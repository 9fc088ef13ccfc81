import LeagueAudit.Config
import LeagueAudit.Files.Basic
import LeagueAudit.Text.Case
import LeagueAudit.Yaml.Reader

/-!
Loading settings from a YAML file. Given values may replace those of the file.
-/
namespace LeagueAudit.Config

/-- Why a file holds no settings. -/
inductive LoadFault where
  | missing
  | extension (suffix : String)
  | broken (line : Nat) (reason : String)
  | unreadable (fault : FileFault)
  | empty
  | notMapping

namespace LoadFault

def message (path : Path) : LoadFault → String
  | missing => s!"Configuration file not found: {path.text}"
  | extension suffix => s!"Invalid configuration file extension: {suffix}"
  | broken line reason => s!"YAML parsing failed: {reason} (line {line})"
  | unreadable f => s!"Unable to read configuration file: {f.message path}"
  | empty => "Configuration file is empty."
  | notMapping => "Configuration root must be a mapping (key: value pairs)."

def action : LoadFault → String
  | missing => "Ensure config.yaml exists and the path is correct."
  | extension _ => "Use .yaml or .yml extension for configuration files."
  | broken _ _ => "Fix YAML syntax or indentation."
  | unreadable _ => "Check file permissions and path accessibility."
  | empty => "Populate config.yaml or omit --config to use defaults."
  | notMapping => "Ensure top-level YAML structure uses key: value mappings."

def trouble (path : Path) (f : LoadFault) : Trouble :=
  ⟨.config, f.message path, "ConfigLoader._read_yaml", some f.action⟩

def fault (path : Path) (f : LoadFault) : Fault := .trouble (f.trouble path)

end LoadFault

/-- The members at the root of a text. -/
def rootOf (path : Path) (text : String) : Except Fault (List (Yaml × Part)) :=
  match Yaml.read text with
  | .error (.broken line reason) => .error (LoadFault.fault path (.broken line reason))
  | .error (.meaningless f) => .error f
  | .ok .nothing => .error (LoadFault.fault path .empty)
  | .ok (.mapping members) => .ok members
  | .ok .other => .error (LoadFault.fault path .notMapping)

/-- The endings of the names of YAML files. -/
def suffixes : List String := [".yaml", ".yml"]

/-- Reads the members of a file. -/
def readFile (files : Files) (path : Path) : Except Fault (List (Yaml × Part)) := do
  if !(← files.exists? path) then .error (LoadFault.fault path .missing)
  else if !(suffixes.contains (Text.lower path.suffix)) then
    .error (LoadFault.fault path (.extension path.suffix))
  else
    match files.read path with
    | .error (.unreadable f) => .error (.unreadableBytes f)
    | .error f => .error (LoadFault.fault path (.unreadable f))
    | .ok cs => rootOf path (String.ofList cs)

/-- Loads settings from a file; given values that are not null count before those of the file. -/
def load (files : Files) (path : Path) (given : List (String × Json)) : Except Fault Config := do
  let members ← readFile files path
  let given := (given.filter fun (_, v) => !v.isNull).map fun (k, v) => (k, Part.ofYaml (.ofJson v))
  let all := given.foldl (fun acc (k, v) => Yaml.setMember (.str k) v acc) members
  ofPairs all

end LeagueAudit.Config
