import LeagueAudit.CommandLine.Options
import LeagueAudit.Files.Path

/-!
What a command line asks for: to audit an instance, a result or a folder of examples, or to compare
results. The options before the command belong to all of them.
-/
namespace LeagueAudit.CommandLine

/-- The four commands. -/
inductive Command where
  | league (league : Path)
  /-- A fixed result goes to `out`, else to its own place. The result may be left out. -/
  | result (league : Path) (result : Option Path) (fix strict : Bool) (out : Option Path)
  | compare (league : Path) (results : List Path)
  | bundle (folder : Path) (requireResults : Bool)
  deriving DecidableEq, Repr

/-- What a command line asks for. -/
structure Request where
  config : Option Path := none
  schemas : Option Value := none
  registry : Option Value := none
  outputDir : Option Value := none
  /-- The report is printed as a document, else as text. -/
  asJson : Bool := false
  command : Command
  deriving DecidableEq, Repr

/-- The options of all commands. -/
def commonForms : List OptionForm :=
  [⟨"--config", true, []⟩, ⟨"--schemas", true, []⟩, ⟨"--registry", true, []⟩,
    ⟨"--format", true, ["text", "json"]⟩, ⟨"--output-dir", true, []⟩, ⟨"--verbose", false, []⟩]

def resultForms : List OptionForm :=
  [⟨"--fix-scores", false, []⟩, ⟨"--out", true, []⟩, ⟨"--strict", false, []⟩]

def bundleForms : List OptionForm := [⟨"--require-results", false, []⟩]

/-- A value that is not empty. -/
def notEmpty (value : Option String) : Option String := value.filter (!·.isEmpty)

/-- Reads the words behind the name of a command; unknown options are a misuse. -/
def commandOf (name : String) (words : List String) : Except Refusal Command :=
  match name with
  | "instance" => do
    let found ← scan [] false words
    match found.plain, found.unknown with
    | [league], false => .ok (.league (.ofText league))
    | _, _ => .error .misuse
  | "result" => do
    let found ← scan resultForms false words
    match found.plain, found.unknown with
    | [league, result], false =>
      .ok (.result (.ofText league) ((found.place 1 result).text?.map .ofText)
        (found.has "--fix-scores") (found.has "--strict")
        ((notEmpty (found.text? "--out")).map .ofText))
    | _, _ => .error .misuse
  | "compare" => do
    let found ← scan [] false words
    match found.plain, found.unknown with
    | league :: _ :: _, false => .ok (.compare (.ofText league) ((found.places 1).map .ofText))
    | _, _ => .error .misuse
  | "bundle" => do
    let found ← scan bundleForms false words
    match found.plain, found.unknown with
    | [folder], false => .ok (.bundle (.ofText folder) (found.has "--require-results"))
    | _, _ => .error .misuse
  | _ => .error .misuse

/-- Reads a command line. -/
def Request.ofWords (words : List String) : Except Refusal Request := do
  let found ← scan commonForms true words
  match found.plain with
  | [] => .error .misuse
  | name :: rest =>
    let command ← commandOf name rest
    if found.unknown then .error .misuse
    else
      .ok
        { config := (notEmpty (found.text? "--config")).map .ofText
          schemas := found.value? "--schemas"
          registry := found.value? "--registry"
          outputDir := found.value? "--output-dir"
          asJson := found.text? "--format" == some "json"
          command }

end LeagueAudit.CommandLine
