import LeagueAudit.Json.Listing
import LeagueAudit.Record.Lax
import LeagueAudit.Yaml.Basic

/-!
The settings of an audit. They are read from a mapping whose keys must all be known; every value
that does not fit is reported, in the order of the settings.
-/
namespace LeagueAudit

/-- The settings of an audit. -/
structure Config where
  /-- Minutes of a fixture that declares no duration. -/
  defaultMinutes : Int := 90
  /-- The zone of an instance that declares none. -/
  timezone : String := "UTC"
  strict : Bool := false
  tolerance : Float := 1e-6
  fixScores : Bool := false
  workers : Int := 1
  /-- Seconds to wait for a rule. -/
  timeout : Option Float := none
  validatedBy : String := "osss-validator"
  schemasDir : Option String := none
  registryDir : Option String := none
  outputDir : Option String := some "data/output"
  writeReport : Bool := true
  writeMetrics : Bool := false
  failOnWarnings : Bool := false

namespace Config

open Lax

/-- A value that breaks a rule. -/
def misfit (name : String) (rule : FieldRule) (value : Yaml) : Misfit :=
  ⟨[name], rule, value.inspect, value.typeName⟩

/-- Reads one field, or notes why it does not fit. -/
def field {α : Type} (members : List (String × Part)) (name : String) (default : α)
    (read : Yaml → Read α) : α × List Misfit :=
  match members.lookup name with
  | none => (default, [])
  | some part =>
    match read part.value with
    | .ok a => (a, [])
    | .error rule => (default, [misfit name rule part.value])

/-- A value that may be null. -/
def optional {α : Type} (read : Yaml → Read α) (value : Yaml) : Read (Option α) :=
  if value.isNull then .ok none else (read value).map some

/-- A text, or bytes that are one. -/
def text (value : Yaml) : Read String :=
  if value.isRaw then .error .rawText else readString value.outline

def truth (value : Yaml) : Read Bool := readBool value.outline

/-- A whole number from a least one on. -/
def intFrom (least : Int) (rule : FieldRule) (value : Yaml) : Read Int := do
  let n ← readInt value.outline
  if n < least then .error rule else .ok n

/-- A double from zero on. -/
def floatFromZero (value : Yaml) : Read Float := do
  let x ← readFloat value.outline
  if x ≥ 0.0 then .ok x else .error (.atLeast "0")

/-- A double above zero. -/
def floatAboveZero (value : Yaml) : Read Float := do
  let x ← readFloat value.outline
  if x > 0.0 then .ok x else .error (.greaterThan "0")

/-- Reads a group of settings, whose unknown keys are ignored. -/
def group {α : Type} (members : List (String × Part)) (name record : String) (default : α)
    (read : List (String × Part) → α × List Misfit) : α × List Misfit :=
  match members.lookup name with
  | none => (default, [])
  | some part =>
    if part.value.isMapping then
      let inner := (Part.named part.members).map fun (k, v) => (k, Part.ofYaml v)
      let (a, misfits) := read inner
      (a, misfits.map (Misfit.below name))
    else (default, [misfit name (.record record) part.value])

/-- Whether the report and the metrics are written. -/
def readOutputs (members : List (String × Part)) : (Bool × Bool) × List Misfit :=
  let (report, m1) := field members "write_report" true truth
  let (metrics, m2) := field members "write_metrics" false truth
  ((report, metrics), m1 ++ m2)

def fieldNames : List String :=
  ["default_duration_minutes", "timezone", "strict_missing_rules", "score_tolerance", "fix_scores",
    "workers", "rule_timeout_seconds", "validated_by", "schemas_dir", "registry_dir", "output_dir",
    "io_policy", "validation"]

/-- A misfit for every unknown key. -/
def unknownKeys (members : List (String × Part)) : List Misfit :=
  (members.filter fun (k, _) => !fieldNames.contains k).map fun (k, v) => misfit k .declared v.value

/-- Reads settings with their misfits. -/
def ofMembers (members : List (String × Part)) : Config × List Misfit :=
  let (defaultMinutes, m1) :=
    field members "default_duration_minutes" 90 (intFrom 1 (.greaterThan "0"))
  let (timezone, m2) := field members "timezone" "UTC" text
  let (strict, m3) := field members "strict_missing_rules" false truth
  let (tolerance, m4) := field members "score_tolerance" 1e-6 floatFromZero
  let (fixScores, m5) := field members "fix_scores" false truth
  let (workers, m6) := field members "workers" 1 (intFrom 1 (.atLeast "1"))
  let (timeout, m7) := field members "rule_timeout_seconds" none (optional floatAboveZero)
  let (validatedBy, m8) := field members "validated_by" "osss-validator" text
  let (schemasDir, m9) := field members "schemas_dir" none (optional text)
  let (registryDir, m10) := field members "registry_dir" none (optional text)
  let (outputDir, m11) := field members "output_dir" (some "data/output") (optional text)
  let ((writeReport, writeMetrics), m12) :=
    group members "io_policy" "IOPolicy" (true, false) readOutputs
  let (failOnWarnings, m13) :=
    group members "validation" "ValidationConfig" false fun inner =>
      field inner "fail_on_warnings" false truth
  ({ defaultMinutes, timezone, strict, tolerance, fixScores, workers, timeout, validatedBy
     schemasDir, registryDir, outputDir, writeReport, writeMetrics, failOnWarnings },
    m1 ++ m2 ++ m3 ++ m4 ++ m5 ++ m6 ++ m7 ++ m8 ++ m9 ++ m10 ++ m11 ++ m12 ++ m13 ++
      unknownKeys members)

def misfitTrouble (misfits : List Misfit) : Trouble :=
  let report := Misfit.report "Config" misfits
  ⟨.config, s!"Invalid configuration structure: {report}", "ConfigLoader._validate",
    some ("Check field names, types, and bounds in config.yaml. " ++
      "Remove unknown keys (extra fields are forbidden).")⟩

/-- Reads settings. -/
def read (members : List (String × Part)) : Except Fault Config :=
  match ofMembers members with
  | (config, []) => .ok config
  | (_, misfits) => .error (.trouble (misfitTrouble misfits))

/-- Reads settings whose names must be texts. -/
def ofPairs (pairs : List (Yaml × Part)) : Except Fault Config :=
  match Part.named? pairs with
  | some members => read members
  | none => .error (.wrongType "keywords must be strings")

/-- Reads settings from a document, which may be a list of pairs; a value that is not truthy stands
for the defaults. -/
def ofJson (doc : Json) : Except Fault Config := do
  if !doc.truthy then .ok {}
  else
    ofPairs ((← doc.allPairs).foldl
      (fun acc (k, v) => Yaml.setMember (.ofJson k) (.ofYaml (.ofJson v)) acc) [])

def optionalText (s : Option String) : Json := (s.map Json.str).getD .null

/-- Settings as a document. -/
def toJson (c : Config) : Json :=
  .obj [("default_duration_minutes", .int c.defaultMinutes), ("timezone", .str c.timezone),
    ("strict_missing_rules", .bool c.strict), ("score_tolerance", .float c.tolerance),
    ("fix_scores", .bool c.fixScores), ("workers", .int c.workers),
    ("rule_timeout_seconds", (c.timeout.map Json.float).getD .null),
    ("validated_by", .str c.validatedBy), ("schemas_dir", optionalText c.schemasDir),
    ("registry_dir", optionalText c.registryDir), ("output_dir", optionalText c.outputDir),
    ("io_policy", .obj
      [("write_report", .bool c.writeReport), ("write_metrics", .bool c.writeMetrics)]),
    ("validation", .obj [("fail_on_warnings", .bool c.failOnWarnings)])]

end Config
end LeagueAudit
