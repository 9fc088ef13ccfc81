import LeagueAudit.Json.Listing

/-!
Reports: the errors, warnings and details of one audit. The exit code is the highest of the codes
that the findings call for, so the order of findings does not matter.
-/
namespace LeagueAudit

/-- One error or warning. -/
structure Entry where
  check : String
  message : String
  /-- The entities it is about, by role. -/
  entities : Json := .null
  /-- What to do about it. -/
  action : Option String := none

namespace Entry

/-- Empty optional parts are left out. -/
def toJson (e : Entry) : Json :=
  let entities := if e.entities.truthy then [("entities", e.entities)] else []
  let action :=
    match e.action.filter (!·.isEmpty) with
    | some a => [("suggested_action", Json.str a)]
    | none => []
  .obj ([("check", .str e.check), ("message", .str e.message)] ++ entities ++ action)

/-- The checks whose errors are about scores. -/
def scoringChecks : List String :=
  ["ScoringInconsistency", "RescoreMismatch", "MissingScoreEntry", "RuleExecution"]

/-- The exit code that an error calls for: four about scores, else one. -/
def exitCode (e : Entry) : Nat := if scoringChecks.contains e.check then 4 else 1

end Entry

/-- A finding of a report: an entry, or a value of any shape that was handed over as one. -/
inductive Finding where
  | entry (e : Entry)
  | given (value : Json)

namespace Finding

instance : Coe Entry Finding := ⟨entry⟩

def toJson : Finding → Json
  | entry e => e.toJson
  | given value => value

/-- A finding made of values of any kind; empty optional parts are left out. -/
def ofParts (check message entities action : Json) : Finding :=
  .given (.obj ([("check", check), ("message", message)] ++
    (if entities.truthy then [("entities", entities)] else []) ++
    (if action.truthy then [("suggested_action", action)] else [])))

/-- What a finding is named by; a container cannot be a name. -/
def check : Finding → Except Fault Json
  | entry e => .ok (.str e.check)
  | given value => do
    let check ← value.required "check"
    if check.isArray || check.isObject then .error (.notKey check.typeName) else .ok check

/-- The message of a finding. -/
def message : Finding → Except Fault Json
  | entry e => .ok (.str e.message)
  | given value => value.required "message"

/-- The exit code that an error calls for: four about scores, else one. -/
def exitCode : Finding → Nat
  | entry e => e.exitCode
  | given value => if Entry.scoringChecks.any (value.field "check").isText then 4 else 1

end Finding

/-- A report. -/
structure Report where
  subject : String := "Result"
  failOnWarnings : Bool := false
  errors : List Finding := []
  warnings : List Finding := []
  /-- Whether each check passed, in the order in which the checks were settled. -/
  checks : List (String × Bool) := []
  details : List (String × Json) := []
  /-- The solver reports that there is no schedule. -/
  infeasible : Bool := false

namespace Report

/-- A check has failed. -/
def fail (checks : List (String × Bool)) (check : String) : List (String × Bool) :=
  Json.setMember check false checks

/-- Adds an error, whose check has failed. -/
def addError (r : Report) (e : Entry) : Report :=
  { r with errors := r.errors ++ [.entry e], checks := fail r.checks e.check }

def addWarning (r : Report) (e : Entry) : Report :=
  { r with warnings := r.warnings ++ [.entry e] }

def addErrors (r : Report) (es : List Entry) : Report := es.foldl addError r

def addWarnings (r : Report) (es : List Entry) : Report :=
  { r with warnings := r.warnings ++ es.map Finding.entry }

/-- Merges findings made elsewhere. -/
def extend (r : Report) (errors warnings : List Entry) : Report :=
  (r.addErrors errors).addWarnings warnings

/-- The checks of findings have failed, up to the first finding without one. -/
def settle (r : Report) : List Finding → Report × Option Fault
  | [] => (r, none)
  | f :: rest =>
    match f.check with
    | .ok check => settle { r with checks := fail r.checks check.text } rest
    | .error fault => (r, some fault)

/-- Adds errors and warnings of any shape; then the checks of the errors have failed. -/
def extendGiven (r : Report) (errors warnings : Json) : Report × Option Fault :=
  match errors.listed with
  | .error f => (r, some f)
  | .ok es =>
    let found := es.map Finding.given
    let r := { r with errors := r.errors ++ found }
    match warnings.listed with
    | .error f => (r, some f)
    | .ok ws => { r with warnings := r.warnings ++ ws.map Finding.given }.settle found

/-- Adds one error of any shape, whose check has failed. -/
def addGivenError (r : Report) (f : Finding) : Report × Option Fault :=
  { r with errors := r.errors ++ [f] }.settle [f]

def addGivenWarning (r : Report) (f : Finding) : Report :=
  { r with warnings := r.warnings ++ [f] }

/-- A check has passed unless it is settled already. -/
def markPassed (r : Report) (check : String) : Report :=
  if (r.checks.lookup check).isSome then r else { r with checks := r.checks ++ [(check, true)] }

/-- A check named by any value has passed unless it is settled already. -/
def markGivenPassed (r : Report) (check : Json) : Report × Option Fault :=
  if check.isArray || check.isObject then (r, some (.notKey check.typeName))
  else (r.markPassed check.text, none)

/-- Sets details; existing ones keep their place. -/
def setDetails (r : Report) (more : List (String × Json)) : Report :=
  { r with details := Json.setMembers r.details more }

/-- Sets details given as members or pairs, up to the first item that is no pair. -/
def setGivenDetails (r : Report) (more : Json) : Report × Option Fault :=
  let (pairs, fault) := more.pairs
  (r.setDetails (Json.named pairs), fault)

/-- A detail, null when there is none. -/
def detail (r : Report) (key : String) : Json := (r.details.lookup key).getD .null

/-- The hard violations among the details, a fault when they are no list. -/
def hardViolations? (r : Report) : Except Fault (List Json) :=
  (r.detail "hardViolations").listedOrNone

/-- The hard violations among the details. -/
def hardViolations (r : Report) : List Json :=
  match r.hardViolations? with
  | .ok vs => vs
  | .error _ => []

/-- Every error has a check and the hard violations are a list. -/
def readable (r : Report) : Except Fault Unit := do
  r.errors.forM fun f => do
    let _ ← f.check
    .ok ()
  let _ ← r.hardViolations?
  .ok ()

/-- The codes that the findings call for. -/
def codes (r : Report) : List Nat :=
  r.errors.map Finding.exitCode ++
    (if r.infeasible then [2] else []) ++
    (if r.hardViolations.isEmpty then [] else [3]) ++
    (if r.failOnWarnings && !r.warnings.isEmpty then [1] else [])

/-- The highest code: four for scores, three for hard violations, two for an infeasible result, one
for any other error, zero for a valid report. -/
def exitCode (r : Report) : Nat := r.codes.foldl max 0

def valid (r : Report) : Bool := r.exitCode == 0

/-- The report in one sentence. -/
def summary (r : Report) : String :=
  match r.exitCode with
  | 0 => s!"{r.subject} is valid"
  | 2 => s!"{r.subject} is reported infeasible by the solver"
  | 3 => s!"{r.subject} has {r.hardViolations.length} hard constraint violation(s)"
  | 4 => s!"{r.subject} has scoring inconsistencies"
  | _ => s!"{r.subject} validation failed"

def entriesJson (es : List Entry) : Json := .arr (es.map Entry.toJson)

def findingsJson (fs : List Finding) : Json := .arr (fs.map Finding.toJson)

def checksJson (checks : List (String × Bool)) : Json :=
  .obj (checks.map fun (check, passed) => (check, .bool passed))

/-- The parts of a report in a document. -/
def fields (r : Report) : List (String × Json) :=
  [("valid", .bool r.valid), ("exitCode", .int r.exitCode), ("summary", .str r.summary),
    ("warnings", findingsJson r.warnings), ("errors", findingsJson r.errors),
    ("checks", checksJson r.checks), ("details", .obj r.details)]

/-- A report as a document, made at a time. -/
def toJson (now : String) (r : Report) : Json := .obj (("timestamp", .str now) :: r.fields)

end Report
end LeagueAudit
