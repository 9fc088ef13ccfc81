import LeagueAudit.Json.Listing
import LeagueAudit.Json.Printer

/-!
Reports for readers: one line for the verdict and one for each finding. The report is a document of
any shape; what cannot be shown in a line is a fault.
-/
namespace LeagueAudit.Report

/-- A number with six significant digits. -/
def amountOfJson : Json → Except Fault String
  | .int n => do .ok (amountText (← intToFloat n))
  | .float x => .ok (amountText x)
  | .bool b => .ok (if b then "1" else "0")
  | .str _ => .error (.notNumeric "Unknown format code 'g' for object of type 'str'")
  | j => .error (.wrongType s!"unsupported format string passed to {j.typeName}.__format__")

/-- A member of a value that must be an object; null when it is absent. -/
def lookupIn (j : Json) (key : String) : Except Fault Json :=
  match j with
  | .obj _ => .ok (j.field key)
  | _ => .error (.missingFeature s!"'{j.typeName}' object has no attribute 'get'")

/-- The members of the details. -/
def detailsOf (data : Json) : Except Fault Json := do
  let details ← lookupIn data "details"
  if !details.truthy then .ok (.obj [])
  else
    match details with
    | .obj _ => .ok details
    | .arr items =>
      if items.any (·.isText "feasible") then .error (.wrongType "list indices must be integers")
      else lookupIn details "totalPenalty"
    | .str s =>
      if (s.splitOn "feasible").length > 1 then
        .error (.wrongType "string indices must be integers")
      else lookupIn details "totalPenalty"
    | j => .error (.wrongType s!"argument of type '{j.typeName}' is not iterable")

def feasibleLine (details : Json) : List String :=
  match details.find? "feasible" with
  | some v => [s!"  feasible: {v.text}"]
  | none => []

/-- A line for a total, when there is one. -/
def totalLine (details : Json) (key label : String) : Except Fault (List String) :=
  let total := details.field key
  if total.isNull then .ok [] else do .ok [s!"  {label} {← amountOfJson total}"]

def hardLine (violation : Json) : Except Fault String := do
  let id ← lookupIn violation "constraintId"
  let message ← lookupIn violation "message"
  .ok s!"  [HARD] {id.text}: {message.text}"

def softLine (line : Json) : Except Fault String := do
  let id ← lookupIn line "constraintId"
  let violations ← lookupIn line "violations"
  let penalty ← amountOfJson (← lookupIn line "penalty")
  .ok s!"  [SOFT] {id.text}: violations={violations.text} penalty={penalty}"

def rankingLine (row : Json) : Except Fault String := do
  let rank ← Json.required row "rank"
  let label ← Json.required row "label"
  let valid ← Json.required row "valid"
  let feasible ← Json.required row "feasible"
  let hard ← Json.required row "hardViolations"
  let penalty ← amountOfJson (← Json.required row "totalPenalty")
  .ok (s!"  #{rank.text} {label.text}: valid={valid.text} feasible={feasible.text} " ++
    s!"hard={hard.text} penalty={penalty}")

def bundleLine (row : Json) : Except Fault String := do
  let result ← Json.required row "result"
  let name ← Json.required row "example"
  let exit ← Json.required row "exitCode"
  let league ← Json.required row "instance"
  let shown := if result.isNull then "-" else result.text
  .ok s!"  {name.text}: exit={exit.text} instance={league.text} result={shown}"

def entryLine (tag : String) (entry : Json) : Except Fault String := do
  let check ← lookupIn entry "check"
  let message ← lookupIn entry "message"
  let action ← lookupIn entry "suggested_action"
  let more := if action.truthy then s!" ({action.text})" else ""
  .ok s!"  [{tag}] {check.text}: {message.text}{more}"

/-- One line for each item that a member lists. -/
def linesOf (doc : Json) (key : String) (line : Json → Except Fault String) :
    Except Fault (List String) := do
  (← (doc.field key).listedOrNone).mapM line

/-- The text of a report document. -/
def renderText (data : Json) : Except Fault String := do
  let verdict := if (← lookupIn data "valid").truthy then "VALID" else "INVALID"
  let code := (data.field "exitCode").text
  let summary := (data.field "summary").text
  let head := s!"{verdict} (exit {code}): {summary}"
  let details ← detailsOf data
  let computed ← totalLine details "totalPenalty" "total penalty (recomputed):"
  let reported ← totalLine details "reportedTotalPenalty" "total penalty (reported):  "
  let hard ← linesOf details "hardViolations" hardLine
  let soft ← linesOf details "byConstraint" softLine
  let ranking ← linesOf details "ranking" rankingLine
  let bundle ← linesOf details "bundle" bundleLine
  let errors ← linesOf data "errors" (entryLine "ERROR")
  let warnings ← linesOf data "warnings" (entryLine "WARN")
  .ok (String.intercalate "\n"
    (head :: (feasibleLine details ++ computed ++ reported ++ hard ++ soft ++ ranking ++ bundle ++
      errors ++ warnings)))

end LeagueAudit.Report

namespace LeagueAudit.Json

mutual

/-- Doubles without digits become texts, so that a document stays valid. -/
def withoutInfinities : Json → Json
  | float x => if x.isFinite then float x else str (floatText x)
  | arr items => arr (withoutInfinitiesItems items)
  | obj members => obj (withoutInfinitiesMembers members)
  | j => j

def withoutInfinitiesItems : List Json → List Json
  | [] => []
  | x :: rest => withoutInfinities x :: withoutInfinitiesItems rest

def withoutInfinitiesMembers : List (String × Json) → List (String × Json)
  | [] => []
  | (k, v) :: rest => (k, withoutInfinities v) :: withoutInfinitiesMembers rest

end

/-- The text of a document for readers. -/
def documentText (j : Json) : String := (withoutInfinities j).render PrintStyle.document

end LeagueAudit.Json
