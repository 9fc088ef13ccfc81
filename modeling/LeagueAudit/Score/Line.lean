import LeagueAudit.Fault
import LeagueAudit.Json.Display
import LeagueAudit.Number.Reading

/-!
Lines of a score ledger: what a solver reports, or an audit computes, for one constraint.
-/
namespace LeagueAudit

/-- A reported line. A number that is not given is none. -/
structure ReportedLine where
  constraint : Option String
  violations : Option Float
  penalty : Option Float
  explanation : Json

namespace ReportedLine

/-- A number from a number, a truth value or a free text; anything else is zero. -/
def numberOrZero : Json → Except Fault Float
  | .bool b => .ok (if b then 1.0 else 0.0)
  | .int n => intToFloat n
  | .float x => .ok x
  | .str s => .ok ((readFreeFloat? s).getD 0.0)
  | _ => .ok 0.0

/-- A member as a number, when there is one. -/
def readNumber (doc : Json) (key : String) : Except Fault (Option Float) :=
  match doc.find? key with
  | none => .ok none
  | some value => (numberOrZero value).map some

/-- The names under which a line may name its constraint, the first one present counting. -/
def constraintNames : List String := ["constraintId", "constraint_id"]

/-- Reads a line. -/
def read (doc : Json) : Except Fault ReportedLine := do
  let named := (constraintNames.findSome? doc.find?).getD .null
  let violations ← readNumber doc "violations"
  let penalty ← readNumber doc "penalty"
  .ok
    { constraint := named.notNull?.map Json.text
      violations, penalty
      explanation := doc.field "explanation" }

/-- A number of a line in a document. -/
def numberJson (x : Option Float) : Json := (x.map Json.float).getD (.int 0)

/-- A line as it stands in a ledger. -/
def toJson (line : ReportedLine) : Json :=
  .obj ([("constraintId", (line.constraint.map Json.str).getD .null),
      ("violations", numberJson line.violations), ("penalty", numberJson line.penalty)] ++
    (line.explanation.notNull?.map fun e => [("explanation", e)]).getD [])

end ReportedLine
end LeagueAudit
