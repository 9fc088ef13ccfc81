import LeagueAudit.Audit.Result
import LeagueAudit.Json.Order

/-!
Ranking results of one instance: valid and feasible ones first, then by fewer hard violations, then
by the smaller penalty; the label decides between equals, so the ranking does not depend on the
order in which the results were given.
-/
namespace LeagueAudit

/-- What the ranking looks at. -/
structure Standing where
  /-- Valid and feasible. -/
  fit : Bool
  hardViolations : Exact
  totalPenalty : Exact
  label : String
  deriving DecidableEq, Repr

namespace Standing

/-- The better standing comes first. -/
def order (a b : Standing) : Ordering :=
  (compare (!a.fit) (!b.fit)).then
    ((a.hardViolations.order b.hardViolations).then
      ((a.totalPenalty.order b.totalPenalty).then (compare a.label b.label)))

def notAfter (a b : Standing) : Bool := (order a b).isLE

/-- The value of a number or a truth value that is no undefined one. -/
def exactOf? (v : Json) : Option Exact :=
  match v.asCount with
  | .int n => some (.ofInt n)
  | .float x => if x.isNaN then none else some (.ofFloat x)
  | _ => none

end Standing

/-- What a row declares of its standing. -/
structure DeclaredStanding where
  fit : Bool
  hardViolations : Json
  totalPenalty : Json
  label : Json

namespace DeclaredStanding

/-- Reads the standing that a row declares; whether it is feasible counts only if it is valid. -/
def ofJson (row : Json) : Except Fault DeclaredStanding := do
  let fit ←
    if (← Json.required row "valid").truthy then do
      .ok (← Json.required row "feasible").truthy
    else .ok false
  let hardViolations ← Json.required row "hardViolations"
  let totalPenalty ← Json.required row "totalPenalty"
  .ok { fit, hardViolations, totalPenalty, label := ← Json.required row "label" }

/-- The standing, when the numbers are numbers and the label is a text. -/
def standing? (d : DeclaredStanding) : Option Standing := do
  let hardViolations ← Standing.exactOf? d.hardViolations
  let totalPenalty ← Standing.exactOf? d.totalPenalty
  some { fit := d.fit, hardViolations, totalPenalty, label := ← d.label.asString? }

/-- The parts of a standing in the order in which they decide. -/
def parts (d : DeclaredStanding) : List Json :=
  [.bool !d.fit, d.hardViolations, d.totalPenalty, d.label]

/-- The better standing comes first; the first parts that differ must have an order. -/
def before (a b : DeclaredStanding) : Except Fault Bool := Json.itemsBefore a.parts b.parts

end DeclaredStanding

/-- Rows with their standings, the best first and the ranks counted from one. -/
def rankBy {α : Type} (rows : List (Standing × α)) : List (Nat × α) :=
  (rows.mergeSort fun a b => a.1.notAfter b.1).zipIdx.map fun ((_, row), i) => (i + 1, row)

/-- A row with its rank. -/
def rankedRow (rank : Nat) (members : List (String × Json)) : Json :=
  .obj (Json.setMembers [("rank", .int rank)] members)

/-- The rows in the order of what they declare. -/
def sortRows (rows : List (DeclaredStanding × Json)) : Except Fault (List Json) :=
  match rows.mapM fun (d, row) => d.standing?.map (·, row) with
  | some standings => .ok ((rankBy standings).map (·.2))
  | none => do .ok ((← Sorting.sort (fun a b => a.1.before b.1) rows).map (·.2))

/-- Ranks rows of a document. -/
def rankRows (rows : Json) : Except Fault (List Json) := do
  let declared ← (← rows.listed).mapM fun row => do .ok (← DeclaredStanding.ofJson row, row)
  .ok ((← sortRows declared).mapIdx fun i row => rankedRow (i + 1) row.members)

/-- An audited result in one row. -/
structure RankingRow where
  label : String
  valid : Bool
  feasible : Bool
  exitCode : Nat
  hardViolations : Nat
  totalPenalty : Float
  errors : Nat
  warnings : Nat

namespace RankingRow

/-- The penalty of a report, infinite when it has none. -/
def penaltyOf (report : Report) : Except Fault Float :=
  match (report.detail "totalPenalty").asCount with
  | .int n => intToFloat n
  | .float x => .ok x
  | _ => .ok (1.0 / 0.0)

/-- The row of an audited result. -/
def ofReport (label : String) (report : Report) : Except Fault RankingRow := do
  let totalPenalty ← penaltyOf report
  .ok
    { label, valid := report.valid, feasible := (report.detail "feasible").truthy
      exitCode := report.exitCode, hardViolations := report.hardViolations.length, totalPenalty
      errors := report.errors.length, warnings := report.warnings.length }

def standing (row : RankingRow) : Standing :=
  { fit := row.valid && row.feasible
    hardViolations := .ofInt row.hardViolations
    totalPenalty := .ofFloat row.totalPenalty
    label := row.label }

/-- The columns of a ranking. -/
def columns : List String :=
  ["rank", "label", "valid", "feasible", "exitCode", "hardViolations", "totalPenalty", "errors",
    "warnings"]

/-- The members of a row in a document. -/
def members (row : RankingRow) : List (String × Json) :=
  let count (n : Nat) : Json := .int n
  [("label", .str row.label), ("valid", .bool row.valid), ("feasible", .bool row.feasible),
    ("exitCode", count row.exitCode), ("hardViolations", count row.hardViolations),
    ("totalPenalty", .float row.totalPenalty), ("errors", count row.errors),
    ("warnings", count row.warnings)]

end RankingRow

/-- Results of one instance, audited and ranked. -/
structure Comparison where
  report : Report
  ranking : List (Nat × RankingRow)

namespace Comparison

/-- The label of the best result. -/
def best (c : Comparison) : Option String := c.ranking.head?.map fun (_, row) => row.label

def bestOf (ranking : List (Nat × RankingRow)) : Json :=
  (ranking.head?.map fun (_, row) => Json.str row.label).getD .null

def noneValid (count : Nat) : Entry :=
  { check := "NoValidResult"
    message := s!"None of the {count} result(s) is valid"
    action := some "Inspect the individual result reports." }

/-- Ranks the rows of audited results; one of them has to be valid. -/
def ofRows (report : Report) (rows : List RankingRow) : Comparison :=
  let ranking := rankBy (rows.map fun row => (row.standing, row))
  let report := report.setDetails
    [("ranking", .arr (ranking.map fun (rank, row) => rankedRow rank row.members)),
      ("best", bestOf ranking)]
  let report :=
    if rows.any (·.valid) then report.markPassed "NoValidResult"
    else report.addError (noneValid rows.length)
  { report, ranking }

end Comparison

namespace Auditor

/-- Audits each of several results, known by labels. -/
def auditResults (auditor : Auditor) (league : Json) (results : List (String × Json)) :
    List (String × Except Fault ResultAudit) :=
  results.map fun (label, raw) => (label, auditor.withoutFixing.auditResult league raw)

/-- Ranks audited results. -/
def compareAudits (auditor : Auditor) (audits : List (String × Except Fault ResultAudit)) :
    Except Fault Comparison := do
  let audits ← audits.mapM fun (label, audit) => do .ok (label, (← audit).report)
  let rows ← audits.mapM fun (label, report) => RankingRow.ofReport label report
  .ok (Comparison.ofRows (auditor.report "Comparison") rows)

/-- Audits and ranks results. -/
def compareResults (auditor : Auditor) (league : Json) (results : List (String × Json)) :
    Except Fault Comparison := auditor.compareAudits (auditor.auditResults league results)

end Auditor
end LeagueAudit
