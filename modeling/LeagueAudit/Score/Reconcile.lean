import LeagueAudit.Evaluation
import LeagueAudit.Score.Line

/-!
Reconciling the ledger that a solver reports with the recomputed one: each checked soft constraint
has a line, and the reported numbers of that line and of the total may differ only within a
tolerance. The reported ledger can also be corrected.
-/
namespace LeagueAudit

/-- How a ledger is reconciled. -/
structure Scorekeeper where
  tolerance : Float := 1e-6
  /-- Differences are corrected instead of reported as errors. -/
  fix : Bool := false
  validatedBy : String := "osss-validator"
  /-- The time that a corrected ledger bears. -/
  now : String

/-- A difference between the two ledgers. -/
inductive Difference where
  /-- The reported total is not the sum of the reported lines. -/
  | total (shown : String) (parts : Float)
  /-- A checked soft constraint has no reported line. -/
  | missing (constraint : String)
  /-- Numbers of a line differ, each as reported and as recomputed. -/
  | line (constraint : String) (numbers : List (String × Float × Float))

namespace Difference

/-- The check that fails. -/
def check : Difference → String
  | total _ _ => "ScoringInconsistency"
  | missing _ => "MissingScoreEntry"
  | line _ _ => "RescoreMismatch"

def numberText (name : String) (reported expected : Float) : String :=
  s!"{name} reported={amountText reported}, expected={amountText expected}"

def message : Difference → String
  | total shown parts =>
    s!"Scoring inconsistency: totalPenalty={shown} " ++
      s!"but sum(byConstraint.penalty)={amountText parts}"
  | missing constraint => s!"Missing score entry for soft constraint '{constraint}'"
  | line constraint numbers =>
    let parts := numbers.map fun (name, reported, expected) => numberText name reported expected
    s!"Soft re-score mismatch for '{constraint}': " ++ String.intercalate "; " parts

/-- The constraint whose line differs. -/
def constraint? : Difference → Option String
  | total _ _ => none
  | missing constraint => some constraint
  | line constraint _ => some constraint

def entry (d : Difference) (suffix : String) : Entry :=
  { check := d.check
    message := d.message ++ suffix
    entities := (d.constraint?.map fun c => Json.obj [("constraintId", .str c)]).getD .null }

/-- The constraint whose reported line has other numbers. -/
def mismatch? : Difference → Option String
  | line constraint _ => some constraint
  | _ => none

end Difference

/-- The authoritative scores of a result and how they compare with the reported ones. -/
structure Reconciliation where
  evaluations : List Evaluation
  totalPenalty : Float
  reportedTotal : Option Float
  differences : List Difference
  /-- Reported lines of constraints that nobody declares. -/
  unknown : List String
  /-- Whether differences are corrected. -/
  fix : Bool
  /-- The result with the corrected ledger. -/
  fixed : Option Json

namespace Reconciliation

/-- The recomputed lines: those of the checked soft constraints. -/
def linesOf (evaluations : List Evaluation) : List Evaluation :=
  evaluations.filter fun ev => ev.constraint.soft && ev.checked

def lines (r : Reconciliation) : List Evaluation := linesOf r.evaluations

def byConstraint (r : Reconciliation) : List Json := r.lines.map Evaluation.scoreLine

/-- A violation of a hard constraint in a document. -/
def hardLine (ev : Evaluation) (v : Violation) : Json :=
  .obj [("constraintId", .str ev.constraint.label),
    ("ruleId", (ev.constraint.ruleId.map Json.str).getD .null), ("message", .str v.message),
    ("entities", .arr (v.entities.map Json.str))]

/-- The violations of all violated hard constraints. -/
def hardViolations (r : Reconciliation) : List Json :=
  (r.evaluations.filter fun ev => !ev.constraint.soft && ev.status = .violated).flatMap fun ev =>
    ev.violations.map (hardLine ev)

/-- The constraints whose reported numbers differ. -/
def mismatches (r : Reconciliation) : List String := r.differences.filterMap Difference.mismatch?

def correctedMark : String := " (rewritten by fix-scores)"

def errors (r : Reconciliation) : List Entry :=
  r.evaluations.flatMap (·.errors) ++
    (if r.fix then [] else r.differences.map fun d => d.entry "")

def unknownEntry (constraint : String) : Entry :=
  { check := "UnknownScoreEntry"
    message := s!"Score entry for unknown constraint '{constraint}'"
    entities := .obj [("constraintId", .str constraint)] }

def warnings (r : Reconciliation) : List Entry :=
  r.evaluations.flatMap (·.warnings) ++
    (if r.fix then r.differences.map fun d => d.entry correctedMark else []) ++
    r.unknown.map unknownEntry

end Reconciliation

/-- The reported lines of a ledger by constraint, the first one of each counting. -/
abbrev ReportedLedger := List (String × ReportedLine)

namespace ReportedLedger

/-- Adds a line unless it names no constraint, or one that has a line already. -/
def add (ledger : ReportedLedger) (line : ReportedLine) : ReportedLedger :=
  match line.constraint.filter (!·.isEmpty) with
  | none => ledger
  | some id => if (ledger.lookup id).isSome then ledger else ledger ++ [(id, line)]

/-- The lines that the scores of a result report. -/
def read (scores : Json) : Except Fault ReportedLedger := do
  let lines ← ((scores.field "byConstraint").items.filter Json.isObject).mapM ReportedLine.read
  .ok (lines.foldl add [])

/-- The sum of the reported penalties. -/
def sum (ledger : ReportedLedger) : Except Fault Float :=
  sumFloats (ledger.map fun (_, line) => line.penalty.getD 0.0)

end ReportedLedger

/-- Two numbers differ by no more than a tolerance; infinite ones only when they are equal. -/
def isClose (tolerance a b : Float) : Except Fault Bool :=
  if tolerance < 0.0 then .error .negativeTolerance
  else if a == b then .ok true
  else if a.isInf || b.isInf then .ok false
  else
    let difference := (b - a).abs
    .ok (difference ≤ tolerance || difference ≤ 0.0)

namespace Scorekeeper

/-- The total that the scores report, when it is a number. -/
def reportedTotal (scores : Json) : Except Fault (Option Float) :=
  match scores.field "totalPenalty" with
  | .int n => do .ok (some (← intToFloat n))
  | .float x => .ok (some x)
  | _ => .ok none

/-- The reported total against the reported lines. -/
def compareTotal (k : Scorekeeper) (scores : Json) (total : Option Float)
    (ledger : ReportedLedger) : Except Fault (List Difference) :=
  match total with
  | none => .ok []
  | some total => do
    let parts ← ReportedLedger.sum ledger
    if ← isClose k.tolerance total parts then .ok []
    else .ok [.total (scores.field "totalPenalty").text parts]

/-- A reported number against a recomputed one. -/
def compareNumber (k : Scorekeeper) (name : String) (reported expected : Float) :
    Except Fault (List (String × Float × Float)) := do
  if ← isClose k.tolerance reported expected then .ok [] else .ok [(name, reported, expected)]

/-- The reported line of a constraint against the recomputed one. -/
def compareLine (k : Scorekeeper) (ledger : ReportedLedger) (ev : Evaluation) :
    Except Fault (List Difference) :=
  let id := ev.constraint.label
  match ledger.lookup id with
  | none => .ok [.missing id]
  | some line => do
    let penalty ← k.compareNumber "penalty" (line.penalty.getD 0.0) ev.penalty
    let count ← intToFloat ev.count
    let violations ← k.compareNumber "violations" (line.violations.getD 0.0) count
    let numbers := penalty ++ violations
    .ok (if numbers.isEmpty then [] else [.line id numbers])

/-- The reported lines of constraints that nobody declares. -/
def unknownLines (ledger : ReportedLedger) (evaluations : List Evaluation) : List String :=
  (ledger.map (·.1)).filter fun id => !evaluations.any fun ev => ev.constraint.label == id

/-- The reported lines that stay: those of soft constraints that were not recomputed. -/
def keptLines (ledger : ReportedLedger) (evaluations : List Evaluation) : List ReportedLine :=
  let recomputed := (Reconciliation.linesOf evaluations).map fun ev => ev.constraint.label
  (ledger.filter fun (id, _) => !recomputed.contains id &&
    evaluations.any fun ev => ev.constraint.label == id && ev.constraint.soft).map (·.2)

/-- The result with a corrected ledger. -/
def correct (k : Scorekeeper) (result : Json) (ledger : ReportedLedger)
    (evaluations : List Evaluation) : Except Fault Json :=
  match result with
  | .obj members => do
    let lines := Reconciliation.linesOf evaluations
    let kept := keptLines ledger evaluations
    let total ← sumFloats
      (lines.map (·.penalty) ++ kept.map fun line => line.penalty.getD 0.0)
    let all := lines.map Evaluation.scoreLine ++ kept.map ReportedLine.toJson
    let scores := Json.setMembers (result.field "scores").members
      [("byConstraint", .arr all), ("totalPenalty", .float total),
        ("_validatedBy", .str k.validatedBy), ("_validatedAt", .str k.now)]
    .ok (.obj (Json.setMember "scores" (.obj scores) members))
  | j => .error (.missingFeature s!"'{j.typeName}' object has no attribute 'get'")

/-- Reconciles a result with the evaluations of the constraints. -/
def reconcileWith (k : Scorekeeper) (result : Json) (evaluations : List Evaluation) :
    Except Fault Reconciliation := do
  let lines := Reconciliation.linesOf evaluations
  let totalPenalty ← sumFloats (lines.map (·.penalty))
  let scores := result.field "scores"
  let ledger ← ReportedLedger.read scores
  let reportedTotal ← reportedTotal scores
  let total ← k.compareTotal scores reportedTotal ledger
  let others ← lines.mapM (k.compareLine ledger)
  let fixed ←
    if k.fix then do .ok (some (← k.correct result ledger evaluations)) else .ok none
  .ok
    { evaluations, totalPenalty, reportedTotal
      differences := total ++ others.flatten
      unknown := unknownLines ledger evaluations
      fix := k.fix, fixed }

/-- Evaluates the constraints of an instance and reconciles the result with them. -/
def reconcile (k : Scorekeeper) (engine : Engine) (league result : Json) (index : Index) :
    Except Fault Reconciliation := do
  k.reconcileWith result (← engine.evaluateAll index (league.field "constraints").items)

end Scorekeeper
end LeagueAudit
