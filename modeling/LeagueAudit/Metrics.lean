import LeagueAudit.Json.Printer
import LeagueAudit.Metrics.Table
import LeagueAudit.Report.Basic
import LeagueAudit.Schedule.Index

/-!
Metrics: the key figures of one audited result. Some come from the report, and with an index there
are those of the schedule.
-/
namespace LeagueAudit

/-- How much a venue is used. -/
structure VenueUsage where
  venue : String
  assignments : Nat
  /-- The times in milliseconds of those with readable times. -/
  times : List Int
  deriving DecidableEq, Repr

/-- A time in milliseconds as hours. -/
def hoursOf (time : Int) : Float := nearestFloat (time < 0) time.natAbs msPerHour

/-- The hours of a venue. Each term of their sum is rounded, and so is the sum. -/
def VenueUsage.hours (u : VenueUsage) : Float := carriedSum (u.times.map hoursOf)

/-- The figures of a schedule. -/
structure ScheduleFigures where
  teams : Nat
  venues : Nat
  fixtures : Nat
  assignments : Nat
  unassigned : Nat
  usage : List VenueUsage
  /-- Games by day of the week. -/
  weekdays : List (String × Nat)

/-- The key figures of a result. -/
structure Metrics where
  valid : Bool
  exitCode : Nat
  errors : Nat
  warnings : Nat
  hardViolations : Nat
  totalPenalty : Float
  /-- The share of each soft constraint in the total penalty. -/
  shares : List (String × Float)
  /-- Violations by rule. -/
  violations : List (String × Int)
  /-- Milliseconds that the evaluation took. -/
  evaluation : Float
  schedule : Option ScheduleFigures

namespace ScheduleFigures

/-- Adds an assignment to the usage of its venue. -/
def addUsage (usage : List VenueUsage) (a : Assignment) : List VenueUsage :=
  match a.venue with
  | none => usage
  | some venue => add venue a.duration?.toList usage
where
  add (venue : String) (times : List Int) : List VenueUsage → List VenueUsage
    | [] => [⟨venue, 1, times⟩]
    | u :: rest =>
      if u.venue = venue then ⟨venue, u.assignments + 1, u.times ++ times⟩ :: rest
      else u :: add venue times rest

/-- The usage of venues, in order of their names. -/
def usageOf (assignments : List Assignment) : List VenueUsage :=
  (assignments.foldl addUsage []).mergeSort fun a b => decide (a.venue ≤ b.venue)

/-- Counts one more game on a day. -/
def countDay (days : List (String × Nat)) (day : String) : List (String × Nat) :=
  Json.setMember day ((days.lookup day).getD 0 + 1) days

/-- Games by day of the week, in order of the names. -/
def weekdaysOf (assignments : List Assignment) : List (String × Nat) :=
  ((assignments.filterMap fun a => a.parts.map (·.weekday)).foldl countDay []).mergeSort
    fun a b => decide (a.1 ≤ b.1)

/-- The figures of an index. The hours of every assignment must fit a double. -/
def ofIndex (index : Index) : Except Fault ScheduleFigures :=
  if (index.assignments.filterMap Assignment.duration?).any fun time => (hoursOf time).isInf then
    .error .quotientTooLarge
  else
    .ok
      { teams := index.teams.length
        venues := index.venues.length
        fixtures := index.fixtures.length
        assignments := index.assignments.length
        unassigned := index.unassigned.length
        usage := usageOf index.assignments
        weekdays := weekdaysOf index.assignments }

end ScheduleFigures

namespace Metrics

/-- Tiny amounts count as zero. -/
def withoutNoise (x : Float) : Float := if x.abs < 1e-15 then 0.0 else x

/-- The total penalty of a report; no number counts as zero. -/
def totalOf (report : Report) : Except Fault Float :=
  match (report.detail "totalPenalty").asCount with
  | .int n => intToFloat n
  | .float x => .ok x
  | _ => .ok 0.0

/-- The columns of the table of evaluated constraints. -/
def columnNames : List String :=
  ["constraintId", "ruleId", "type", "status", "violations", "penalty", "durationMs"]

/-- The evaluated constraints of a report. -/
def tableOf (report : Report) : Except Fault Table :=
  Table.ofJson columnNames (report.detail "constraints")

/-- The share of each soft constraint in a positive total. -/
def sharesOf (table : Table) (total : Float) : Except Fault (List (String × Float)) := do
  let rows := (table.column "constraintId").cells.zip (table.column "penalty").cells
  let soft := ((table.column "type").cells.zip rows).filter fun (type, _) => type.isText "soft"
  if soft.isEmpty || total ≤ 0.0 || !total.isFinite then .ok []
  else
    let penalties ← Column.numbersOrZero (soft.map fun (_, _, penalty) => penalty)
    .ok (Json.setMembers [] ((soft.zip penalties).map fun ((_, label, _), penalty) =>
      (label.text, withoutNoise (penalty / total))))

/-- Adds a count to those of its rule. -/
def addCount (counts : List (Json × List Json)) (rule count : Json) : List (Json × List Json) :=
  match counts with
  | [] => [(rule, [count])]
  | (r, cs) :: rest =>
    if r.same rule then (r, cs ++ [count]) :: rest else (r, cs) :: addCount rest rule count

/-- The rules of rows that name one, each with the counts of its violations. -/
def countsByRule (table : Table) : Except Fault (List (Json × List Json)) :=
  let rows := (table.column "ruleId").cells.zip (table.column "violations").cells
  let known := rows.filter fun (rule, _) => !Column.isMissing rule
  known.foldlM (fun counts (rule, count) =>
    if rule.isArray || rule.isObject then .error (.notKey rule.typeName)
    else .ok (addCount counts rule count)) []

/-- The violations by rule, in order of the rules. -/
def violationsOf (table : Table) : Except Fault (List (String × Int)) := do
  let sorted := (← countsByRule table).mergeSort fun a b => Column.notAfter a.1 b.1
  let kind := (table.column "violations").kind
  .ok (Json.setMembers [] (← sorted.mapM fun (rule, counts) => do
    .ok (rule.text, ← Column.total kind counts)))

def undefinedFigure : Trouble :=
  ⟨.data, "NaN/Inf encountered in metrics", "metrics.collect_metrics", none⟩

/-- Collects the figures of a report, and of an index if there is one. -/
def collect (report : Report) (index : Option Index) : Except Fault Metrics := do
  let total ← totalOf report
  let hard ← report.hardViolations?
  let table ← tableOf report
  let shares ← sharesOf table total
  let violations ← violationsOf table
  let times ← Column.numbersOrZero (table.column "durationMs").cells
  let evaluation := withoutNoise (times.foldl (· + ·) 0.0)
  let schedule ← index.mapM ScheduleFigures.ofIndex
  let hours := ((schedule.map (·.usage)).getD []).map (·.hours)
  if (evaluation :: shares.map (·.2) ++ hours).any fun x => !x.isFinite then
    .error (.trouble undefinedFigure)
  else
    .ok
      { valid := report.valid, exitCode := report.exitCode
        errors := report.errors.length, warnings := report.warnings.length
        hardViolations := hard.length
        totalPenalty := total, shares, violations, evaluation, schedule }

/-- The members of the figures of a schedule in a document. -/
def scheduleMembers (s : ScheduleFigures) : List (String × Json) :=
  let count (n : Nat) : Json := .int n
  [("num_teams", count s.teams), ("num_venues", count s.venues),
    ("num_fixtures", count s.fixtures), ("num_assignments", count s.assignments),
    ("num_unassigned", count s.unassigned),
    ("venue_usage", .obj (s.usage.map fun u =>
      (u.venue, .obj [("assignments", count u.assignments),
        ("hours", .float (withoutNoise u.hours))]))),
    ("games_per_weekday", .obj (s.weekdays.map fun (day, n) => (day, count n)))]

/-- Metrics as a document, made at a time. -/
def toJson (now : String) (m : Metrics) : Json :=
  let count (n : Nat) : Json := .int n
  let total : Json :=
    if m.totalPenalty.isFinite then .float (withoutNoise m.totalPenalty)
    else .str (floatText m.totalPenalty)
  .obj ([("timestamp", .str now), ("valid", .bool m.valid), ("exit_code", count m.exitCode),
      ("num_errors", count m.errors), ("num_warnings", count m.warnings),
      ("num_hard_violations", count m.hardViolations), ("total_penalty", total),
      ("penalty_share", .obj (m.shares.map fun (id, share) => (id, .float share))),
      ("violations_per_rule", .obj (m.violations.map fun (rule, n) => (rule, .int n))),
      ("evaluation_ms", .float m.evaluation)] ++
    (m.schedule.map scheduleMembers).getD [])

def notObject : Trouble := ⟨.data, "metrics must be a dict", "metrics.write_metrics", none⟩

/-- The text of a metrics document, its members in order of their names. -/
def documentText (metrics : Json) : Except Trouble String :=
  if metrics.isObject then .ok (metrics.sortKeys.render .document) else .error notObject

/-- The name of the file for metrics. -/
def fileName : String := "metrics.json"

end Metrics
end LeagueAudit
