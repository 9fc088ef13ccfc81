import LeagueAudit.Fault
import LeagueAudit.Json.Display

/-!
The canonical layout of results: `feasible`, `assignments` and `scores` at the top level. Results in
other known layouts are mapped onto it, with a note for every part that was not in its place.
-/
namespace LeagueAudit

/-- A part that was not in its place. -/
inductive Substitution where
  | nestedFeasible (place : String)
  | inferredFeasible
  | assumedInfeasible
  | mappedAssignments (place : String) (count : Nat)
  | renamedScores (key : String)
  | builtScores
  deriving DecidableEq, Repr

def Substitution.message : Substitution → String
  | nestedFeasible place => s!"Result uses '{place}' instead of top-level 'feasible'"
  | inferredFeasible =>
    "Result missing 'feasible' field, inferred true from presence of schedule data"
  | assumedInfeasible =>
    "Result missing 'feasible' field and schedule data, assumed infeasible"
  | mappedAssignments place count =>
    s!"Result uses '{place}' format instead of 'assignments' array ({count} fixtures mapped)"
  | renamedScores key => s!"Result uses '{key}' instead of 'scores'"
  | builtScores => "Result missing 'scores' object, constructed from available data"

/-- A result in the canonical layout. -/
structure Canonical where
  document : List (String × Json)
  substitutions : List Substitution

namespace Canonical

/-- A value for a member, and the note about it; none when the member is in its place. -/
abbrev Replacement := Option (Json × Substitution)

/-- The feasible flag: as nested, else whether there is schedule data. -/
def feasible (raw : Json) : Replacement :=
  let nested (key : String) : Option Json := ((raw.field key).field "feasible").notNull?
  if raw.has "feasible" then none
  else
    match nested "details", nested "schedule" with
    | some v, _ => some (.bool v.truthy, .nestedFeasible "details.feasible")
    | none, some v => some (.bool v.truthy, .nestedFeasible "schedule.feasible")
    | none, none =>
      if (raw.field "assignments").truthy || ((raw.field "schedule").field "fixtures").truthy then
        some (.bool true, .inferredFeasible)
      else some (.bool false, .assumedInfeasible)

/-- An assignment of another layout; absent members are left out. -/
def assignment (item : Json) : Json :=
  let first (key other : String) : Json := (item.field key).orElse (item.field other)
  let more := ["endTime", "resourceId", "officialIds"].filterMap fun key =>
    if (item.field key).truthy then some (key, item.field key) else none
  let main := [("fixtureId", first "fixtureId" "id"), ("startTime", first "startTime" "dateTime"),
    ("venueId", first "venueId" "venue")]
  if item.isObject then .obj (main.filter (fun (_, v) => !v.isNull) ++ more) else .obj []

/-- The places where other layouts keep assignments. -/
def otherAssignments (raw : Json) : List (String × Json) :=
  [("schedule.fixtures", (raw.field "schedule").field "fixtures"),
    ("scheduledFixtures", raw.field "scheduledFixtures"), ("fixtures", raw.field "fixtures")]

/-- The assignments, mapped from the first place that lists them. -/
def assignments (raw : Json) : Replacement :=
  if (raw.field "assignments").isArray then none
  else
    (otherAssignments raw).findSome? fun (place, items) =>
      match items with
      | .arr items =>
        some (.arr (items.map assignment), .mappedAssignments place items.length)
      | _ => none

/-- A value, or zero when it is not truthy. -/
def orZero (v : Json) : Json := v.orElse (.int 0)

/-- A line of the ledger from a line of another layout. -/
def scoreLine (item : Json) : Json :=
  let name := ((item.field "constraintId").orElse (item.field "id")).orElse (item.field "ruleId")
  let explanation := item.field "explanation"
  .obj ([("constraintId", name), ("violations", orZero (item.field "violations")),
      ("penalty", orZero (item.field "penalty"))] ++
    if explanation.truthy then [("explanation", explanation)] else [])

/-- The scores from whatever totals and lines there are. -/
def builtScores (raw : Json) : Json :=
  let totals := [raw.field "totalPenalty", (raw.field "schedule").field "totalPenalty",
    (raw.field "details").field "totalPenalty"]
  let lines := (raw.field "constraintResults").orElse
    ((raw.field "schedule").field "constraintResults")
  .obj [("totalPenalty", (totals.find? Json.isNumber).getD (.int 0)),
    ("byConstraint", .arr (lines.items.map scoreLine))]

/-- The scores: under another name, or built. -/
def scores (raw : Json) : Replacement :=
  if (raw.field "scores").isObject then none
  else if (raw.field "score").isObject then some (raw.field "score", .renamedScores "score")
  else if (raw.field "scoring").isObject then some (raw.field "scoring", .renamedScores "scoring")
  else some (builtScores raw, .builtScores)

/-- Puts a replacement in its place. -/
def put (key : String) (r : Replacement) (c : Canonical) : Canonical :=
  match r with
  | none => c
  | some (value, substitution) =>
    ⟨Json.setMember key value c.document, c.substitutions ++ [substitution]⟩

def notObject (typeName : String) : Trouble :=
  ⟨.normalization, s!"Result must be a JSON object, got {typeName}", "normalize_result",
    some "Check that the result file contains a single JSON object."⟩

/-- The result in the canonical layout. -/
def ofMembers (members : List (String × Json)) : Canonical :=
  let raw := Json.obj members
  put "scores" (scores raw) (put "assignments" (assignments raw) (put "feasible" (feasible raw)
    ⟨members, []⟩))

/-- Maps a document onto the canonical layout. -/
def read (raw : Json) : Except Trouble Canonical :=
  match raw with
  | .obj members => .ok (ofMembers members)
  | j => .error (notObject j.typeName)

def toJson (c : Canonical) : Json := .obj c.document

def warnings (c : Canonical) : List String := c.substitutions.map Substitution.message

end Canonical
end LeagueAudit
