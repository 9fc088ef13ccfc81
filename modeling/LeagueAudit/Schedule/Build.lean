import LeagueAudit.Schedule.Index

/-!
Building the schedule index from documents of any shape. Whatever is wrong with an entity or an
assignment is recorded as an issue; numbers and dates beyond their ranges are faults.
-/
namespace LeagueAudit

/-- A duration in minutes. -/
inductive Minutes where
  | whole (n : Int)
  | real (x : Float)

/-- A duration in milliseconds, rounded. -/
def Minutes.millis : Minutes → Except Fault Int
  | whole n => .ok (n * msPerMinute)
  | real x => roundToInt (x * 60000.0)

/-- The whole minutes of a duration. -/
def Minutes.truncated : Minutes → Except Fault Int
  | whole n => .ok n
  | real x => truncateToInt x

/-- The double of a positive number, none of anything else. -/
def positiveNumber? : Json → Except Fault (Option Float)
  | .int n => if n > 0 then do .ok (some (← intToFloat n)) else .ok none
  | .float x => .ok (if x > 0.0 then some x else none)
  | _ => .ok none

/-- The minutes that a document declares, else the given ones. -/
def minutesOr (default : Minutes) (declared : Json) : Except Fault Minutes := do
  match ← positiveNumber? declared with
  | some x => .ok (.real x)
  | none => .ok default

namespace Index

/-- The declared zone of an instance. -/
def declaredZone (league : Json) : Json :=
  (league.field "timezone").orElse ((league.field "metadata").field "timezone")

/-- The list of entities of a kind, at the top level or under `entities`. -/
def entityList (league : Json) (key : String) : List Json :=
  match league.field key with
  | .arr items => items
  | _ => ((league.field "entities").field key).items

/-- An entity that declares an id. -/
def hasId (item : Json) : Bool := (item.field "id").truthy

/-- The entities by id, the first of each id counting, from a position on. -/
def collect (kind : EntityKind) (position : Nat) (found : Entities) :
    List Json → Entities × List Issue
  | [] => (found, [])
  | item :: rest =>
    if hasId item then
      let id := (item.field "id").text
      let found := if (found.lookup id).isSome then found else found ++ [(id, item)]
      collect kind (position + 1) found rest
    else
      let (found, issues) := collect kind (position + 1) found rest
      (found, ⟨.malformedEntity, s!"{kind.name} #{position} has no id", none⟩ :: issues)

/-- The text of a member that is not null. -/
def textMember (doc : Json) (key : String) : Option String := (doc.field key).notNull?.map Json.text

/-- The end of an assignment: as declared, else the start plus a duration. -/
def finishOf (z : Zone) (default : Minutes) (fixture : Option Json) (raw : Json)
    (start : Option Int) : Except Fault (Option Int) :=
  match readInstant? z (raw.field "endTime") with
  | some finish => .ok (some finish)
  | none =>
    match start with
    | none => .ok none
    | some s => do
      let minutes ← minutesOr default ((fixture.getD .null).field "durationMinutes")
      .ok (some (s + (← minutes.millis)))

/-- Reads one assignment, with what is wrong with it. -/
def annotate (z : Zone) (default : Minutes) (fixtures : Entities) (position : Nat) (raw : Json) :
    Except Fault (Assignment × List Issue) := do
  let id := (raw.field "fixtureId").text
  let fixture := fixtures.lookup id
  let start := readInstant? z (raw.field "startTime")
  let endDeclared := (raw.field "endTime").notNull?
  let endBad := endDeclared.isSome && (readInstant? z (raw.field "endTime")).isNone
  let finish ← finishOf z default fixture raw start
  let parts ←
    match start with
    | some s => do .ok (some (← localParts z s))
    | none => .ok none
  let startText := (raw.field "startTime").text
  let endText := (raw.field "endTime").text
  let issue (bad : Bool) (kind : IssueKind) (message : String) : List Issue :=
    if bad then [⟨kind, message, some id⟩] else []
  let issues :=
    issue fixture.isNone .unknownFixture
        s!"Assignment references non-existent fixture: '{id}'" ++
      issue start.isNone .invalidStart
        s!"Assignment for fixture '{id}' has invalid startTime: '{startText}'" ++
      issue endBad .invalidEnd
        (s!"Assignment for fixture '{id}' has invalid endTime: '{endText}', " ++
          "using fixture duration")
  .ok
    ({ fixture := id
       venue := textMember raw "venueId"
       start, finish, parts
       resource := textMember raw "resourceId"
       officials := (raw.field "officialIds").items.map Json.text
       position },
      issues)

/-- Reads all assignments from a position on. -/
def annotateAll (z : Zone) (default : Minutes) (fixtures : Entities) (position : Nat) :
    List Json → Except Fault (List Assignment × List Issue)
  | [] => .ok ([], [])
  | raw :: rest =>
    if (raw.field "fixtureId").truthy then do
      let (a, issues) ← annotate z default fixtures position raw
      let (as, more) ← annotateAll z default fixtures (position + 1) rest
      .ok (a :: as, issues ++ more)
    else do
      let (as, more) ← annotateAll z default fixtures (position + 1) rest
      .ok (as, ⟨.malformedAssignment, s!"Assignment #{position} has no fixtureId", none⟩ :: more)

/-- Counts one more occurrence. -/
def countOne (id : String) : List (String × Nat) → List (String × Nat)
  | [] => [(id, 1)]
  | (k, n) :: rest => if k = id then (k, n + 1) :: rest else (k, n) :: countOne id rest

/-- How often each id occurs, in order of first occurrence. -/
def tally (ids : List String) : List (String × Nat) := ids.foldl (fun acc id => countOne id acc) []

/-- Builds the index; `default` minutes and the zone `fallback` stand in where the instance
declares nothing. -/
def build (default : Minutes) (fallback : String) (league result : Json) : Except Fault Index := do
  let declared := declaredZone league
  let (zone, known) ← resolveZone fallback declared
  let zoneIssues : List Issue :=
    if known then []
    else [⟨.unknownTimezone, s!"Unknown timezone '{declared.text}', using {zone.name}", none⟩]
  let minutes ← minutesOr default (league.field "defaultFixtureDuration")
  let (teams, teamIssues) := collect .team 0 [] (entityList league "teams")
  let (venues, venueIssues) := collect .venue 0 [] (entityList league "venues")
  let (fixtures, fixtureIssues) := collect .fixture 0 [] (league.field "fixtures").items
  let (assignments, assignmentIssues) ←
    annotateAll zone minutes fixtures 0 (result.field "assignments").items
  let counts := tally (assignments.map (·.fixture))
  let unassigned :=
    (fixtures.filter fun (id, doc) =>
      (counts.lookup id).isNone && !(doc.field "conditional").truthy).map (·.1)
  .ok
    { league, zone
      defaultMinutes := ← minutes.truncated
      teams, venues, fixtures, assignments
      issues := zoneIssues ++ teamIssues ++ venueIssues ++ fixtureIssues ++ assignmentIssues
      unassigned, counts }

end Index
end LeagueAudit
