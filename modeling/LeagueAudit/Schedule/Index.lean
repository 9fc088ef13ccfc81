import LeagueAudit.Json.Listing
import LeagueAudit.Time.Instant

/-!
The schedule index: one instance document and one result document, with every time read once. A
restricted index keeps some entities; its assignments are those of the fixtures it keeps.
-/
namespace LeagueAudit

/-- What a diagnostic is about. -/
inductive IssueKind where
  | unknownFixture | invalidStart | invalidEnd | unknownTimezone
  | malformedAssignment | malformedEntity
  deriving DecidableEq, Repr

/-- The name of a kind of diagnostic. -/
def IssueKind.name : IssueKind → String
  | unknownFixture => "unknown_fixture"
  | invalidStart => "invalid_start"
  | invalidEnd => "invalid_end"
  | unknownTimezone => "unknown_timezone"
  | malformedAssignment => "malformed_assignment"
  | malformedEntity => "malformed_entity"

/-- A diagnostic of the index. -/
structure Issue where
  kind : IssueKind
  message : String
  fixture : Option String := none
  deriving DecidableEq, Repr

/-- One entry of the result's assignments, with its times in milliseconds. -/
structure Assignment where
  fixture : String
  venue : Option String
  start : Option Int
  finish : Option Int
  /-- The clocks of the league at the start. -/
  parts : Option LocalParts
  resource : Option String
  officials : List String
  /-- The place in the result's list. -/
  position : Nat
  deriving DecidableEq, Repr

namespace Assignment

/-- Both times, when both can be read. -/
def span? (a : Assignment) : Option (Int × Int) :=
  match a.start, a.finish with
  | some s, some f => some (s, f)
  | _, _ => none

/-- Both times can be read. -/
def timed (a : Assignment) : Bool := a.span?.isSome

/-- The time from start to end. -/
def duration? (a : Assignment) : Option Int := a.span?.map fun (s, f) => f - s

end Assignment

/-- Entities by id, in document order; no id occurs twice. -/
abbrev Entities := List (String × Json)

/-- The ids of entities. -/
def Entities.ids (es : Entities) : List String := es.map (·.1)

/-- The kinds of entities. -/
inductive EntityKind where
  | team | venue | fixture
  deriving DecidableEq, Repr

def EntityKind.name : EntityKind → String
  | team => "team"
  | venue => "venue"
  | fixture => "fixture"

/-- The index of one instance and one result. -/
structure Index where
  /-- The instance document. -/
  league : Json
  zone : Zone
  /-- Minutes of a fixture that declares no duration. -/
  defaultMinutes : Int
  teams : Entities
  venues : Entities
  fixtures : Entities
  assignments : List Assignment
  issues : List Issue
  /-- Declared fixtures that nobody scheduled and that must be. -/
  unassigned : List String
  /-- How often each fixture is assigned, in order of first mention. -/
  counts : List (String × Nat)
  /-- Whether the index was limited to some entities. -/
  restricted : Bool := false
  excludedTeams : List String := []
  excludedVenues : List String := []

/-- The entities of a kind. -/
def Index.entities (index : Index) : EntityKind → Entities
  | .team => index.teams
  | .venue => index.venues
  | .fixture => index.fixtures

/-- The participants that a fixture document lists, as text. -/
def participantsOf (fixture : Json) : Except Fault (List String) := do
  .ok ((← (fixture.field "participants").listedOrNone).map Json.sealedText)

namespace Index

/-- Participants that are no declared teams are never scoped out. -/
def teamInScope (index : Index) (team : String) : Bool := !index.excludedTeams.contains team

def venueInScope (index : Index) : Option String → Bool
  | none => true
  | some v => !index.excludedVenues.contains v

def fixture? (index : Index) (fixture : String) : Option Json := index.fixtures.lookup fixture

/-- The participants of a fixture, none of an unknown one. -/
def participants (index : Index) (fixture : String) : Except Fault (List String) :=
  match index.fixture? fixture with
  | some doc => participantsOf doc
  | none => .ok []

/-- How often a fixture is assigned. -/
def countOf (index : Index) (fixture : String) : Nat := (index.counts.lookup fixture).getD 0

/-- The elements of both lists, each once when each list holds each once. -/
def union (xs ys : List String) : List String := xs ++ ys.filter fun y => !xs.contains y

/-- Keeps the entities with the given ids; none keeps all. -/
def keep (es : Entities) : Option (List String) → Entities
  | none => es
  | some ids => es.filter fun (id, _) => ids.contains id

/-- The ids that are not kept. -/
def dropped (es : Entities) : Option (List String) → List String
  | none => []
  | some ids => es.ids.filter fun id => !ids.contains id

/-- The index limited to the given ids; none leaves a kind as it is. Assignments are limited to the
fixtures that remain. -/
def restrict (index : Index) (teams venues fixtures : Option (List String)) : Index :=
  let kept := fixtures.getD index.fixtures.ids
  { index with
    teams := keep index.teams teams
    venues := keep index.venues venues
    fixtures := keep index.fixtures fixtures
    assignments := index.assignments.filter fun a => kept.contains a.fixture
    restricted := true
    excludedTeams := union index.excludedTeams (dropped index.teams teams)
    excludedVenues := union index.excludedVenues (dropped index.venues venues) }

end Index
end LeagueAudit
