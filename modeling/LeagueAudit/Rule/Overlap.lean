import LeagueAudit.Rule.Basic
import LeagueAudit.Schedule.Game

/-!
No two games at once: of a team, and at a venue or at one resource of it.
-/
namespace LeagueAudit.Rule

/-- The finding that two games of a team overlap. -/
def teamOverlap (team : String) (a b : Game) : Violation :=
  ⟨s!"Team '{team}' overlap between fixtures '{a.fixture}' and '{b.fixture}'",
    [team, a.fixture, b.fixture]⟩

/-- The overlaps of all teams in scope. -/
def teamOverlaps (index : Index) : Except Fault (List Violation) := do
  .ok ((← teamGames index).flatMap fun (team, games) =>
    (overlapPairs games).map fun (a, b) => teamOverlap team a b)

/-- A team plays at most one game at a time. -/
def noOverlapTeam : Rule where
  id := "no_overlap_team"
  description := "Team plays at most one fixture at a time"
  run ctx := .silent do .ok { violations := ← teamOverlaps ctx.index }

/-- A venue, or one resource of it. -/
structure Place where
  venue : String
  resource : Option String
  deriving DecidableEq, Repr

def Place.text (p : Place) : String :=
  match p.resource with
  | some r => s!"Venue '{p.venue}' resource '{r}'"
  | none => s!"Venue '{p.venue}'"

/-- The place and the slot of an assignment with readable times at a venue in scope. -/
def placedGame (perResource : Bool) (index : Index) (a : Assignment) : Option (Place × Game) := do
  let (start, finish) ← a.span?
  let venue ← a.venue
  if index.venueInScope (some venue) then
    some (⟨venue, if perResource then a.resource else none⟩, ⟨start, finish, a.fixture⟩)
  else none

/-- The games of every place, in order. -/
def placeGames (perResource : Bool) (index : Index) : List (Place × List Game) :=
  groupGames (index.assignments.filterMap (placedGame perResource index))

/-- The finding that two games at a place overlap. -/
def placeOverlap (place : Place) (a b : Game) : Violation :=
  ⟨s!"{place.text} overlap between fixtures '{a.fixture}' and '{b.fixture}'",
    [place.venue, a.fixture, b.fixture]⟩

def placeOverlaps (perResource : Bool) (index : Index) : List Violation :=
  (placeGames perResource index).flatMap fun (place, games) =>
    (overlapPairs games).map fun (a, b) => placeOverlap place a b

/-- A venue hosts at most one game at a time; with `per_resource` each resource of it does. -/
def noOverlapVenueResource : Rule where
  id := "no_overlap_venue_resource"
  description := "Venue resource hosts at most one fixture at a time"
  run ctx :=
    let perResource := (ctx.param? "per_resource").any Json.truthy
    .silent (.ok { violations := placeOverlaps perResource ctx.index })

end LeagueAudit.Rule
