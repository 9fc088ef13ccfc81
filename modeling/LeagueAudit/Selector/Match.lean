import LeagueAudit.Selector.Basic
import LeagueAudit.Text.Case

/-!
When an entity satisfies a selector. A fixture is seen by one of its participants: `role` and the
attributes of teams refer to that participant, and the venue and the times to its first assignment.
-/
namespace LeagueAudit

/-- An entity presented to a selector. -/
structure Candidate where
  kind : EntityKind
  entity : Json
  /-- The participant that sees the fixture. -/
  teamId : Option String := none
  team : Option Json := none
  venueId : Option String := none
  venue : Option Json := none
  assignment : Option Assignment := none

/-- The tags that a document lists, as text. -/
def tagsOf (doc : Json) : Except Fault (List String) := do
  .ok ((← (doc.field "tags").listedOrNone).map Json.sealedText)

namespace Candidate

def id? (c : Candidate) : Option String := (c.entity.field "id").notNull?.map Json.sealedText

/-- The ids that an id criterion looks for. -/
def ids (c : Candidate) : List String :=
  let own := c.id?.toList
  if c.kind = .fixture then own ++ c.teamId.toList ++ c.venueId.toList else own

/-- The tags of the entity; a fixture also has those of its team and of its venue. -/
def tags (c : Candidate) : Except Fault (List String) := do
  let docs :=
    if c.kind = .fixture then [c.entity, c.team.getD .null, c.venue.getD .null] else [c.entity]
  .ok (← docs.mapM tagsOf).flatten

/-- The value of a member of the entity itself, else, for a fixture, of the given document. -/
def memberOr (c : Candidate) (name : String) (other : Option Json) : Json :=
  let own := c.entity.field name
  if c.kind = .fixture && own.isNull then (other.getD .null).field name else own

/-- The value of an attribute: a fixture takes what it lacks from its team or its venue. -/
def valueOf (c : Candidate) : Attribute → Json
  | .division => c.memberOr "division" c.team
  | .ageGroup => c.memberOr "ageGroup" c.team
  | .venueType => c.memberOr "venueType" c.venue
  | .phase => c.memberOr "phase" none

def measure (c : Candidate) : Measure → Json
  | .capacity => c.memberOr "capacity" c.venue
  | .round => c.memberOr "round" none

end Candidate

/-- The team that a fixture names for a side, else the participant in that place. -/
def sideOf (fixture : Json) (side : Side) (participants : List Json) : Json :=
  match side with
  | .home => (fixture.field "homeTeamId").orElse ((participants[0]?).getD .null)
  | .away => (fixture.field "awayTeamId").orElse ((participants[1]?).getD .null)

/-- A number lies within bounds, of which null is none. -/
def withinBounds (value min max : Json) : Bool :=
  compareNumbers value min != some .lt && compareNumbers value max != some .gt

namespace Leaf

/-- An instant is not before, or with `isEnd` not after, a bound. -/
def meetsBound (z : Zone) (isEnd : Bool) (instant : Int) : Option String → Except Fault Bool
  | none => .ok true
  | some bound => do
    match ← readBound z isEnd (.str bound) with
    | some limit => .ok (if isEnd then instant ≤ limit else limit ≤ instant)
    | none => .error (.notComparable "'<' not supported between instances of 'int' and 'NoneType'")

/-- Whether a candidate of a kind that the criterion bears on satisfies it. -/
def test (z : Zone) (c : Candidate) : Leaf → Except Fault Bool
  | ids values => .ok (c.ids.any values.contains)
  | tags values => do
    let own ← c.tags
    .ok (values.all own.contains)
  | among field values => .ok (values.any (c.valueOf field).same)
  | exactly field value => .ok ((c.measure field).same value)
  | between field min max =>
    let own := c.measure field
    let own := if own.isNull && field = .capacity then .int 0 else own
    .ok (own.isNumber && withinBounds own min max)
  | dateRange start finish =>
    match c.assignment.bind Assignment.span? with
    | none => .ok false
    | some (s, f) => do
      if ← meetsBound z false s start then meetsBound z true f finish else .ok false
  | dayOfWeek days =>
    match c.assignment.bind (·.parts) with
    | none => .ok false
    | some parts => .ok (days.contains (Text.lower parts.weekday))
  | role side =>
    match c.teamId with
    | none => .ok false
    | some team => do
      let participants ← (c.entity.field "participants").listedOrNone
      .ok ((sideOf c.entity side participants).isText team)

/-- Whether a candidate satisfies the criterion, which is true where it does not bear. -/
def holds (z : Zone) (c : Candidate) (leaf : Leaf) : Except Fault Bool :=
  if leaf.bearsOn c.kind then leaf.test z c else .ok true

end Leaf

namespace Selector

mutual

/-- Whether a candidate satisfies a selector. Children are tried in order, and only as far as they
decide. -/
def matchesOne (z : Zone) (c : Candidate) : Selector → Except Fault Bool
  | wildcard => .ok true
  | allOf children => matchesAll z c children
  | anyOf children => matchesAny z c children
  | not child => do .ok (!(← matchesOne z c child))
  | entityScope kind inner => if c.kind = kind then matchesOne z c inner else .ok true
  | leaf criterion => criterion.holds z c

def matchesAll (z : Zone) (c : Candidate) : List Selector → Except Fault Bool
  | [] => .ok true
  | s :: rest => do if ← matchesOne z c s then matchesAll z c rest else .ok false

def matchesAny (z : Zone) (c : Candidate) : List Selector → Except Fault Bool
  | [] => .ok false
  | s :: rest => do if ← matchesOne z c s then .ok true else matchesAny z c rest

end

end Selector
end LeagueAudit
