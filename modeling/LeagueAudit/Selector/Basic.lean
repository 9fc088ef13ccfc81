import LeagueAudit.Schedule.Index

/-!
Selectors: trees that say which teams, venues and fixtures a constraint is about. A leaf tests one
criterion; a leaf that does not bear on a kind of entity is true of it.
-/
namespace LeagueAudit

/-- The attributes that are compared with listed values. -/
inductive Attribute where
  | division | ageGroup | venueType | phase
  deriving DecidableEq, Repr

def Attribute.name : Attribute → String
  | division => "division"
  | ageGroup => "ageGroup"
  | venueType => "venueType"
  | phase => "phase"

/-- The attributes that are compared with bounds. -/
inductive Measure where
  | capacity | round
  deriving DecidableEq, Repr

def Measure.name : Measure → String
  | capacity => "capacity"
  | round => "round"

/-- The sides of a fixture. -/
inductive Side where
  | home | away
  deriving DecidableEq, Repr

def Side.name : Side → String
  | home => "home"
  | away => "away"

/-- A criterion. -/
inductive Leaf where
  /-- One of the ids; a fixture also has the id of its team and of its venue. -/
  | ids (values : List String)
  /-- All of the tags; a fixture also has the tags of its team and of its venue. -/
  | tags (values : List String)
  /-- One of the values. -/
  | among (field : Attribute) (values : List Json)
  /-- The exact value. -/
  | exactly (field : Measure) (value : Json)
  /-- Bounds that belong to the range; null is no bound. -/
  | between (field : Measure) (min max : Json)
  /-- Starts at or after a bound and ends at or before one. -/
  | dateRange (start finish : Option String)
  | dayOfWeek (days : List String)
  | role (side : Side)

/-- The kinds of entities that a criterion bears on. -/
def Leaf.kinds : Leaf → List EntityKind
  | ids _ => [.team, .venue, .fixture]
  | tags _ => [.team, .venue, .fixture]
  | among .division _ => [.team, .fixture]
  | among .ageGroup _ => [.team, .fixture]
  | among .venueType _ => [.venue, .fixture]
  | among .phase _ => [.fixture]
  | exactly .capacity _ => [.venue, .fixture]
  | exactly .round _ => [.fixture]
  | between .capacity _ _ => [.venue, .fixture]
  | between .round _ _ => [.fixture]
  | dateRange _ _ => [.fixture]
  | dayOfWeek _ => [.fixture]
  | role _ => [.fixture]

def Leaf.bearsOn (leaf : Leaf) (kind : EntityKind) : Bool := leaf.kinds.contains kind

/-- A selector. -/
inductive Selector where
  | wildcard
  | allOf (children : List Selector)
  | anyOf (children : List Selector)
  | not (child : Selector)
  /-- Restricts one kind of entity; the other kinds follow from it. -/
  | entityScope (kind : EntityKind) (inner : Selector)
  | leaf (criterion : Leaf)
  deriving Inhabited

namespace Selector

mutual

/-- The selector, or with `negated` its negation, with negations directly above leaves only. -/
def normal (negated : Bool) : Selector → Selector
  | wildcard => if negated then anyOf [] else wildcard
  | allOf children =>
    if negated then anyOf (normalAll true children) else allOf (normalAll false children)
  | anyOf children =>
    if negated then allOf (normalAll true children) else anyOf (normalAll false children)
  | not child => normal (!negated) child
  | entityScope kind inner =>
    if negated then not (entityScope kind inner) else entityScope kind (normal false inner)
  | leaf criterion => if negated then not (leaf criterion) else leaf criterion

def normalAll (negated : Bool) : List Selector → List Selector
  | [] => []
  | s :: rest => normal negated s :: normalAll negated rest

end

/-- The negation normal form. -/
def toNormalForm (s : Selector) : Selector := normal false s

end Selector
end LeagueAudit
