import LeagueAudit.Selector.Match

/-!
Scoping an index by a selector. The part of the selector that bears on teams picks the teams, the
part that bears on venues picks the venues, and a fixture is kept when one of its participants
sees it satisfy the whole selector.
-/
namespace LeagueAudit

/-- The tags of all entities of a kind. -/
def Index.knownTags (index : Index) (kind : EntityKind) : Except Fault (List String) := do
  .ok (← (index.entities kind).mapM fun (_, doc) => tagsOf doc).flatten

/-- The tags of a kind, once the tags of every kind are read. -/
def Index.tagsOfKind (index : Index) (kind : EntityKind) : Except Fault (List String) := do
  let teams ← index.knownTags .team
  let venues ← index.knownTags .venue
  let fixtures ← index.knownTags .fixture
  .ok (match kind with
    | .team => teams
    | .venue => venues
    | .fixture => fixtures)

/-- Whether a criterion can restrict entities of a kind: it bears on them, and ids and tags name
one that the kind knows. -/
def Leaf.restricts (index : Index) (kind : EntityKind) (leaf : Leaf) : Except Fault Bool :=
  match leaf with
  | ids values => .ok (kind = .fixture || values.any (index.entities kind).ids.contains)
  | tags values =>
    if kind = .fixture then .ok true
    else do
      let known ← index.tagsOfKind kind
      .ok (values.any known.contains)
  | other => .ok (other.bearsOn kind)

namespace Selector

/-- A conjunction of restrictions, of which a single one stands for itself. -/
def conjunction : List Selector → Option Selector
  | [] => none
  | [one] => some one
  | many => some (allOf many)

mutual

/-- The part of a selector that can restrict entities of a kind; none restricts nothing. -/
def project (index : Index) (kind : EntityKind) : Selector → Except Fault (Option Selector)
  | wildcard => .ok none
  | allOf children => do .ok (conjunction ((← projectAll index kind children).filterMap fun p => p))
  | anyOf children => do
    let parts ← projectAll index kind children
    .ok (if parts.any Option.isNone then none else some (anyOf (parts.filterMap fun p => p)))
  | not child => do .ok ((← project index kind child).map not)
  | entityScope scope inner => .ok (if scope = kind then some inner else none)
  | leaf criterion => do
    .ok (if ← criterion.restricts index kind then some (leaf criterion) else none)

def projectAll (index : Index) (kind : EntityKind) :
    List Selector → Except Fault (List (Option Selector))
  | [] => .ok []
  | s :: rest => do .ok ((← project index kind s) :: (← projectAll index kind rest))

end

end Selector

namespace Index

/-- The first assignment of a fixture. -/
def assignmentOf (index : Index) (fixture : String) : Option Assignment :=
  index.assignments.find? (·.fixture == fixture)

/-- A fixture as each of its participants sees it; without participants it is seen once. -/
def fixtureCandidates (index : Index) (fixture : String) (doc : Json) :
    Except Fault (List Candidate) := do
  let assignment := index.assignmentOf fixture
  let venueId := assignment.bind (·.venue)
  let venue := venueId.bind fun v => if v.isEmpty then none else index.venues.lookup v
  let base : Candidate := { kind := .fixture, entity := doc, venueId, venue, assignment }
  match ← index.participants fixture with
  | [] => .ok [base]
  | participants =>
    .ok (participants.map fun t => { base with teamId := some t, team := index.teams.lookup t })

/-- The ids of the entities that pass a test. -/
def idsWhere (entities : Entities) (test : String → Json → Except Fault Bool) :
    Except Fault (List String) := do
  let kept : Entities ← entities.filterM fun (id, doc) => test id doc
  .ok kept.ids

/-- The ids of the teams or venues that satisfy a restriction; none when there is none. -/
def select (index : Index) (kind : EntityKind) :
    Option Selector → Except Fault (Option (List String))
  | none => .ok none
  | some s => do
    .ok (some (← idsWhere (index.entities kind) fun _ doc =>
      s.matchesOne index.zone { kind, entity := doc }))

/-- Some candidate satisfies a selector. -/
def someMatches (z : Zone) (s : Selector) : List Candidate → Except Fault Bool
  | [] => .ok false
  | c :: rest => do if ← s.matchesOne z c then .ok true else someMatches z s rest

/-- The scope of a selector in negation normal form. -/
def scopeNormal (index : Index) (s : Selector) : Except Fault Index := do
  let teams ← index.select .team (← s.project index .team)
  let venues ← index.select .venue (← s.project index .venue)
  let fixtures ← idsWhere index.fixtures fun id doc => do
    someMatches index.zone s (← index.fixtureCandidates id doc)
  .ok (index.restrict teams venues (some fixtures))

/-- The scope of a selector for one kind: fixtures follow their participants or their venues. -/
def scopeKind (index : Index) (kind : EntityKind) (inner : Selector) : Except Fault Index := do
  let ids ← idsWhere (index.entities kind) fun _ doc =>
    inner.matchesOne index.zone { kind, entity := doc }
  match kind with
  | .team =>
    let fixtures ← idsWhere index.fixtures fun id _ => do
      .ok ((← index.participants id).any ids.contains)
    .ok (index.restrict (some ids) none (some fixtures))
  | .venue =>
    let fixtures := (index.assignments.filter fun a => a.venue.any ids.contains).map (·.fixture)
    .ok (index.restrict none (some ids) (some fixtures))
  | .fixture => .ok (index.restrict none none (some ids))

/-- The index limited to what a selector is about. -/
def scope (index : Index) : Selector → Except Fault Index
  | .wildcard => .ok index
  | .entityScope kind inner => index.scopeKind kind inner
  | s => index.scopeNormal s.toNormalForm

end Index
end LeagueAudit
