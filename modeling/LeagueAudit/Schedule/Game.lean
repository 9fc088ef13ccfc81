import LeagueAudit.Schedule.Index

/-!
Games: the time slots of assignments as a team, a venue or a pair of opponents sees them. Games are
kept in order of start, then of fixture, and overlapping pairs are found in one sweep.
-/
namespace LeagueAudit

/-- A time slot. -/
structure Game where
  start : Int
  finish : Int
  fixture : String
  deriving DecidableEq, Repr

/-- Slots share an instant; the end of a slot does not belong to it. -/
def Game.overlaps (a b : Game) : Bool := a.start < b.finish && b.start < a.finish

/-- The order of games: by start, then by fixture. -/
def Game.before (a b : Game) : Bool :=
  a.start < b.start || (a.start == b.start && decide (a.fixture ≤ b.fixture))

/-- Games in order. -/
def inOrder (games : List Game) : List Game := games.mergeSort Game.before

/-- Adds a value to the group of a key. -/
def addToGroup {κ α : Type} [BEq κ] (key : κ) (value : α) : List (κ × List α) → List (κ × List α)
  | [] => [(key, [value])]
  | (k, vs) :: rest =>
    if k == key then (k, vs ++ [value]) :: rest else (k, vs) :: addToGroup key value rest

/-- Values by key, in order of first occurrence. -/
def grouped {κ α : Type} [BEq κ] (items : List (κ × α)) : List (κ × List α) :=
  items.foldl (fun acc (k, v) => addToGroup k v acc) []

/-- Games by key, each group in order. -/
def groupGames {κ : Type} [BEq κ] (items : List (κ × Game)) : List (κ × List Game) :=
  (grouped items).map fun (k, games) => (k, inOrder games)

/-- The games that overlap the first one, looking no further than its end. -/
def overlapping (first : Game) (later : List Game) : List Game :=
  (later.takeWhile fun g => g.start < first.finish).filter first.overlaps

/-- Every overlapping pair of games in order, the earlier one first. -/
def overlapPairs : List Game → List (Game × Game)
  | [] => []
  | first :: later => (overlapping first later).map (first, ·) ++ overlapPairs later

/-- Neighbouring games. -/
def neighbours (games : List Game) : List (Game × Game) := games.zip (games.drop 1)

/-- The games of one assignment, one for each participant in scope. -/
def participantGames (index : Index) (a : Assignment) : Except Fault (List (String × Game)) :=
  match a.span? with
  | none => .ok []
  | some (start, finish) => do
    let teams ← index.participants a.fixture
    .ok ((teams.filter index.teamInScope).map fun team => (team, ⟨start, finish, a.fixture⟩))

/-- The games of every participant in scope, in order. Assignments without readable times and of
unknown fixtures are left out. -/
def teamGames (index : Index) : Except Fault (List (String × List Game)) := do
  let games ← index.assignments.mapM (participantGames index)
  .ok (groupGames games.flatten)

end LeagueAudit
