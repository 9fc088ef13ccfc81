import LeagueAudit.Rule.Basic

/-!
Balance of home and away games: for each declared team the two counts differ by at most a given
number.
-/
namespace LeagueAudit.Rule

/-- The home and the away team of a fixture: as it says, else its first two participants. -/
def sidesOf (fixture : Json) (participants : List String) : Option String × Option String :=
  let side (key : String) (place : Nat) : Option String :=
    let named := fixture.field key
    if named.truthy then some named.sealedText
    else (participants[place]?).filter (!·.isEmpty)
  (side "homeTeamId" 0, side "awayTeamId" 1)

/-- The sides of the fixture of every assignment; unknown fixtures have none. -/
def allSides (index : Index) : Except Fault (List (Option String × Option String)) :=
  index.assignments.mapM fun a =>
    match index.fixture? a.fixture with
    | none => .ok (none, none)
    | some fixture => do .ok (sidesOf fixture (← index.participants a.fixture))

/-- The home and the away games of a team. -/
def gamesOf (sides : List (Option String × Option String)) (team : String) : Nat × Nat :=
  (sides.countP fun s => s.1 == some team, sides.countP fun s => s.2 == some team)

/-- The distance of two counts. -/
def distance (a b : Nat) : Nat := max a b - min a b

/-- By how much a distance exceeds a limit. -/
def excess (maxDelta : Float) (delta : Nat) : Float :=
  let beyond := delta.toFloat - maxDelta
  if beyond > 0.0 then beyond else 0.0

def balanceViolation (maxDelta : Float) (team : String) (home away : Nat) : Violation :=
  let delta := distance home away
  ⟨s!"Team '{team}' home/away delta={delta} exceeds max_delta={amountText maxDelta} " ++
      s!"by {amountText (excess maxDelta delta)} (home={home}, away={away})",
    [team]⟩

/-- The teams over the limit with their counts. -/
def unbalanced (maxDelta : Float) (teams : List String)
    (sides : List (Option String × Option String)) : List (String × Nat × Nat) :=
  (teams.map fun team => (team, gamesOf sides team)).filter fun (_, home, away) =>
    excess maxDelta (distance home away) > 0.0

def balanceOutcome (maxDelta : Float) (rows : List (String × Nat × Nat)) : Outcome where
  violations := rows.map fun (team, home, away) => balanceViolation maxDelta team home away
  amount := (rows.map fun (_, home, away) => excess maxDelta (distance home away)).foldl (· + ·) 0.0
  count := some rows.length
  explanation := some
    (if rows.isEmpty then "Home/away balance within limits"
      else "Some teams exceed home/away delta")

/-- Home and away games of each team in scope are balanced. -/
def homeAwayBalance : Rule where
  id := "home_away_balance"
  kind := .soft
  description := "Balanced number of home and away fixtures per team"
  run ctx := .silent do
    let maxDelta ← ctx.number "max_delta" 0.0
    let sides ← allSides ctx.index
    .ok (balanceOutcome maxDelta (unbalanced maxDelta ctx.index.teams.ids sides))

end LeagueAudit.Rule
