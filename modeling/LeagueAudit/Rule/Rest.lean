import LeagueAudit.Rule.Basic
import LeagueAudit.Schedule.Game

/-!
Rest of teams: between consecutive games a team has at least a given time, measured from the end of
the earlier game to the start of the later one.
-/
namespace LeagueAudit.Rule

/-- Milliseconds as hours. -/
def hoursOf (ms : Int) : Float := nearestFloat (ms < 0) ms.natAbs msPerHour

/-- The time from the end of a game to the start of another one. -/
def restBetween (a b : Game) : Int := b.start - a.finish

/-- Consecutive games with too short a rest. -/
def shortRests (tooShort : Int → Bool) (games : List Game) : List (Game × Game) :=
  (neighbours games).filter fun (a, b) => tooShort (restBetween a b)

def restViolation (minHours : Float) (team : String) (a b : Game) : Violation :=
  ⟨s!"Team '{team}' rest violation: {hundredthsText (hoursOf (restBetween a b))}h between " ++
      s!"'{a.fixture}' and '{b.fixture}' (min {amountText minHours}h)",
    [team, a.fixture, b.fixture]⟩

/-- A rest of exactly the minimum is accepted. -/
def isShortRest (minHours : Float) (rest : Int) : Bool :=
  intLtFloat rest (minHours * msPerHour.toFloat)

def restViolations (minHours : Float) (index : Index) : Except Fault (List Violation) := do
  .ok ((← teamGames index).flatMap fun (team, games) =>
    (shortRests (isShortRest minHours) games).map fun (a, b) => restViolation minHours team a b)

/-- Minimum rest of teams; without a positive minimum there is nothing to check. -/
def minRestTime : Rule where
  id := "min_rest_time"
  description := "Minimum rest between consecutive fixtures of a team"
  run ctx := .silent do
    let minHours ← ctx.number "min_hours" 0.0
    if minHours ≤ 0.0 then .ok { explanation := some "min_hours <= 0 (no rest enforced)" }
    else .ok { violations := ← restViolations minHours ctx.index }

end LeagueAudit.Rule
