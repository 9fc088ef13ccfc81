import LeagueAudit.Rule.Basic
import LeagueAudit.Schedule.Game
import LeagueAudit.Text.Order

/-!
Games in a rolling window: in any period of a given length a team starts at most so many games. A
burst of games is reported when a game pushes a window over the limit, not again for every window
inside it.
-/
namespace LeagueAudit.Rule

/-- The games that start in the window that opens with the first one. -/
def windowOf (inWindow : Game → Game → Bool) (first : Game) (later : List Game) : List Game :=
  (first :: later).takeWhile (inWindow first)

/-- The windows with more than `limit` games that reach further than every reported one. `position`
counts the games before these, `covered` those that reported windows reach. -/
def bursts (inWindow : Game → Game → Bool) (limit : Nat) (position covered : Nat) :
    List Game → List (List Game)
  | [] => []
  | first :: later =>
    let games := windowOf inWindow first later
    let reach := position + games.length
    if games.length > limit && reach > covered then
      games :: bursts inWindow limit (position + 1) reach later
    else bursts inWindow limit (position + 1) covered later

/-- A game starts less than a window of days after the first one. -/
def startsWithin (windowDays : Float) (first game : Game) : Bool :=
  intLtFloat game.start (Float.ofInt first.start + windowDays * msPerDay.toFloat)

def burstViolation (limit : Nat) (windowDays : Float) (team : String) (games : List Game) :
    Violation :=
  let fixtures := games.map (·.fixture)
  ⟨s!"Team '{team}' plays {games.length} fixtures within {amountText windowDays} days " ++
      s!"(max {limit}): {Text.commaJoined fixtures}",
    team :: fixtures⟩

def burstViolations (limit : Nat) (windowDays : Float) (index : Index) :
    Except Fault (List Violation) := do
  .ok ((← teamGames index).flatMap fun (team, games) =>
    (bursts (startsWithin windowDays) limit 0 0 games).map (burstViolation limit windowDays team))

/-- A limit of games per team in a rolling window; limit and window must be positive. -/
def maxGamesInWindow : Rule where
  id := "max_games_in_window"
  description := "Maximum number of fixtures per team in a rolling window"
  run ctx := .silent do
    let limit ← truncateToInt (← ctx.number "max_games" 0.0)
    let windowDays ← ctx.number "window_days" 7.0
    if limit ≤ 0 || windowDays ≤ 0.0 then
      .ok { explanation := some "max_games/window_days not positive (nothing enforced)" }
    else .ok { violations := ← burstViolations limit.toNat windowDays ctx.index }

end LeagueAudit.Rule
