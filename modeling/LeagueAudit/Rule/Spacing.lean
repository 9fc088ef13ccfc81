import LeagueAudit.Rule.Basic
import LeagueAudit.Schedule.Game

/-!
Spacing of opponents: meetings of the same two teams start at least so many days apart. Each short
gap counts once and adds what is missing, in days.
-/
namespace LeagueAudit.Rule

/-- Two opponents in order. -/
structure Opponents where
  first : String
  second : String
  deriving DecidableEq, Repr

def Opponents.of (a b : String) : Opponents := if b < a then ⟨b, a⟩ else ⟨a, b⟩

/-- The opponents of an assignment with a readable start, when one of them is in scope. A meeting is
a game without length. -/
def meeting? (index : Index) (a : Assignment) : Except Fault (Option (Opponents × Game)) := do
  match a.start, ← index.participants a.fixture with
  | some start, t1 :: t2 :: _ =>
    let pair := Opponents.of t1 t2
    .ok (if index.teamInScope t1 || index.teamInScope t2 then
      some (pair, ⟨start, start, a.fixture⟩) else none)
  | _, _ => .ok none

/-- The meetings of every pair, in order. -/
def meetings (index : Index) : Except Fault (List (Opponents × List Game)) := do
  .ok (groupGames ((← index.assignments.mapM (meeting? index)).filterMap fun m => m))

/-- The time from the start of a game to the start of another one. -/
def gapBetween (a b : Game) : Int := b.start - a.start

/-- Consecutive meetings that are too close. -/
def shortGaps (tooShort : Int → Bool) (games : List Game) : List (Game × Game) :=
  (neighbours games).filter fun (a, b) => tooShort (gapBetween a b)

/-- What a gap lacks, in days. -/
def missingDays (minDays : Float) (gap : Int) : Float :=
  (minDays * msPerDay.toFloat - Float.ofInt gap) / msPerDay.toFloat

def isShortGap (minDays : Float) (gap : Int) : Bool := intLtFloat gap (minDays * msPerDay.toFloat)

def spacingViolation (minDays : Float) (pair : Opponents) (a b : Game) : Violation :=
  ⟨s!"Opponent spacing violation for pair '{pair.first}::{pair.second}': " ++
      s!"'{a.fixture}' to '{b.fixture}' short by " ++
      s!"{hundredthsText (missingDays minDays (gapBetween a b))} days (min {amountText minDays})",
    [pair.first, pair.second, a.fixture, b.fixture]⟩

/-- The short gaps of all pairs. -/
def allShortGaps (minDays : Float) (index : Index) :
    Except Fault (List (Opponents × Game × Game)) := do
  .ok ((← meetings index).flatMap fun (pair, games) =>
    (shortGaps (isShortGap minDays) games).map fun (a, b) => (pair, a, b))

/-- What short gaps lack, in days. -/
def shortfalls (minDays : Float) (gaps : List (Opponents × Game × Game)) : List Float :=
  gaps.map fun (_, a, b) => missingDays minDays (gapBetween a b)

def spacingOutcome (sum : List Float → Float) (minDays : Float)
    (gaps : List (Opponents × Game × Game)) : Outcome where
  violations := gaps.map fun (pair, a, b) => spacingViolation minDays pair a b
  amount := sum (shortfalls minDays gaps)
  count := some gaps.length
  explanation := some
    (if gaps.isEmpty then "Opponent spacing within limits"
      else "Some pairs played too close together")

/-- Minimum days between meetings; without a positive minimum there is nothing to check. What all
gaps lack is added up by `sum`. -/
def opponentSpacingBy (sum : List Float → Float) : Rule where
  id := "opponent_spacing"
  kind := .soft
  description := "Minimum days between meetings of the same opponents"
  run ctx := .silent do
    let minDays ← ctx.number "min_days" 0.0
    if minDays ≤ 0.0 then
      .ok { count := some 0, explanation := some "min_days <= 0 (no spacing enforced)" }
    else .ok (spacingOutcome sum minDays (← allShortGaps minDays ctx.index))

/-- Terms added one after the other. -/
def inTurn (terms : List Float) : Float := terms.foldl (· + ·) 0.0

/-- Minimum days between meetings, what gaps lack being added one after the other. -/
def opponentSpacing : Rule := opponentSpacingBy inTurn

end LeagueAudit.Rule
