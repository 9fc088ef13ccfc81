import LeagueAudit.Rule.Basic
import LeagueAudit.Schedule.Game

/-!
Blackout windows, in which no game may be played. A window is a date, which is a whole local day, or
an object with start and end and perhaps a venue. What cannot be read as a window is left out with
a warning.
-/
namespace LeagueAudit.Rule

/-- A blackout window. -/
structure Blackout where
  label : String
  start : Int
  finish : Int
  /-- The only venue that it is about. -/
  venue : Option String
  deriving DecidableEq, Repr

/-- The declared bounds, venue and label of a window. -/
structure DeclaredWindow where
  start : Json
  finish : Json
  venue : Option String
  label : String

def declaredWindow (item : Json) : DeclaredWindow :=
  if item.isObject then
    let start := (item.field "start").orElse (item.field "date")
    let finish := (item.field "end").orElse start
    let reason := item.field "reason"
    let label :=
      if finish.same start then start.sealedText else s!"{start.sealedText}..{finish.sealedText}"
    ⟨start, finish, (item.field "venueId").notNull?.map Json.sealedText,
      if reason.truthy then s!"{label} ({reason.sealedText})" else label⟩
  else ⟨item, item, none, item.sealedText⟩

/-- Reads a window; none when a bound cannot be read or the window is empty. -/
def readWindow? (z : Zone) (item : Json) : Except Fault (Option Blackout) := do
  let w := declaredWindow item
  let start ← readBound z false w.start
  let finish ← readBound z true w.finish
  match start, finish with
  | some s, some f => .ok (if f ≤ s then none else some ⟨w.label, s, f, w.venue⟩)
  | _, _ => .ok none

def malformedWindow (item : Json) : String :=
  s!"blackout_dates: ignoring malformed window {item.inspect true}"

/-- Reads windows in turn, with a warning for each one left out. -/
def readWindows (z : Zone) : List Json → List String × Except Fault (List Blackout)
  | [] => ([], .ok [])
  | item :: rest =>
    match readWindow? z item with
    | .error f => ([], .error f)
    | .ok (some w) =>
      let (warnings, windows) := readWindows z rest
      (warnings, windows.map (w :: ·))
    | .ok none =>
      let (warnings, windows) := readWindows z rest
      (malformedWindow item :: warnings, windows)

/-- The declared windows: those of the parameters, else those of the season. -/
def declaredWindows (ctx : RuleContext) : Except Fault (List Json) :=
  let raw := (ctx.param? "windows").getD ((ctx.index.league.field "season").field "blackout_dates")
  match raw with
  | .str s => .ok (if s.isEmpty then [] else [raw])
  | .obj members => .ok (if members.isEmpty then [] else [raw])
  | raw => raw.listedOrNone

/-- A window is about an assignment with readable times and shares an instant with it. -/
def Blackout.hits (w : Blackout) (a : Assignment) : Bool :=
  match a.span? with
  | none => false
  | some (start, finish) =>
    (w.venue.isNone || a.venue == w.venue) && start < w.finish && w.start < finish

def blackoutViolation (a : Assignment) (w : Blackout) : Violation :=
  let date := (a.parts.map (·.date)).getD "None"
  let time := (a.parts.map (·.hhmm)).getD "None"
  ⟨s!"Fixture '{a.fixture}' on {date} {time} falls in blackout window {w.label}",
    a.fixture :: w.venue.toList⟩

/-- Every assignment with every window that hits it. -/
def blackoutViolations (windows : List Blackout) (index : Index) : List Violation :=
  index.assignments.flatMap fun a =>
    (windows.filter fun w => w.hits a).map (blackoutViolation a)

def blackoutOutcome (index : Index) (windows : List Blackout) : Outcome :=
  if windows.isEmpty then { explanation := some "No blackout windows declared" }
  else { violations := blackoutViolations windows index }

/-- No game intersects a blackout window. -/
def blackoutDates : Rule where
  id := "blackout_dates"
  description := "Fixtures avoid blackout dates"
  run ctx :=
    match declaredWindows ctx with
    | .error f => ⟨[], .error f⟩
    | .ok items =>
      let (warnings, windows) := readWindows ctx.index.zone items
      ⟨warnings, windows.map fun ws => .outcome (blackoutOutcome ctx.index ws)⟩

end LeagueAudit.Rule
