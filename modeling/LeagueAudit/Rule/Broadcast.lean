import LeagueAudit.Rule.Basic
import LeagueAudit.Text.Case

/-!
Broadcast windows: games start on a given weekday between two times of day, both included. What
cannot be read as a window holds no game, and a game without a local time is in no window.
-/
namespace LeagueAudit.Rule

/-- A window of a weekday, in minutes after midnight. -/
structure BroadcastSlot where
  day : String
  start : Nat
  finish : Nat
  deriving DecidableEq, Repr

/-- Reads a window; none when a part is missing or malformed. -/
def readSlot? (item : Json) : Except Fault (Option BroadcastSlot) := do
  if !item.isObject then .ok none
  else
    let day := item.field "day"
    let start ← minutesOfDay (item.field "start")
    let finish ← minutesOfDay (item.field "end")
    match start, finish with
    | some s, some f => .ok (if day.truthy then some ⟨Text.lower day.sealedText, s, f⟩ else none)
    | _, _ => .ok none

/-- A window holds a minute of a weekday. -/
def BroadcastSlot.holds (w : BroadcastSlot) (day : String) (minute : Nat) : Bool :=
  w.day == day && w.start ≤ minute && minute ≤ w.finish

/-- The time of an assignment in words, when it lies in no window. -/
def outsideSlots? (slots : List BroadcastSlot) (a : Assignment) : Except Fault (Option String) :=
  match a.parts with
  | none => .ok (some "an unknown time")
  | some parts => do
    match ← minutesOfDayText parts.hhmm with
    | none => .ok (some "an unknown time")
    | some minute =>
      .ok (if slots.any fun w => w.holds (Text.lower parts.weekday) minute then none
        else some s!"{parts.weekday} {parts.hhmm}")

/-- The finding that an assignment lies in no window. -/
def slotViolation? (slots : List BroadcastSlot) (a : Assignment) :
    Except Fault (Option Violation) := do
  .ok ((← outsideSlots? slots a).map fun time =>
    ⟨s!"Fixture '{a.fixture}' at {time} is outside allowed broadcast windows", [a.fixture]⟩)

def slotOutcome (violations : List Violation) : Outcome where
  violations
  amount := violations.length.toFloat
  count := some violations.length
  explanation := some
    (if violations.isEmpty then "All fixtures within broadcast windows"
      else "Some fixtures outside windows")

/-- The declared windows; a text or an object is no list of windows. -/
def declaredSlots (ctx : RuleContext) : Except Fault (List Json) :=
  match (ctx.param? "allowed_windows").getD .null with
  | .str _ => .ok []
  | .obj _ => .ok []
  | raw => raw.listedOrNone

/-- Games start inside an allowed broadcast window. -/
def broadcastWindow : Rule where
  id := "broadcast_window"
  kind := .soft
  description := "Kick-off inside allowed broadcast windows"
  run ctx := .silent do
    let items ← declaredSlots ctx
    if items.isEmpty then
      .ok { count := some 0, explanation := some "No allowed_windows provided" }
    else
      let slots := (← items.mapM readSlot?).filterMap fun s => s
      .ok (slotOutcome ((← ctx.index.assignments.mapM (slotViolation? slots)).filterMap fun v => v))

end LeagueAudit.Rule
