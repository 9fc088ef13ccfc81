import LeagueAudit.Fault
import LeagueAudit.Files.Path
import LeagueAudit.Json.Display
import LeagueAudit.Number.Reading
import LeagueAudit.Time.Iso
import LeagueAudit.Time.Zone

/-!
Instants in milliseconds since 1970-01-01T00:00 in universal time: reading timestamps and range
bounds of documents, and the clocks of a zone at an instant.
-/
namespace LeagueAudit

def msPerMinute : Nat := 60000
def msPerHour : Nat := 3600000
def msPerDay : Nat := 86400000

/-- The duration from the first instant of 1970 to a local time on the same clock, in
microseconds. -/
def LocalTime.clockMicros (t : LocalTime) : Int :=
  (t.date.toDays * secondsPerDay + t.clock.seconds) * 1000000 + t.clock.micro

/-- The instant of a local time in microseconds; a time without an offset is read in the zone. -/
def LocalTime.micros (z : Zone) (t : LocalTime) : Int :=
  match t.offset with
  | some offset => t.clockMicros - offset
  | none =>
    t.clockMicros - z.offsetOfLocal (t.date.toDays * secondsPerDay + t.clock.seconds) * 1000000

/-- Microseconds as milliseconds: the double nearest to the seconds, times a thousand, to the
nearest whole number. -/
def millisOfMicros (micros : Int) : Int :=
  let seconds := nearestFloat (micros < 0) micros.natAbs 1000000
  match Exact.ofFloat (seconds * 1000.0) with
  | .finite steps => Exact.roundHalfEven steps
  | _ => 0

/-- The instant of a text, none when it is no timestamp. -/
def readInstantText? (z : Zone) (s : String) : Option Int := do
  let t ← Iso.read? (Text.stripped s.toList)
  some (millisOfMicros (t.micros z))

/-- The instant of a document value, none when it is no timestamp. -/
def readInstant? (z : Zone) : Json → Option Int
  | .str s => readInstantText? z s
  | _ => none

/-- The local time one day later. -/
def LocalTime.nextDay (t : LocalTime) : Except Fault LocalTime :=
  let days := t.date.toDays + 1
  if days > lastDay then .error .dateOutOfRange else .ok { t with date := .ofDays days }

/-- The text of a range bound. -/
def boundText (raw : Json) : String := if raw.isNull then "" else Text.strip raw.text

/-- A bound of a range. An end bound of ten characters without a time mark covers its whole day, so
it is the same time on the following day. -/
def readBound (z : Zone) (isEnd : Bool) (raw : Json) : Except Fault (Option Int) :=
  let s := boundText raw
  if isEnd && s.length = 10 && !s.contains 'T' then
    match Iso.read? s.toList with
    | none => .ok none
    | some t => do
      let next ← t.nextDay
      .ok (some (millisOfMicros (next.micros z)))
  else .ok (readInstantText? z s)

/-- What the clocks of a place show. -/
structure LocalParts where
  weekday : String
  hhmm : String
  date : String
  deriving DecidableEq, Repr

/-- The date as year, month and day with hyphens. -/
def Date.text (d : Date) : String :=
  s!"{padded 4 d.year.toNat}-{padded 2 d.month}-{padded 2 d.day}"

/-- A time in universal time, counted in seconds. -/
def stampText (seconds : Int) : String :=
  let days := seconds.fdiv secondsPerDay
  let second := (seconds - days * secondsPerDay).toNat
  let clock := s!"{padded 2 (second / 3600)}:{padded 2 (second / 60 % 60)}:{padded 2 (second % 60)}"
  s!"{(Date.ofDays days).text}T{clock}+00:00"

/-- The clocks of a zone at an instant; the year must have four digits there and in universal
time. -/
def localParts (z : Zone) (ms : Int) : Except Fault LocalParts :=
  let inRange (days : Int) : Bool := firstDay ≤ days && days ≤ lastDay
  let second := ms.fdiv 1000
  if !inRange (second.fdiv secondsPerDay) then .error .dateOutOfRange
  else
    let second := second + z.offsetOfUniversal second
    let days := second.fdiv secondsPerDay
    if !inRange days then .error .dateOutOfRange
    else
      let minute := ((second - days * secondsPerDay) / 60).toNat
      .ok ⟨weekdayName days, s!"{padded 2 (minute / 60)}:{padded 2 (minute % 60)}",
        (Date.ofDays days).text⟩

/-- A field of a clock time: two digits. -/
def clockField? (cs : List Char) : Option (List Char) :=
  if cs.length = 2 && cs.all Text.isDigit then some cs else none

/-- The number of a clock field; digits that are no decimal digits are a fault. -/
def clockNumber (cs : List Char) : Except Fault Nat :=
  match readPlainInt? cs with
  | some n => .ok n
  | none => .error (.badDigits (String.ofList cs))

/-- The minutes after midnight of a text such as `18:30`, up to `24:59`. -/
def minutesOfDayText (s : String) : Except Fault (Option Nat) :=
  match (Text.stripped s.toList).splitOnP (· == ':') with
  | [h, m] =>
    match clockField? h, clockField? m with
    | some h, some m => do
      let hh ← clockNumber h
      let mm ← clockNumber m
      .ok (if hh > 24 || mm > 59 then none else some (hh * 60 + mm))
    | _, _ => .ok none
  | _ => .ok none

/-- The minutes after midnight of a document value. -/
def minutesOfDay : Json → Except Fault (Option Nat)
  | .str s => minutesOfDayText s
  | _ => .ok none

/-- A zone name is a relative path without empty, dot or parent steps. -/
def isPlainZoneName (name : String) : Bool :=
  let steps := name.splitOn "/"
  !steps.contains "" && !steps.contains "." && !steps.contains ".."

/-- Why a name is no zone. -/
def zoneFault (name : String) : Fault :=
  let steps := name.splitOn "/"
  let folder := String.intercalate "/" steps.dropLast
  let last := steps.getLastD ""
  if !isPlainZoneName name then .badZoneName name
  else if zoneFolders.contains name then .zoneFolder name
  else if !(folder.isEmpty || zoneFolders.contains folder) then .unknownZone name
  else if last.contains '\x00' then .badZoneName name
  else if Path.isLongStep last then .longName name
  else .unknownZone name

/-- The zone of a name. -/
def namedZone (name : String) : Except Fault Zone :=
  match findZone? name with
  | some z => .ok z
  | none => .error (zoneFault name)

/-- The zone of a document: the named one, else the fallback. The flag tells whether the name was
known. -/
def resolveZone (fallback : String) (name : Json) : Except Fault (Zone × Bool) :=
  let candidate := if name.truthy then name.text else fallback
  match namedZone candidate with
  | .ok z => .ok (z, true)
  | .error (.zoneFolder n) => .error (.zoneFolder n)
  | .error (.longName n) => .error (.longName n)
  | .error _ => (namedZone fallback).map (·, false)

end LeagueAudit
