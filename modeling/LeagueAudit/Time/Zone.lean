import LeagueAudit.Time.Calendar

/-!
Time zones: a fixed offset, or a standard and a summer offset with yearly changes. Seconds are
counted from 1970-01-01T00:00, on the local clock or in universal time.
-/
namespace LeagueAudit

/-- A yearly moment: a weekday (Sunday is zero) of a week of a month (five is the last one), and
the seconds from its midnight. -/
structure YearlyChange where
  month : Nat
  week : Nat
  weekday : Nat
  seconds : Int := 7200
  deriving DecidableEq, Repr

/-- Summer time: its offset, its start on the standard clock and its end on the summer clock. -/
structure SummerTime where
  offset : Int
  start : YearlyChange
  finish : YearlyChange
  deriving DecidableEq, Repr

/-- A named zone; offsets are seconds east of universal time. -/
structure Zone where
  name : String
  standard : Int
  summer : Option SummerTime := none
  deriving DecidableEq, Repr

def secondsPerDay : Int := 86400

/-- The local second of a yearly moment. -/
def YearlyChange.secondIn (c : YearlyChange) (year : Int) : Int :=
  let first := Date.toDays ⟨year, c.month, 1⟩
  let firstWeekday := (weekdayOfDays first + 1) % 7
  let day := (c.weekday + 7 - firstWeekday) % 7 + (c.week - 1) * 7
  let day := if day ≥ daysInMonth year c.month then day - 7 else day
  (first + day) * secondsPerDay + c.seconds

/-- A moment lies in the yearly span from `start` to `finish`, which may hold the new year. -/
def inSpan (start finish moment : Int) : Bool :=
  if start < finish then start ≤ moment && moment < finish
  else !(finish ≤ moment && moment < start)

/-- The year of a second. -/
def yearOfSecond (second : Int) : Int := (Date.ofDays (second.fdiv secondsPerDay)).year

namespace Zone

/-- The offset of a local second. A repeated hour is read the first time it comes, and a skipped
hour with the offset before the change. -/
def offsetOfLocal (z : Zone) (second : Int) : Int :=
  match z.summer with
  | none => z.standard
  | some s =>
    let year := yearOfSecond second
    let start := s.start.secondIn year + (s.offset - z.standard)
    if inSpan start (s.finish.secondIn year) second then s.offset else z.standard

/-- The offset of a second in universal time. -/
def offsetOfUniversal (z : Zone) (second : Int) : Int :=
  match z.summer with
  | none => z.standard
  | some s =>
    let year := yearOfSecond second
    if inSpan (s.start.secondIn year - z.standard) (s.finish.secondIn year - s.offset) second then
      s.offset
    else z.standard

end Zone

/-- Universal time. -/
def utc : Zone := ⟨"UTC", 0, none⟩

def hours (n : Int) : Int := n * 3600

/-- A zone of the North American rules: summer time from the second Sunday of March to the first
Sunday of November. -/
def americanZone (name : String) (standard : Int) : Zone :=
  ⟨name, standard, some ⟨standard + hours 1, ⟨3, 2, 0, 7200⟩, ⟨11, 1, 0, 7200⟩⟩⟩

/-- A zone of the European rules: summer time from the last Sunday of March to the last Sunday of
October, changed everywhere at one in the morning of universal time. -/
def europeanZone (name : String) (standard : Int) : Zone :=
  ⟨name, standard,
    some ⟨standard + hours 1, ⟨3, 5, 0, hours 1 + standard⟩, ⟨10, 5, 0, hours 2 + standard⟩⟩⟩

/-- The zones that documents may name. -/
def knownZones : List Zone :=
  [utc, ⟨"Etc/UTC", 0, none⟩, ⟨"GMT", 0, none⟩, americanZone "EST5EDT" (hours (-5)),
    ⟨"Etc/GMT+5", hours (-5), none⟩, ⟨"Etc/GMT-14", hours 14, none⟩,
    ⟨"Etc/GMT+12", hours (-12), none⟩,
    americanZone "America/New_York" (hours (-5)), americanZone "America/Los_Angeles" (hours (-8)),
    americanZone "America/St_Johns" (-12600),
    europeanZone "Europe/London" 0, europeanZone "Europe/Berlin" (hours 1),
    ⟨"Asia/Kolkata", 19800, none⟩, ⟨"Asia/Kathmandu", 20700, none⟩,
    ⟨"Asia/Tokyo", hours 9, none⟩, ⟨"Pacific/Kiritimati", hours 14, none⟩,
    ⟨"Australia/Sydney", hours 10, some ⟨hours 11, ⟨10, 1, 0, 7200⟩, ⟨4, 1, 0, 10800⟩⟩⟩,
    ⟨"Australia/Lord_Howe", 37800, some ⟨hours 11, ⟨10, 1, 0, 7200⟩, ⟨4, 1, 0, 7200⟩⟩⟩]

/-- The folders that zones lie in. -/
def zoneFolders : List String :=
  ["Africa", "America", "America/Argentina", "America/Indiana", "America/Kentucky",
    "America/North_Dakota", "Antarctica", "Arctic", "Asia", "Atlantic", "Australia", "Brazil",
    "Canada", "Chile", "Etc", "Europe", "Indian", "Mexico", "Pacific", "US"]

/-- The zone of a name, in the exact spelling. -/
def findZone? (name : String) : Option Zone := knownZones.find? (·.name == name)

end LeagueAudit
