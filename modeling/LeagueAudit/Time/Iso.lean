import LeagueAudit.Number.Exact
import LeagueAudit.Time.Calendar

/-!
Reading dates and times in ISO 8601. The date is a calendar or a week date with or without hyphens;
any one character divides it from the time. Fractions of a second are cut to microseconds.
-/
namespace LeagueAudit

/-- A time of day. -/
structure Clock where
  hour : Nat
  minute : Nat
  second : Nat
  micro : Nat
  deriving DecidableEq, Repr

/-- A moment on the clocks of a place. The offset is in microseconds east of universal time, none
when the text does not say. -/
structure LocalTime where
  date : Date
  clock : Clock
  offset : Option Int
  deriving DecidableEq, Repr

def Clock.midnight : Clock := ⟨0, 0, 0, 0⟩

def Clock.valid (c : Clock) : Bool := c.hour < 24 && c.minute < 60 && c.second < 60

def Clock.seconds (c : Clock) : Nat := c.hour * 3600 + c.minute * 60 + c.second

namespace Iso

/-- Reads exactly `count` digits. -/
def scanDigits (count : Nat) (cs : List Char) : Option (Nat × List Char) :=
  let ds := cs.take count
  if ds.length = count && ds.all Char.isDigit then
    some (ds.foldl (fun n c => n * 10 + (c.toNat - '0'.toNat)) 0, cs.drop count)
  else none

/-- Drops a hyphen where hyphens are used. -/
def scanHyphen (hyphens : Bool) (cs : List Char) : Option (List Char) :=
  if hyphens then
    match cs with
    | '-' :: rest => some rest
    | _ => none
  else some cs

/-- Reads a whole text as a date. -/
def readDate? (cs : List Char) : Option Date := do
  let (year, rest) ← scanDigits 4 cs
  let hyphens := rest.head? == some '-'
  let rest := if hyphens then rest.drop 1 else rest
  match rest with
  | 'W' :: rest => do
    let (week, rest) ← scanDigits 2 rest
    match rest with
    | [] => dateOfWeek? year week 1
    | rest => do
      let (day, rest) ← scanDigits 1 (← scanHyphen hyphens rest)
      if rest.isEmpty then dateOfWeek? year week day else none
  | rest => do
    let (month, rest) ← scanDigits 2 rest
    let (day, rest) ← scanDigits 2 (← scanHyphen hyphens rest)
    if rest.isEmpty then some ⟨year, month, day⟩ else none

/-- The number of characters of the date, judged from the first characters. Where a week may be
followed by a day or by a time, digits in pairs are taken for a time. -/
def dateLength? (cs : List Char) : Option Nat :=
  if cs.length = 7 then some 7
  else
    match cs.drop 4 with
    | '-' :: 'W' :: _ =>
      match cs.drop 8 with
      | [] => if cs.length < 8 then none else some 8
      | '-' :: [] => none
      | '-' :: _ :: c :: _ => some (if c.isDigit then 8 else 10)
      | '-' :: _ => some 10
      | _ => some 8
    | '-' :: _ => some 10
    | 'W' :: _ =>
      let reach := 7 + ((cs.drop 7).takeWhile Char.isDigit).length
      some (if reach < 9 then reach else if reach % 2 = 0 then 7 else 8)
    | _ => some 8

/-- A text goes on behind a place. What stands behind a NUL is not looked at; `followed` tells
whether an offset stands behind the end. -/
def goesOn (followed : Bool) : List Char → Bool
  | [] => followed
  | c :: _ => c != '\x00'

/-- Reads a fraction of a second, of which six digits count. The flag tells whether anything is
left. -/
def scanFraction (followed : Bool) (cs : List Char) : Option (Nat × Bool) := do
  let count := min 6 cs.length
  let (n, rest) ← scanDigits count cs
  some (n * tenTo (6 - count), goesOn followed (rest.dropWhile Char.isDigit))

/-- Reads hours, then minutes and seconds as far as they are given. `fields` holds what is read,
`colons` whether colons divide the fields, and `followed` whether an offset follows the text. -/
def scanClock (followed : Bool) (fields : List Nat) (colons : Bool) (fuel : Nat)
    (cs : List Char) : Option (List Nat × Nat × Bool) := do
  let (n, rest) ← scanDigits 2 cs
  let fields := fields ++ [n]
  match rest with
  | [] => some (fields, 0, followed)
  | c :: after =>
    let colons := if fields.length = 1 then c == ':' else colons
    let fraction (cs : List Char) : Option (List Nat × Nat × Bool) := do
      let (micro, left) ← scanFraction followed cs
      some (fields, micro, left)
    let next (cs : List Char) : Option (List Nat × Nat × Bool) :=
      match fuel with
      | 0 => fraction cs
      | fuel + 1 => scanClock followed fields colons fuel cs
    if after.isEmpty && c.toNat < 128 then some (fields, 0, goesOn followed rest)
    else if colons && c == ':' then next after
    else if c == '.' || c == ',' then fraction after
    else if !colons then next rest
    else none

/-- Reads a time of day; the flag tells whether anything is left. -/
def readClock? (followed : Bool) (cs : List Char) : Option (Clock × Bool) := do
  let (fields, micro, left) ← scanClock followed [] true 2 cs
  some (⟨fields.getD 0 0, fields.getD 1 0, fields.getD 2 0, micro⟩, left)

def isOffsetMark (c : Char) : Bool := c = '+' || c = '-' || c = 'Z'

/-- Reads the signed offset after its sign, in microseconds. -/
def readOffset? (sign : Int) (cs : List Char) : Option Int := do
  let (c, left) ← readClock? false cs
  let seconds := c.seconds
  if left || seconds ≥ 86400 then none
  else some (if seconds = 0 then 0 else sign * (seconds * 1000000 + c.micro))

/-- Reads a time of day with an offset, if there is one. -/
def readTime? (cs : List Char) : Option (Clock × Option Int) := do
  let time := cs.takeWhile fun c => !isOffsetMark c
  match cs.dropWhile fun c => !isOffsetMark c with
  | [] =>
    let (clock, left) ← readClock? false time
    if left then none else some (clock, none)
  | mark :: rest =>
    let (clock, _) ← readClock? true time
    if mark = 'Z' then (if goesOn false rest then none else some (clock, some 0))
    else
      let offset ← readOffset? (if mark = '-' then -1 else 1) rest
      some (clock, some offset)

/-- Reads a date with a time, if there is one. -/
def read? (cs : List Char) : Option LocalTime := do
  if cs.length < 7 then none
  let length ← dateLength? cs
  let date ← readDate? (cs.take length)
  if !date.valid then none
  match cs.drop length with
  | [] => some ⟨date, .midnight, none⟩
  | _ :: rest => do
    let (clock, offset) ← readTime? rest
    if clock.valid then some ⟨date, clock, offset⟩ else none

end Iso
end LeagueAudit
