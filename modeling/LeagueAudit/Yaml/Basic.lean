import LeagueAudit.Json.Display
import LeagueAudit.Text.Utf8
import LeagueAudit.Time.Calendar

/-!
Values of YAML documents: those of JSON, and bytes, dates, moments, lists of pairs, sets and keys of
any kind. A container may stand inside itself.
-/
namespace LeagueAudit

/-- A date with a clock reading. -/
structure Moment where
  date : Date
  hour : Nat
  minute : Nat
  second : Nat
  micros : Nat
  /-- Seconds east of the prime meridian, when the clock's zone is known. -/
  offset : Option Int
  deriving DecidableEq, Repr

namespace Moment

/-- A reading that a clock shows, with an offset below one day. -/
def valid (m : Moment) : Bool :=
  m.date.valid && m.hour ≤ 23 && m.minute ≤ 59 && m.second ≤ 59 &&
    (m.offset.all fun o => o.natAbs < 86400)

/-- Millionths of a second since the first day, where the clock's zone is known. -/
def instant? (m : Moment) : Option Int :=
  m.offset.map fun o =>
    (((m.date.toDays * 24 + m.hour) * 60 + m.minute) * 60 + m.second - o) * 1000000 + m.micros

/-- Two moments name the same time. -/
def isSameTime (a b : Moment) : Bool := a.instant?.isSome && a.instant? == b.instant?

/-- An offset as days and seconds of a day. -/
def offsetText (offset : Int) : String :=
  if offset = 0 then "datetime.timezone.utc"
  else
    let days := offset.fdiv 86400
    let seconds := offset - days * 86400
    let daysPart := if days = 0 then [] else [s!"days={days}"]
    let secondsPart := if seconds = 0 then [] else [s!"seconds={seconds}"]
    let parts := Json.joined (daysPart ++ secondsPart)
    s!"datetime.timezone(datetime.timedelta({parts}))"

/-- The text of a moment in messages; seconds and their fractions are left out when zero. -/
def inspect (m : Moment) : String :=
  let fraction := if m.micros = 0 then [] else [toString m.micros]
  let seconds := if m.second = 0 && m.micros = 0 then [] else toString m.second :: fraction
  let date := [toString m.date.year, toString m.date.month, toString m.date.day]
  let clock := [toString m.hour, toString m.minute] ++ seconds
  let zone := (m.offset.map fun o => [s!"tzinfo={offsetText o}"]).getD []
  let parts := Json.joined (date ++ clock ++ zone)
  s!"datetime.datetime({parts})"

end Moment

/-- A YAML value. -/
inductive Yaml where
  | null
  | bool (b : Bool)
  | int (n : Int)
  | float (x : Float)
  | str (s : String)
  | bytes (bs : List UInt8)
  | date (d : Date)
  | moment (m : Moment)
  | arr (items : List Yaml)
  | pairs (items : List (Yaml × Yaml))
  | set (items : List Yaml)
  | obj (members : List (Yaml × Yaml))
  /-- One of the lists, or of the mappings, that this value stands in. -/
  | outer (isList : Bool)
  deriving Inhabited

namespace Yaml

/-- The name by which messages call the type of a value. -/
def typeName : Yaml → String
  | null => "NoneType"
  | bool _ => "bool"
  | int _ => "int"
  | float _ => "float"
  | str _ => "str"
  | bytes _ => "bytes"
  | date _ => "date"
  | moment _ => "datetime"
  | arr _ => "list"
  | pairs _ => "list"
  | set _ => "set"
  | obj _ => "dict"
  | outer true => "list"
  | outer false => "dict"

/-- The text of bytes in messages. -/
def inspectBytes (bs : List UInt8) : String :=
  let cs := bs.map fun b => Char.ofNat b.toNat
  let quote := Text.quoteFor cs
  let escaped := cs.flatMap fun c =>
    if c.toNat < 0x7f then Text.quotedChar quote c else '\\' :: 'x' :: Text.hexText 2 c.toNat
  String.ofList ('b' :: quote :: escaped ++ [quote])

mutual

/-- The text of a value in messages. -/
def inspect : Yaml → String
  | null => "None"
  | bool true => "True"
  | bool false => "False"
  | int n => toString n
  | float x => floatText x
  | str s => Text.quoted s
  | bytes bs => inspectBytes bs
  | date d => s!"datetime.date({d.year}, {d.month}, {d.day})"
  | moment m => m.inspect
  | arr items =>
    let parts := Json.joined (inspectItems items)
    s!"[{parts}]"
  | pairs items =>
    let parts := Json.joined (inspectPairs items)
    s!"[{parts}]"
  | set [] => "set()"
  | set items => "\x7b" ++ Json.joined (inspectItems items) ++ "\x7d"
  | obj members => "\x7b" ++ Json.joined (inspectMembers members) ++ "\x7d"
  | outer true => "[...]"
  | outer false => "\x7b...\x7d"

def inspectItems : List Yaml → List String
  | [] => []
  | x :: rest => inspect x :: inspectItems rest

def inspectPairs : List (Yaml × Yaml) → List String
  | [] => []
  | (k, v) :: rest => ("(" ++ inspect k ++ ", " ++ inspect v ++ ")") :: inspectPairs rest

def inspectMembers : List (Yaml × Yaml) → List String
  | [] => []
  | (k, v) :: rest => (inspect k ++ ": " ++ inspect v) :: inspectMembers rest

end

mutual

/-- A JSON value is a YAML value. -/
def ofJson : Json → Yaml
  | .null => null
  | .bool b => bool b
  | .int n => int n
  | .float x => float x
  | .str s => str s
  | .arr items => arr (ofItems items)
  | .obj members => obj (ofMembers members)

def ofItems : List Json → List Yaml
  | [] => []
  | x :: rest => ofJson x :: ofItems rest

def ofMembers : List (String × Json) → List (Yaml × Yaml)
  | [] => []
  | (k, v) :: rest => (str k, ofJson v) :: ofMembers rest

end

/-- A value as readers of single fields see it: without its parts, bytes being the text that they
are. Bytes that are no text count as one that says nothing, and dates, which no field takes, as
containers. -/
def outline : Yaml → Json
  | null => .null
  | bool b => .bool b
  | int n => .int n
  | float x => .float x
  | str s => .str s
  | bytes bs =>
    match Text.decodeUtf8 bs with
    | .ok cs => .str (String.ofList cs)
    | .error _ => .str "\ufffd"
  | arr _ => .arr []
  | _ => .obj []

/-- The value is bytes that are no text. -/
def isRaw : Yaml → Bool
  | bytes bs => !(Text.decodeUtf8 bs).isOk
  | _ => false

/-- Containers cannot be keys. -/
def canBeKey : Yaml → Bool
  | arr _ => false
  | pairs _ => false
  | set _ => false
  | obj _ => false
  | outer _ => false
  | _ => true

def isNull : Yaml → Bool
  | null => true
  | _ => false

/-- Two keys are the same: numbers and truth values by their value, moments by the time that they
name, others by their text. -/
def sameKey : Yaml → Yaml → Bool
  | moment a, moment b => a == b || a.isSameTime b
  | a, b =>
    match Json.sameNumber a.outline.asCount b.outline.asCount with
    | some same => same || a.inspect == b.inspect
    | none => a.typeName == b.typeName && a.inspect == b.inspect

/-- Sets a member: an equal key keeps its place. -/
def setMember {α : Type} (key : Yaml) (value : α) : List (Yaml × α) → List (Yaml × α)
  | [] => [(key, value)]
  | (k, v) :: rest =>
    if sameKey k key then (k, value) :: rest else (k, v) :: setMember key value rest

def isMapping : Yaml → Bool
  | obj _ => true
  | _ => false

/-- The members of a mapping, none of anything else. -/
def members : Yaml → List (Yaml × Yaml)
  | obj ms => ms
  | _ => []

end Yaml

/-- A value of a document with its members. A member is shown on its own, so where the document
contains itself it may look different than inside the value. -/
structure Part where
  value : Yaml
  members : List (Yaml × Yaml)

namespace Part

/-- A value that does not contain itself. -/
def ofYaml (v : Yaml) : Part := ⟨v, v.members⟩

/-- Members whose keys are all texts. -/
def named? {α : Type} (members : List (Yaml × α)) : Option (List (String × α)) :=
  members.mapM fun
    | (.str k, v) => some (k, v)
    | _ => none

/-- The members under keys that are texts. -/
def named {α : Type} (members : List (Yaml × α)) : List (String × α) :=
  members.filterMap fun
    | (.str k, v) => some (k, v)
    | _ => none

end Part
end LeagueAudit
