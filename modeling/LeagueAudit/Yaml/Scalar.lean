import LeagueAudit.Fault
import LeagueAudit.Number.Reading
import LeagueAudit.Text.Case
import LeagueAudit.Yaml.Basic
import LeagueAudit.Yaml.Base64

/-!
The meaning of scalars. What looks like a truth value, a number, a date or nothing has that type,
and any other text stands for itself; a type may also be written before a text, which then has to
fit it.
-/
namespace LeagueAudit.Yaml

/-- The type of a node. -/
inductive Tag where
  | null | bool | int | float | binary | timestamp | str
  | seq | map | set | omap | pairs
  /-- The key under which mappings to merge stand. -/
  | merge
  /-- The key of the value that a mapping stands for as a scalar. -/
  | value
  | other (name : String)
  deriving DecidableEq, Repr

/-- Why a text has no YAML value. -/
inductive ReadFault where
  /-- The text is no document, or a node has a type that it cannot have. -/
  | broken (line : Nat) (reason : String)
  /-- The document is well formed, but a value in it is not. -/
  | meaningless (fault : Fault)

namespace Tag

/-- What the names of the standard types begin with. -/
def standard : String := "tag:yaml.org,2002:"

/-- The standard types by the ends of their names. -/
def names : List (String × Tag) :=
  [("null", null), ("bool", bool), ("int", int), ("float", float), ("binary", binary),
    ("timestamp", timestamp), ("str", str), ("seq", seq), ("map", map), ("set", set),
    ("omap", omap), ("pairs", pairs), ("merge", merge), ("value", value)]

def ofName (name : String) : Tag :=
  if name.startsWith standard then
    (names.lookup (String.ofList (name.toList.drop standard.length))).getD (other name)
  else other name

end Tag

def nullWords : List String := ["", "~", "null", "Null", "NULL"]

def trueWords : List String :=
  ["yes", "Yes", "YES", "true", "True", "TRUE", "on", "On", "ON"]

def falseWords : List String :=
  ["no", "No", "NO", "false", "False", "FALSE", "off", "Off", "OFF"]

/-- The digits of a text in which low lines may stand between them. -/
def withoutLines (cs : List Char) : List Char := cs.filter (· != '_')

def isDigitOrLine (c : Char) : Bool := c.isDigit || c == '_'

def isBinary (c : Char) : Bool := c == '0' || c == '1' || c == '_'

def isOctal (c : Char) : Bool := ('0' ≤ c && c ≤ '7') || c == '_'

/-- The value of a digit in bases up to sixteen. -/
def digitValue (c : Char) : Nat :=
  if c.isDigit then c.toNat - '0'.toNat else c.toLower.toNat - 'a'.toNat + 10

def isHexDigit (c : Char) : Bool := c.isDigit || ('a' ≤ c.toLower && c.toLower ≤ 'f')

def isHex (c : Char) : Bool := isHexDigit c || c == '_'

/-- The parts between colons. -/
def colonParts (cs : List Char) : List (List Char) := cs.splitOnP (· == ':')

/-- A part after a colon counts sixtieths: one digit, or two that are below sixty. -/
def isSixtieth : List Char → Bool
  | [a] => a.isDigit
  | [a, b] => '0' ≤ a && a ≤ '5' && b.isDigit
  | _ => false

/-- A number that starts with a digit other than zero, and low lines. -/
def isPlainRun : List Char → Bool
  | c :: rest => c.isDigit && c != '0' && rest.all isDigitOrLine
  | [] => false

/-- An unsigned whole number: binary, hexadecimal, octal, in base sixty, or decimal. -/
def isUnsignedInt (cs : List Char) : Bool :=
  match cs with
  | ['0'] => true
  | '0' :: 'b' :: d :: ds => (d :: ds).all isBinary
  | '0' :: 'x' :: d :: ds => (d :: ds).all isHex
  | '0' :: ds => ds.all isOctal
  | cs =>
    match colonParts cs with
    | first :: rest => isPlainRun first && rest.all isSixtieth
    | [] => false

/-- A whole number with or without a sign. -/
def isInt (cs : List Char) : Bool := isUnsignedInt (splitSign cs).2

/-- An exponent has a sign. -/
def isExponent : List Char → Bool
  | [] => true
  | e :: sign :: d :: ds =>
    (e == 'e' || e == 'E') && (sign == '+' || sign == '-') && (d :: ds).all Char.isDigit
  | _ => false

/-- A decimal with a point; only one without a sign may start with the point. -/
def isDecimal (signed : Bool) (cs : List Char) : Bool :=
  let whole := cs.takeWhile isDigitOrLine
  match cs.dropWhile isDigitOrLine with
  | '.' :: rest =>
    let fraction := rest.takeWhile isDigitOrLine
    let exponent := isExponent (rest.dropWhile isDigitOrLine)
    exponent &&
      match whole with
      | c :: _ => c.isDigit
      | [] => !signed && fraction.head?.any Char.isDigit
  | _ => false

/-- A number in base sixty with a point. -/
def isSixtyFloat (cs : List Char) : Bool :=
  match colonParts (cs.takeWhile (· != '.')), cs.dropWhile (· != '.') with
  | first :: second :: rest, '.' :: fraction =>
    first.head?.any Char.isDigit && first.all isDigitOrLine && (second :: rest).all isSixtieth &&
      fraction.all isDigitOrLine
  | _, _ => false

/-- A value without digits. -/
def isSpecialFloat (signed : Bool) (cs : List Char) : Bool :=
  let word := String.ofList cs
  [".inf", ".Inf", ".INF"].contains word || (!signed && [".nan", ".NaN", ".NAN"].contains word)

/-- A double. -/
def isFloat (cs : List Char) : Bool :=
  let rest := (splitSign cs).2
  let signed := rest.length != cs.length
  isSpecialFloat signed rest || isDecimal signed rest || isSixtyFloat rest

/-- One or two digits, and what follows. -/
def shortNumber? : List Char → Option (Nat × List Char)
  | a :: b :: rest =>
    if a.isDigit && b.isDigit then some (digitsValue [a, b], rest)
    else if a.isDigit then some (digitsValue [a], b :: rest)
    else none
  | [a] => if a.isDigit then some (digitsValue [a], []) else none
  | [] => none

/-- Exactly two digits, and what follows. -/
def twoDigits? : List Char → Option (Nat × List Char)
  | a :: b :: rest => if a.isDigit && b.isDigit then some (digitsValue [a, b], rest) else none
  | _ => none

/-- A given character, and what follows. -/
def after? (c : Char) : List Char → Option (List Char)
  | d :: rest => if d = c then some rest else none
  | [] => none

def isBlankOrTab (c : Char) : Bool := c == ' ' || c == '\t'

/-- The offset at the end of a moment; none when there is none. -/
def readOffset? (cs : List Char) : Option (Option Int) :=
  match cs.dropWhile isBlankOrTab with
  | [] => if cs.isEmpty then some none else none
  | ['Z'] => some (some 0)
  | sign :: rest => do
    if sign != '+' && sign != '-' then none
    else
      let (hours, rest) ← shortNumber? rest
      let minutes ←
        match rest with
        | [] => some 0
        | rest =>
          match twoDigits? (← after? ':' rest) with
          | some (m, []) => some m
          | _ => none
      let seconds : Int := hours * 3600 + minutes * 60
      some (some (if sign == '-' then -seconds else seconds))

/-- A fraction of a second in millionths, further digits being dropped. -/
def microsOf (digits : List Char) : Nat :=
  digitsValue ((digits ++ List.replicate 6 '0').take 6)

/-- The clock reading after a date. -/
def readClock? (date : Date) (cs : List Char) : Option Moment := do
  let cs ←
    match cs with
    | 'T' :: rest => some rest
    | 't' :: rest => some rest
    | c :: rest => if isBlankOrTab c then some (rest.dropWhile isBlankOrTab) else none
    | [] => none
  let (hour, cs) ← shortNumber? cs
  let (minute, cs) ← twoDigits? (← after? ':' cs)
  let (second, cs) ← twoDigits? (← after? ':' cs)
  let (micros, cs) :=
    match cs with
    | '.' :: rest => (microsOf (rest.takeWhile Char.isDigit), rest.dropWhile Char.isDigit)
    | cs => (0, cs)
  let offset ← readOffset? cs
  some ⟨date, hour, minute, second, micros, offset⟩

/-- A date, perhaps with a clock reading. Where nothing says that it is one, a date alone has two
digits for month and day. -/
def readDate? (declared : Bool) (cs : List Char) : Option Yaml := do
  let (century, cs) ← twoDigits? cs
  let (year, cs) ← twoDigits? cs
  let cs ← after? '-' cs
  let (month, rest) ← shortNumber? cs
  let rest ← after? '-' rest
  let (day, rest) ← shortNumber? rest
  let d : Date := ⟨(century * 100 + year : Nat), month, day⟩
  if rest.isEmpty then if declared || cs.length = 5 then some (.date d) else none
  else (readClock? d rest).map .moment

/-- A line feed at the end does not count for what a text looks like. -/
def withoutLastBreak (cs : List Char) : List Char :=
  if cs.getLast? == some '\n' then cs.dropLast else cs

/-- The type that a plain text looks like. -/
def Tag.ofText (s : String) : Tag :=
  let cs := withoutLastBreak s.toList
  let word := String.ofList cs
  if nullWords.contains word && (s.isEmpty || !cs.isEmpty) then .null
  else if trueWords.contains word || falseWords.contains word then .bool
  else if isFloat cs then .float
  else if isInt cs then .int
  else if word = "<<" then .merge
  else if word = "=" then .value
  else if (readDate? false cs).isSome then .timestamp
  else if word = "!" || word = "&" || word = "*" then .other (standard ++ "yaml")
  else .str

/-- The first character of a text that must not be empty. -/
def firstOf (cs : List Char) : Except Fault Char :=
  match cs with
  | c :: _ => .ok c
  | [] => .error (.raised "IndexError" "string index out of range")

/-- The value of digits in a base, between blanks and perhaps behind a sign and a mark of the
base. -/
def readInBase (base : Nat) (mark : Char) (cs : List Char) : Except Fault Int :=
  let (negative, unsigned) := splitSign (trimNumber (String.ofList cs))
  let digits :=
    match unsigned with
    | '0' :: c :: rest => if c.toLower = mark && !rest.isEmpty then rest else '0' :: c :: rest
    | cs => cs
  let digits := asciiDigits digits
  if !digits.isEmpty && digits.all fun c => isHexDigit c && digitValue c < base then
    let n : Int := (digits.foldl (fun n c => n * base + digitValue c) 0 : Nat)
    .ok (if negative then -n else n)
  else .error (.badDigits (String.ofList cs))

/-- The value of decimal digits. -/
def readDecimalInt (cs : List Char) : Except Fault Int :=
  match readFreeInt? (String.ofList cs) with
  | some n => .ok n
  | none => .error (.badDigits (String.ofList cs))

/-- A whole number without its sign. -/
def readUnsigned (cs : List Char) : Except Fault Int := do
  match cs with
  | ['0'] => .ok 0
  | '0' :: 'b' :: digits => readInBase 2 'b' digits
  | '0' :: 'x' :: digits => readInBase 16 'x' digits
  | _ =>
    if (← firstOf cs) = '0' then readInBase 8 'o' cs
    else if cs.contains ':' then
      (← (colonParts cs).mapM readDecimalInt).foldl (fun n part => n * 60 + part) 0 |> .ok
    else readDecimalInt cs

/-- The whole number that a text stands for. -/
def readInt (s : String) : Except Fault Int := do
  let cs := withoutLines s.toList
  let first ← firstOf cs
  let n ← readUnsigned (if first = '-' || first = '+' then cs.drop 1 else cs)
  .ok (if first = '-' then -n else n)

/-- The value of a decimal. -/
def readDecimalFloat (cs : List Char) : Except Fault Float :=
  match readFreeFloat? (String.ofList cs) with
  | some x => .ok x
  | none =>
    .error (.notNumeric s!"could not convert string to float: {Text.quoted (String.ofList cs)}")

/-- The sum of the parts of a number in base sixty, the last one first. -/
def sixtySum (total : Float) (base : Nat) : List Float → Except Fault Float
  | [] => .ok total
  | x :: rest => do sixtySum (total + x * (← intToFloat base)) (base * 60) rest

/-- A double without its sign. -/
def readUnsignedFloat (cs : List Char) : Except Fault Float := do
  let word := String.ofList cs
  if word = ".inf" then .ok (1.0 / 0.0)
  else if word = ".nan" then .ok (0.0 / 0.0)
  else if cs.contains ':' then
    sixtySum 0.0 1 (← (colonParts cs).mapM readDecimalFloat).reverse
  else readDecimalFloat cs

/-- The double that a text stands for. -/
def readFloat (s : String) : Except Fault Float := do
  let cs := (Text.lower (String.ofList (withoutLines s.toList))).toList
  let first ← firstOf cs
  let x ← readUnsignedFloat (if first = '-' || first = '+' then cs.drop 1 else cs)
  .ok (if first = '-' then -x else x)

/-- The truth value that a text stands for, in any case. -/
def readBool (s : String) : Except Fault Bool :=
  let word := Text.lower s
  if trueWords.contains word then .ok true
  else if falseWords.contains word then .ok false
  else .error (.missingKey word)

/-- The date or moment that a text stands for, if a calendar knows it. -/
def readTimestamp (s : String) : Except Fault Yaml :=
  match readDate? true (withoutLastBreak s.toList) with
  | none => .error (.missingFeature "'NoneType' object has no attribute 'groupdict'")
  | some (.date d) =>
    if d.valid then .ok (.date d) else .error (.wrongValue "day is out of range for month")
  | some (.moment m) => if m.valid then .ok (.moment m) else .error (.wrongValue "no such moment")
  | some v => .ok v

/-- The bytes that a text stands for. -/
def readBinary (s : String) : Except ReadFault Yaml :=
  if s.toList.any fun c => c.toNat ≥ 128 then .error (.broken 0 "bytes in other than ASCII")
  else
    match Base64.decode? (s.toList) with
    | some bs => .ok (.bytes bs)
    | none => .error (.broken 0 "bytes are incomplete")

/-- The value of a scalar of a type; none when the type is none of scalars. -/
def ofScalar? (tag : Tag) (s : String) : Option (Except ReadFault Yaml) :=
  let plain (e : Except Fault Yaml) := some (e.mapError ReadFault.meaningless)
  match tag with
  | .null => some (.ok .null)
  | .str => some (.ok (.str s))
  | .bool => plain ((readBool s).map .bool)
  | .int => plain ((readInt s).map .int)
  | .float => plain ((readFloat s).map .float)
  | .timestamp => plain (readTimestamp s)
  | .binary => some (readBinary s)
  | _ => none

end LeagueAudit.Yaml
