import LeagueAudit.Fault
import LeagueAudit.Number.Reading
import LeagueAudit.Pattern.Match
import LeagueAudit.Pattern.Parser
import LeagueAudit.Time.Calendar

/-!
Formats: further rules for texts, known by name.
-/
namespace LeagueAudit.Schema

/-- Why a text cannot serve as a pattern, as a fault. -/
def patternFault : Pattern.Refusal → Fault
  | .malformed => .raised "error" "pattern cannot be read"
  | .tooOften => .raised "OverflowError" "the repetition number is too large"
  | .unusable => .wrongValue "pattern cannot be used"

/-- The pattern that a text stands for. -/
def patternOf (s : String) : Except Fault Pattern := (Pattern.read s).mapError patternFault

/-- A calendar date, written with hyphens. -/
def isDateText (s : String) : Bool :=
  match s.splitOn "-" with
  | [y, m, d] =>
    let digits (part : String) (count : Nat) : Bool :=
      part.length == count && part.toList.all Char.isDigit
    digits y 4 && digits m 2 && digits d 2 &&
      Date.valid ⟨digitsValue y.toList, digitsValue m.toList, digitsValue d.toList⟩
  | _ => false

/-- One of the four numbers of a network address, without leading zeros. -/
def isOctet (s : String) : Bool :=
  let cs := s.toList
  1 ≤ cs.length && cs.length ≤ 3 && cs.all Char.isDigit && digitsValue cs ≤ 255 &&
    (cs.length == 1 || cs.head? != some '0')

/-- A network address of four numbers. -/
def isShortAddress (s : String) : Bool :=
  let parts := s.splitOn "."
  parts.length == 4 && parts.all isOctet

def isHexDigit (c : Char) : Bool := (Pattern.hexDigit? c).isSome

/-- One of the eight numbers of a long network address. -/
def isHextet (s : String) : Bool :=
  1 ≤ s.length && s.length ≤ 4 && s.toList.all isHexDigit

/-- The eight numbers of a long network address; one gap stands for one zero or several. -/
def areHextets (parts : List String) : Bool :=
  let inner := (parts.drop 1).dropLast
  match inner.filter String.isEmpty with
  | [] => parts.length == 8 && parts.all isHextet
  | [_] =>
    let low := parts.takeWhile (!·.isEmpty)
    let low := if parts.head? == some "" then [] else low
    let skip := (inner.takeWhile (!·.isEmpty)).length + 1
    let high := parts.drop (skip + 1)
    let startFits := parts.head? != some "" || skip == 1
    let endFits := parts.getLast? != some "" || high.length == 1
    let high := if parts.getLast? == some "" then high.dropLast else high
    startFits && endFits && low.length + high.length ≤ 7 && low.all isHextet &&
      high.all isHextet
  | _ => false

/-- A network address of eight numbers, the last two of which may be written as four. -/
def isLongAddress (s : String) : Bool :=
  let parts := s.splitOn ":"
  if parts.length < 3 then false
  else
    match parts.getLast? with
    | some last =>
      if last.contains '.' then
        let parts := parts.dropLast ++ ["0", "0"]
        isShortAddress last && parts.length ≤ 9 && areHextets parts
      else parts.length ≤ 9 && areHextets parts
    | none => false

/-- The digits of an identifier, where a plus sign, a mark of the base and low lines between digits
do not count. -/
def isHexNumber (cs : List Char) : Bool :=
  let cs := trimNumber (String.ofList cs)
  let cs := if cs.head? == some '+' then cs.drop 1 else cs
  let (marked, cs) :=
    match cs with
    | '0' :: 'x' :: rest => (true, rest)
    | '0' :: 'X' :: rest => (true, rest)
    | rest => (false, rest)
  let cs := if marked && cs.head? == some '_' then cs.drop 1 else cs
  let paired := (cs.zip (cs.drop 1)).any fun (a, b) => a == '_' && b == '_'
  !cs.isEmpty && cs.head? != some '_' && cs.getLast? != some '_' && !paired &&
    (asciiDigits cs).all fun c => c == '_' || isHexDigit c

/-- An identifier of thirty-two hexadecimal digits with hyphens at four places. -/
def isUuid (s : String) : Bool :=
  let plain := ((s.replace "urn:" "").replace "uuid:" "").toList
  let isBrace (c : Char) : Bool := c == '\x7b' || c == '\x7d'
  let bare := ((plain.dropWhile isBrace).reverse.dropWhile isBrace).reverse
  let digits := bare.filter (· != '-')
  let cs := s.toList
  digits.length == 32 && isHexNumber digits &&
    [8, 13, 18, 23].all fun place => cs[place]? == some '-'

/-- The formats that are checked and need no pattern. -/
def formatTests : List (String × (String → Bool)) :=
  [("date", isDateText), ("email", fun s => s.contains '@'),
    ("idn-email", fun s => s.contains '@'), ("ipv4", isShortAddress), ("ipv6", isLongAddress),
    ("uuid", isUuid)]

/-- A text has the format of a name; texts of a format that is not checked are accepted. -/
def hasFormat (s name : String) : Except Fault Bool :=
  if name = "regex" then
    match Pattern.read s with
    | .ok _ => .ok true
    | .error .malformed => .ok false
    | .error refusal => .error (patternFault refusal)
  else
    match formatTests.lookup name with
    | some test => .ok (test s)
    | none => .ok true

end LeagueAudit.Schema
