import LeagueAudit.Fault
import LeagueAudit.Json.Basic
import LeagueAudit.Number.Reading
import LeagueAudit.Text.Quoted

/-!
Reading a document from text. Beyond strict JSON the names of the doubles without digits are
accepted and the last of several members with one name counts. A fault names what was expected and
where, as line and column.
-/
namespace LeagueAudit.Json

/-- What is wrong with a text. -/
inductive SyntaxProblem where
  | value | name | colon | comma | openString | controlCharacter | escape | unicodeEscape
  | extra | byteOrderMark
  /-- A whole number has too many digits. -/
  | longNumber
  /-- Values are nested too deep. -/
  | deep
  deriving DecidableEq, Repr

def SyntaxProblem.message : SyntaxProblem → String
  | value => "Expecting value"
  | name => "Expecting property name enclosed in double quotes"
  | colon => "Expecting ':' delimiter"
  | comma => "Expecting ',' delimiter"
  | openString => "Unterminated string starting at"
  | controlCharacter => "Invalid control character at"
  | escape => "Invalid \\escape"
  | unicodeEscape => "Invalid \\uXXXX escape"
  | extra => "Extra data"
  | byteOrderMark => "Unexpected UTF-8 BOM (decode using utf-8-sig)"
  | longNumber => s!"Exceeds the limit ({wholeDigitLimit} digits) for integer string conversion"
  | deep => Fault.unending.message

/-- The fault of a text that is well formed and yet cannot be read. -/
def SyntaxProblem.limit? : SyntaxProblem → Option Fault
  | longNumber => some (.notNumeric longNumber.message)
  | deep => some .unending
  | _ => none

/-- A problem, with the number of characters from its place to the end of the text. -/
structure Stop where
  problem : SyntaxProblem
  remaining : Nat

/-- A problem and its place in the text. -/
structure SyntaxFault where
  problem : SyntaxProblem
  line : Nat
  column : Nat

/-- What a scanner gives, or where it stops. -/
abbrev Scan := Except Stop

def stop {α : Type} (problem : SyntaxProblem) (rest : List Char) : Scan α :=
  .error ⟨problem, rest.length⟩

def isSpace (c : Char) : Bool := c = ' ' || c = '\t' || c = '\n' || c = '\r'

def skipSpace (cs : List Char) : List Char := cs.dropWhile isSpace

def hexValue? (c : Char) : Option Nat :=
  if c.isDigit then some (c.toNat - '0'.toNat)
  else if 'a' ≤ c && c ≤ 'f' then some (c.toNat - 'a'.toNat + 10)
  else if 'A' ≤ c && c ≤ 'F' then some (c.toNat - 'A'.toNat + 10)
  else none

/-- Four hexadecimal digits that are followed by something. -/
def scanHex? : List Char → Option (Nat × List Char)
  | a :: b :: c :: d :: next :: rest => do
    let digits ← [a, b, c, d].mapM hexValue?
    some (digits.foldl (fun n digit => n * 16 + digit) 0, next :: rest)
  | _ => none

/-- The character of an escape by one letter. -/
def shortEscape? : Char → Option Char
  | '"' => some '"'
  | '\\' => some '\\'
  | '/' => some '/'
  | 'b' => some '\x08'
  | 'f' => some '\x0c'
  | 'n' => some '\n'
  | 'r' => some '\r'
  | 't' => some '\t'
  | _ => none

/-- The character of an escape by number. A pair of surrogates is one character; something
stands in for a lone one. -/
def scanUnicode (cs : List Char) : Scan (Char × List Char) :=
  match scanHex? cs with
  | none => .error ⟨.unicodeEscape, cs.length + 1⟩
  | some (high, rest) =>
    if 0xd800 ≤ high && high < 0xdc00 then
      match rest with
      | '\\' :: 'u' :: after =>
        if after.length < 5 then .ok (Text.standIn high, rest)
        else
          match scanHex? after with
          | none => .error ⟨.unicodeEscape, after.length + 1⟩
          | some (low, rest') =>
            if 0xdc00 ≤ low && low < 0xe000 then
              .ok (Char.ofNat (0x10000 + (high - 0xd800) * 0x400 + (low - 0xdc00)), rest')
            else .ok (Text.standIn high, rest)
      | _ => .ok (Text.standIn high, rest)
    else if Text.isHalf high then .ok (Text.standIn high, rest)
    else .ok (Char.ofNat high, rest)

/-- Reads the text after an opening quote, which stands `start` characters before the end. -/
def scanString (fuel start : Nat) (read : List Char) (cs : List Char) : Scan (String × List Char) :=
  match fuel, cs with
  | 0, _ => .error ⟨.openString, start⟩
  | _, [] => .error ⟨.openString, start⟩
  | fuel + 1, c :: rest =>
    if c = '"' then .ok (String.ofList read.reverse, rest)
    else if c = '\\' then
      match rest with
      | [] => .error ⟨.openString, start⟩
      | 'u' :: after => do
        let (d, rest') ← scanUnicode after
        scanString fuel start (d :: read) rest'
      | e :: after =>
        match shortEscape? e with
        | none => .error ⟨.escape, cs.length⟩
        | some d => scanString fuel start (d :: read) after
    else if c.toNat ≤ 0x1f then .error ⟨.controlCharacter, cs.length⟩
    else scanString fuel start (c :: read) rest

/-- Reads a number. A fraction or an exponent makes it a double. -/
def scanNumber (cs : List Char) : Scan (Json × List Char) :=
  let (negative, unsigned) :=
    match cs with
    | '-' :: rest => (true, rest)
    | rest => (false, rest)
  let (whole, rest) :=
    match unsigned with
    | '0' :: rest => (['0'], rest)
    | rest => (rest.takeWhile Char.isDigit, rest.dropWhile Char.isDigit)
  if whole.isEmpty then stop .value cs
  else
    let (fraction, rest) :=
      match rest with
      | '.' :: d :: more =>
        if d.isDigit then (some (d :: more.takeWhile Char.isDigit), more.dropWhile Char.isDigit)
        else (none, rest)
      | rest => (none, rest)
    let (exponent, rest) := scanExponent rest
    if fraction.isNone && exponent.isNone then
      let n : Int := digitsValue whole
      if whole.length > wholeDigitLimit then stop .longNumber cs
      else .ok (int (if negative then -n else n), rest)
    else .ok (float (DecimalParts.toFloat negative ⟨whole, fraction, exponent⟩), rest)

/-- The values that are written by name. -/
def namedValues : List (List Char × Json) :=
  [("null".toList, null), ("true".toList, bool true), ("false".toList, bool false),
    ("NaN".toList, float (0.0 / 0.0)), ("Infinity".toList, float (1.0 / 0.0)),
    ("-Infinity".toList, float (-1.0 / 0.0))]

/-- Reads a value that holds no others. -/
def scanScalar (cs : List Char) : Scan (Json × List Char) :=
  match namedValues.find? fun (name, _) => name.isPrefixOf cs with
  | some (name, value) => .ok (value, cs.drop name.length)
  | none => scanNumber cs

mutual

/-- Reads one value; `room` tells how deep it may be nested. -/
def scanValue (room fuel : Nat) (cs : List Char) : Scan (Json × List Char) :=
  match fuel with
  | 0 => stop .value cs
  | fuel + 1 =>
    match cs, room with
    | '"' :: rest, _ => do
      let (s, rest') ← scanString cs.length cs.length [] rest
      .ok (str s, rest')
    | '[' :: _, 0 => stop .deep cs
    | '[' :: rest, room + 1 =>
      let rest := skipSpace rest
      match rest with
      | ']' :: rest' => .ok (arr [], rest')
      | _ => scanItems room fuel [] rest
    | '\x7b' :: _, 0 => stop .deep cs
    | '\x7b' :: rest, room + 1 =>
      let rest := skipSpace rest
      match rest with
      | '\x7d' :: rest' => .ok (obj [], rest')
      | _ => scanMembers room fuel [] rest
    | _, _ => scanScalar cs

/-- Reads the items of an array up to its end. -/
def scanItems (room fuel : Nat) (read : List Json) (cs : List Char) : Scan (Json × List Char) :=
  match fuel with
  | 0 => stop .value cs
  | fuel + 1 => do
    let (v, rest) ← scanValue room fuel cs
    let rest := skipSpace rest
    match rest with
    | ']' :: rest' => .ok (arr (v :: read).reverse, rest')
    | ',' :: rest' => scanItems room fuel (v :: read) (skipSpace rest')
    | _ => stop .comma rest

/-- Reads the members of an object up to its end. -/
def scanMembers (room fuel : Nat) (read : List (String × Json)) (cs : List Char) :
    Scan (Json × List Char) :=
  match fuel with
  | 0 => stop .name cs
  | fuel + 1 =>
    match cs with
    | '"' :: rest => do
      let (k, rest) ← scanString cs.length cs.length [] rest
      let rest := skipSpace rest
      match rest with
      | ':' :: rest' => do
        let (v, rest) ← scanValue room fuel (skipSpace rest')
        let read := setMember k v read
        let rest := skipSpace rest
        match rest with
        | '\x7d' :: rest' => .ok (obj read, rest')
        | ',' :: rest' => scanMembers room fuel read (skipSpace rest')
        | _ => stop .comma rest
      | _ => stop .colon rest
    | _ => stop .name cs

end

/-- How deep arrays and objects may stand in each other. -/
def nestingLimit : Nat := 985

/-- The line and the column after the given characters. -/
def placeAfter (read : List Char) : Nat × Nat :=
  (read.count '\n' + 1, (read.reverse.takeWhile (· != '\n')).length + 1)

/-- Reads a whole text as one value. -/
def read (cs : List Char) : Except SyntaxFault Json :=
  let scan : Scan (Json × List Char) :=
    match cs with
    | '\ufeff' :: _ => stop .byteOrderMark cs
    | _ => do
      let (v, rest) ← scanValue nestingLimit (2 * cs.length + 2) (skipSpace cs)
      match skipSpace rest with
      | [] => .ok (v, [])
      | extra => stop .extra extra
  match scan with
  | .ok (v, _) => .ok v
  | .error s =>
    let (line, column) := placeAfter (cs.take (cs.length - s.remaining))
    .error ⟨s.problem, line, column⟩

end LeagueAudit.Json
