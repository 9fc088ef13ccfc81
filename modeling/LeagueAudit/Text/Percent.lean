import LeagueAudit.Text.Utf8

/-!
Percent signs in addresses: a sign and two hexadecimal digits stand for one byte of a text in UTF-8.
Bytes that are no text become the character that stands for what cannot be read.
-/
namespace LeagueAudit.Text

/-- The value of a hexadecimal digit. -/
def hexDigit? (c : Char) : Option Nat :=
  if c.isDigit then some (c.toNat - '0'.toNat)
  else if 'a' ≤ c ∧ c ≤ 'f' then some (c.toNat - 'a'.toNat + 10)
  else if 'A' ≤ c ∧ c ≤ 'F' then some (c.toNat - 'A'.toNat + 10)
  else none

/-- The bytes of a text of plain characters, each escape being one byte. -/
def percentBytes : List Char → List UInt8
  | '%' :: a :: b :: rest =>
    match hexDigit? a, hexDigit? b with
    | some x, some y => UInt8.ofNat (x * 16 + y) :: percentBytes rest
    | _, _ => UInt8.ofNat '%'.toNat :: percentBytes (a :: b :: rest)
  | c :: rest => UInt8.ofNat c.toNat :: percentBytes rest
  | [] => []

/-- The character for what cannot be read. -/
def unreadable : Char := Char.ofNat 0xfffd

/-- Reads bytes as text; every run of bytes that is no character becomes one character. -/
def readAnyway (fuel : Nat) (bytes : List UInt8) : List Char :=
  match fuel, bytes with
  | 0, _ => []
  | _, [] => []
  | fuel + 1, b :: rest =>
    match decodeCharacter b rest with
    | .ok (c, rest') => c :: readAnyway fuel rest'
    | .error (_, count) => unreadable :: readAnyway fuel (rest.drop (count - 1))

/-- Reads the escapes in the runs of plain characters of a text; `run` is the present run,
reversed. -/
def unescapeRuns (run : List Char) : List Char → List Char
  | [] => read run
  | c :: rest =>
    if c.toNat < 128 then unescapeRuns (c :: run) rest else read run ++ c :: unescapeRuns [] rest
where
  read (run : List Char) : List Char :=
    let bytes := percentBytes run.reverse
    readAnyway bytes.length bytes

/-- A text with its escapes read. -/
def unescape (cs : List Char) : List Char :=
  if cs.contains '%' then unescapeRuns [] cs else cs

end LeagueAudit.Text
