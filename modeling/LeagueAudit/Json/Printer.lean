import LeagueAudit.Json.Basic
import LeagueAudit.Text.Quoted

/-!
Writing a document as text, on one line or with one member a line, and with characters beyond
ASCII kept or escaped.
-/
namespace LeagueAudit.Json

/-- The decisions of one way of writing. -/
structure PrintStyle where
  /-- Characters beyond ASCII are escaped. -/
  ascii : Bool
  /-- One item a line, two more blanks of indentation for each level. -/
  lines : Bool
  /-- The text of a double. -/
  double : Float → String

/-- The text of a double in a document. -/
def doubleText (x : Float) : String :=
  if x.isNaN then "NaN"
  else if x.isInf then (if hasMinusSign x then "-Infinity" else "Infinity")
  else floatText x

/-- Documents for readers: one item a line. -/
def PrintStyle.document : PrintStyle := ⟨false, true, doubleText⟩

/-- Documents for programs: one line of ASCII. -/
def PrintStyle.line : PrintStyle := ⟨true, false, doubleText⟩

def unicodeEscape (n : Nat) : List Char := '\\' :: 'u' :: Text.hexText 4 n

/-- One character of a text. -/
def writeChar (ascii : Bool) (c : Char) : List Char :=
  if c = '"' then ['\\', '"']
  else if c = '\\' then ['\\', '\\']
  else if c = '\n' then ['\\', 'n']
  else if c = '\r' then ['\\', 'r']
  else if c = '\t' then ['\\', 't']
  else if c = '\x08' then ['\\', 'b']
  else if c = '\x0c' then ['\\', 'f']
  else if c.toNat < 0x20 then unicodeEscape c.toNat
  else if !ascii || c.toNat < 0x7f then [c]
  else if Text.codeOf c < 0x10000 then unicodeEscape (Text.codeOf c)
  else
    let n := c.toNat - 0x10000
    unicodeEscape (0xd800 + n / 0x400) ++ unicodeEscape (0xdc00 + n % 0x400)

/-- A text in quotation marks. -/
def writeString (ascii : Bool) (s : String) : String :=
  String.ofList ('"' :: (s.toList.flatMap (writeChar ascii) ++ ['"']))

/-- The start of a new line at a level of nesting. -/
def lineStart (level : Nat) : String := "\n" ++ String.ofList (List.replicate (2 * level) ' ')

/-- Items between an opening and a closing mark. -/
def enclosed (style : PrintStyle) (level : Nat) (opening closing : String)
    (parts : List String) : String :=
  if parts.isEmpty then opening ++ closing
  else if style.lines then
    let sep := lineStart (level + 1)
    opening ++ sep ++ String.intercalate ("," ++ sep) parts ++ lineStart level ++ closing
  else opening ++ String.intercalate ", " parts ++ closing

mutual

/-- The text of a value at a level of nesting. -/
def write (style : PrintStyle) (level : Nat) : Json → String
  | null => "null"
  | bool true => "true"
  | bool false => "false"
  | int n => toString n
  | float x => style.double x
  | str s => writeString style.ascii s
  | arr items => enclosed style level "[" "]" (writeItems style (level + 1) items)
  | obj members => enclosed style level "\x7b" "\x7d" (writeMembers style (level + 1) members)

def writeItems (style : PrintStyle) (level : Nat) : List Json → List String
  | [] => []
  | x :: rest => write style level x :: writeItems style level rest

def writeMembers (style : PrintStyle) (level : Nat) : List (String × Json) → List String
  | [] => []
  | (k, v) :: rest =>
    (writeString style.ascii k ++ ": " ++ write style level v) :: writeMembers style level rest

end

/-- The text of a document in a style. -/
def render (style : PrintStyle) (j : Json) : String := write style 0 j

mutual

/-- The members of every object in the order of their names. -/
def sortKeys : Json → Json
  | arr items => arr (sortKeysItems items)
  | obj members => obj ((sortKeysMembers members).mergeSort fun a b => a.1 ≤ b.1)
  | j => j

def sortKeysItems : List Json → List Json
  | [] => []
  | x :: rest => sortKeys x :: sortKeysItems rest

def sortKeysMembers : List (String × Json) → List (String × Json)
  | [] => []
  | (k, v) :: rest => (k, sortKeys v) :: sortKeysMembers rest

end

end LeagueAudit.Json
