import LeagueAudit.Text.Class

/-!
Quoted text, as values inside messages are written: apostrophes are the quotes unless the text
holds apostrophes and no quotation marks; characters that cannot be shown are escaped by number.
-/
namespace LeagueAudit.Text

/-- The hexadecimal digits of a number, in lower case, with zeros on the left. -/
def hexText (width n : Nat) : List Char :=
  let cs := Nat.toDigits 16 n
  List.replicate (width - cs.length) '0' ++ cs

/-- One character inside quotes. -/
def quotedChar (quote c : Char) : List Char :=
  if c = quote || c = '\\' then ['\\', c]
  else if c = '\n' then ['\\', 'n']
  else if c = '\r' then ['\\', 'r']
  else if c = '\t' then ['\\', 't']
  else if isPrintable c then [c]
  else
    let n := codeOf c
    if n < 0x100 then '\\' :: 'x' :: hexText 2 n
    else if n < 0x10000 then '\\' :: 'u' :: hexText 4 n
    else '\\' :: 'U' :: hexText 8 n

/-- The quote that a text is written with. -/
def quoteFor (s : List Char) : Char :=
  if s.contains '\'' && !s.contains '"' then '"' else '\''

/-- A text in quotes. -/
def quoted (s : String) : String :=
  let cs := s.toList
  let q := quoteFor cs
  String.ofList (q :: (cs.flatMap (quotedChar q) ++ [q]))

/-- The characters at the front of a text that fit into a number of bytes. -/
def fitting (room : Nat) : List Char → List Char
  | [] => []
  | c :: rest => if c.utf8Size ≤ room then c :: fitting (room - c.utf8Size) rest else []

/-- A text of more than 50 bytes is cut to what fits into its first 25 and last 24 bytes. -/
def preview (s : String) : String :=
  let cs := s.toList
  if s.utf8ByteSize ≤ 50 then s
  else String.ofList (fitting 25 cs ++ ['.', '.', '.'] ++ (fitting 24 cs.reverse).reverse)

end LeagueAudit.Text
