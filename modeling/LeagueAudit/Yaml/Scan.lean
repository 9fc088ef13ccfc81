import LeagueAudit.Yaml.Scalar
import LeagueAudit.Yaml.Token

/-!
Scanning YAML texts: where the reader stands, blanks and comments, and the texts of scalars, which
may run over several lines.
-/
namespace LeagueAudit.Yaml

/-- A token that may turn out to be the key of a mapping. -/
structure PossibleKey where
  /-- How many tokens stand before it. -/
  number : Nat
  /-- It stands where only a key can stand. -/
  required : Bool
  index : Nat
  line : Nat
  column : Nat

/-- Where the reader stands. -/
structure Cursor where
  rest : List Char
  /-- How many characters the text has, and how many of them were read. -/
  size : Nat
  index : Nat := 0
  line : Nat := 0
  column : Nat := 0
  /-- How many brackets are open. -/
  depth : Nat := 0
  /-- The column of the innermost block, and those of the blocks around it. -/
  indent : Int := -1
  indents : List Int := []
  /-- A key may start here. -/
  keyAllowed : Bool := true
  /-- The possible keys by the number of brackets that are open. -/
  keys : List (Nat × PossibleKey) := []
  tokens : Array Lexeme := #[]

abbrev Scan := StateT Cursor (Except ReadFault)

namespace Scan

/-- The text is no YAML document. -/
def fail {α : Type} (reason : String) : Scan α := do throw (.broken ((← get).line + 1) reason)

def isBreak (c : Char) : Bool :=
  c == '\n' || c == '\u0085' || c == '\u2028' || c == '\u2029'

/-- The end of the text, a blank or the end of a line. -/
def isGap : Option Char → Bool
  | none => true
  | some c => c == ' ' || c == '\t' || isBreak c

def peek : Scan (Option Char) := do return (← get).rest.head?

/-- The character after the next one. -/
def peekSecond : Scan (Option Char) := do return (← get).rest[1]?

def column : Scan Nat := do return (← get).column

def line : Scan Nat := do return (← get).line

/-- How many characters are left. -/
def remaining : Scan Nat := do
  let cursor ← get
  return cursor.size - cursor.index

/-- How many columns a character takes: the mark of the order of bytes takes none. -/
def columnsOf (c : Char) : Nat := if c == '\ufeff' then 0 else 1

/-- The position after a character. -/
def step (cursor : Cursor) (c : Char) (rest : List Char) : Cursor :=
  let cursor := { cursor with rest, index := cursor.index + 1 }
  if isBreak c then { cursor with line := cursor.line + 1, column := 0 }
  else { cursor with column := cursor.column + columnsOf c }

/-- The position after characters of one line. -/
def pass (cursor : Cursor) (taken : List Char) : Cursor :=
  { cursor with
    rest := cursor.rest.drop taken.length
    index := cursor.index + taken.length
    column := taken.foldl (fun column c => column + columnsOf c) cursor.column }

/-- Goes on by one character. -/
def advance : Scan Unit := modify fun cursor =>
  match cursor.rest with
  | [] => cursor
  | c :: rest => step cursor c rest

/-- Takes the characters that fit and are on the same line. -/
def takeWhile (fits : Char → Bool) : Scan (List Char) := do
  let taken := (← get).rest.takeWhile fits
  modify (pass · taken)
  return taken

/-- Takes a line break. Only the two separators keep their own character. -/
def takeBreak : Scan Char := do
  let c := (← peek).getD '\n'
  advance
  return if c == '\u2028' || c == '\u2029' then c else '\n'

/-- A line that starts with three hyphens or three dots separates documents. -/
def atMarker : Scan Bool := do
  let cursor ← get
  match cursor.rest with
  | a :: b :: c :: rest =>
    return cursor.column == 0 && a == b && b == c && (a == '-' || a == '.') && isGap rest.head?
  | _ => return false

/-- A key may start here, or not. -/
def allowKey (allowed : Bool) : Scan Unit := modify fun cursor =>
  { cursor with keyAllowed := allowed }

/-- Takes blanks and a comment. -/
def takeComment : Scan Unit := do
  let _ ← takeWhile (· == ' ')
  if (← peek) == some '#' then let _ ← takeWhile fun c => !isBreak c

/-- Skips blanks, comments and line ends, at most so many lines. Outside brackets, a key may start
on a new line. -/
def skipGaps : Nat → Scan Unit
  | 0 => pure ()
  | fuel + 1 => do
    takeComment
    if (← peek).any isBreak then do
      advance
      if (← get).depth = 0 then allowKey true
      skipGaps fuel

/-- Goes on to where the next token may start. -/
def skip : Scan Unit := do
  if (← get).index = 0 && (← peek) == some '\ufeff' then advance
  skipGaps ((← remaining) + 1)

/-- Takes the line breaks after a line, and the blanks at the starts of lines; none when a document
ends there. -/
def takeBreaks (isBlank : Char → Bool) : Nat → Scan (Option (List Char))
  | 0 => return some []
  | fuel + 1 => do
    if ← atMarker then return none
    else
      let _ ← takeWhile isBlank
      match ← peek with
      | some c =>
        if isBreak c then do
          let c ← takeBreak
          return (← takeBreaks isBlank fuel).map (c :: ·)
        else return some []
      | none => return some []

/-- One line break becomes a blank, several lose their first. -/
def folded (first : Char) (more : List Char) : List Char :=
  (if first != '\n' then [first] else if more.isEmpty then [' '] else []) ++ more

/-! Plain scalars. -/

/-- The start of a plain text, up to a blank or a mark that ends it. -/
def plainChunk (flow : Bool) : List Char → List Char
  | [] => []
  | c :: rest =>
    let after := rest.head?
    let brackets := [',', '[', ']', '\x7b', '\x7d']
    let colon := c == ':' && (isGap after || (flow && after.any brackets.contains))
    let mark := flow && ('?' :: brackets).contains c
    if isGap (some c) || colon || mark then [] else c :: plainChunk flow rest

/-- What stands between two parts of a plain text; none when it cannot go on. -/
def plainGap : Scan (Option (List Char)) := do
  let blanks ← takeWhile (· == ' ')
  match ← peek with
  | some c =>
    if isBreak c then do
      let first ← takeBreak
      allowKey true
      return (← takeBreaks (· == ' ') ((← remaining) + 1)).map (folded first)
    else return if blanks.isEmpty then none else some blanks
  | none => return if blanks.isEmpty then none else some blanks

/-- A plain text whose further lines are indented by at least so much. -/
def plainParts (flow : Bool) (indent : Int) (gap : List Char) : Nat → Scan (List Char)
  | 0 => return []
  | fuel + 1 => do
    let cursor ← get
    let chunk := plainChunk flow cursor.rest
    if chunk.isEmpty || cursor.rest.head? == some '#' then return []
    else
      modify fun cursor => { pass cursor chunk with keyAllowed := false }
      match ← plainGap with
      | none => return gap ++ chunk
      | some next =>
        let column : Int ← column
        if (← peek) == some '#' || (!flow && column < indent) then return gap ++ chunk
        else return gap ++ chunk ++ (← plainParts flow indent next fuel)

/-- A plain text, below the column of the innermost block. -/
def plain : Scan Token := do
  let cursor ← get
  let cs ← plainParts (cursor.depth != 0) (cursor.indent + 1) [] ((← remaining) + 1)
  return .scalar true (String.ofList cs)

/-- A plain text may start here. -/
def startsPlain (flow : Bool) : Scan Bool := do
  match ← peek with
  | none => return false
  | some c =>
    let marks := ['-', '?', ':', ',', '[', ']', '\x7b', '\x7d', '#', '&', '*', '!', '|', '>',
      '\'', '"', '%', '@', '`']
    let freed := c == '-' || (!flow && (c == '?' || c == ':'))
    return (!isGap (some c) && !marks.contains c) || (freed && !isGap (← peekSecond))

/-! Quoted scalars. -/

/-- Blanks and line ends inside quotes. -/
def quotedGap : Scan (List Char) := do
  let blanks ← takeWhile fun c => c == ' ' || c == '\t'
  match ← peek with
  | none => fail "a quote is not closed"
  | some c =>
    if isBreak c then do
      let first ← takeBreak
      match ← takeBreaks (fun c => c == ' ' || c == '\t') ((← remaining) + 1) with
      | some more => return folded first more
      | none => fail "a document ends inside quotes"
    else return blanks

/-- The text in single quotes, in which a quote is written twice. -/
def singleQuoted : Nat → Scan (List Char)
  | 0 => fail "a quote is not closed"
  | fuel + 1 => do
    match ← peek with
    | none => fail "a quote is not closed"
    | some '\'' => do
      advance
      if (← peek) == some '\'' then do
        advance
        return '\'' :: (← singleQuoted fuel)
      else return []
    | some c =>
      if isGap (some c) then do
        let gap ← quotedGap
        return gap ++ (← singleQuoted fuel)
      else do
        advance
        return c :: (← singleQuoted fuel)

/-- The characters that stand for others after a backslash. -/
def escapes : List (Char × Char) :=
  [('0', '\x00'), ('a', '\x07'), ('b', '\x08'), ('t', '\t'), ('\t', '\t'), ('n', '\n'),
    ('v', '\x0b'), ('f', '\x0c'), ('r', '\r'), ('e', '\x1b'), (' ', ' '), ('"', '"'),
    ('\\', '\\'), ('/', '/'), ('N', '\u0085'), ('_', '\u00a0'), ('L', '\u2028'),
    ('P', '\u2029')]

/-- How many digits name a character. -/
def escapeWidth : Char → Option Nat
  | 'x' => some 2
  | 'u' => some 4
  | 'U' => some 8
  | _ => none

def isHexDigit (c : Char) : Bool := isHex c && c != '_'

/-- A character by its number in digits of base sixteen. Something stands in for half of a pair. -/
def numbered (width : Nat) : Scan Char := do
  let digits := (← get).rest.take width
  if digits.length = width && digits.all isHexDigit then
    let code := digits.foldl (fun n c => n * 16 + digitValue c) 0
    if code ≥ twoTo 31 then
      throw (.meaningless (.raised "OverflowError" "the number is too large for a character"))
    else if code > 0x10ffff then
      throw (.meaningless (.wrongValue "chr() arg not in range(0x110000)"))
    else
      modify (pass · digits)
      return if Text.isHalf code then Text.standIn code else Char.ofNat code
  else fail "an escape lacks digits"

/-- What stands after a backslash. -/
def escaped : Scan (List Char) := do
  match ← peek with
  | none => fail "a quote is not closed"
  | some c =>
    match escapes.lookup c, escapeWidth c with
    | some d, _ => do
      advance
      return [d]
    | none, some width => do
      advance
      return [← numbered width]
    | none, none =>
      if isBreak c then do
        let _ ← takeBreak
        match ← takeBreaks (fun c => c == ' ' || c == '\t') ((← remaining) + 1) with
        | some more => return more
        | none => fail "a document ends inside quotes"
      else fail "an unknown escape"

/-- The text in double quotes. -/
def doubleQuoted : Nat → Scan (List Char)
  | 0 => fail "a quote is not closed"
  | fuel + 1 => do
    match ← peek with
    | none => fail "a quote is not closed"
    | some '"' => do
      advance
      return []
    | some '\\' => do
      advance
      let cs ← escaped
      return cs ++ (← doubleQuoted fuel)
    | some c =>
      if isGap (some c) then do
        let gap ← quotedGap
        return gap ++ (← doubleQuoted fuel)
      else do
        advance
        return c :: (← doubleQuoted fuel)

/-- A quoted text, at its first quote. -/
def quoted (double : Bool) : Scan Token := do
  advance
  let fuel := (← remaining) + 1
  let cs ← if double then doubleQuoted fuel else singleQuoted fuel
  return .scalar false (String.ofList cs)

/-! Block scalars. -/

/-- What becomes of the line ends after a block scalar. -/
inductive Chomping where
  | strip | clip | keep
  deriving DecidableEq, Repr

def chompingOf : Char → Option Chomping
  | '-' => some .strip
  | '+' => some .keep
  | _ => none

def widthOf (c : Char) : Option Nat := if '1' ≤ c && c ≤ '9' then some (digitValue c) else none

/-- The marks behind the one that starts a block scalar: how it ends and how far it is indented. -/
def blockMarks : List Char → Option (Chomping × Option Nat)
  | [] => some (.clip, none)
  | [c] =>
    match chompingOf c, widthOf c with
    | some k, _ => some (k, none)
    | none, some w => some (.clip, some w)
    | none, none => none
  | [c, d] =>
    match chompingOf c, widthOf d, widthOf c, chompingOf d with
    | some k, some w, _, _ => some (k, some w)
    | _, _, some w, some k => some (k, some w)
    | _, _, _, _ => none
  | _ => none

/-- Line breaks, and blanks up to a column. -/
def blockBreaks (indent : Nat) : Nat → Scan (List Char)
  | 0 => return []
  | fuel + 1 => do
    let cursor ← get
    let blanks := (cursor.rest.takeWhile (· == ' ')).take (indent - cursor.column)
    modify (pass · blanks)
    match ← peek with
    | some c =>
      if isBreak c then do
        let c ← takeBreak
        return c :: (← blockBreaks indent fuel)
      else return []
    | none => return []

/-- The empty lines before the text, and the widest indentation met. -/
def blockIndent (widest : Nat) : Nat → Scan (List Char × Nat)
  | 0 => return ([], widest)
  | fuel + 1 => do
    let _ ← takeWhile (· == ' ')
    let widest := max widest (← column)
    match ← peek with
    | some c =>
      if isBreak c then do
        let c ← takeBreak
        let (more, widest) ← blockIndent widest fuel
        return (c :: more, widest)
      else return ([], widest)
    | none => return ([], widest)

/-- The line end that a line leaves behind, none at the end of the text. -/
def lineEnd : Scan (List Char) := do
  if (← peek).isNone then return [] else return [← takeBreak]

/-- The lines of a block scalar; `breaks` are the empty lines before the next one. -/
def blockLines (fold : Bool) (chomping : Chomping) (indent : Nat) (breaks : List Char) :
    Nat → Scan (List Char)
  | 0 => return []
  | fuel + 1 => do
    let leading := isGap (← peek)
    let text ← takeWhile fun c => !isBreak c
    let ending ← lineEnd
    let more ← blockBreaks indent ((← remaining) + 1)
    let goesOn := (← column) == indent && (← peek).isSome
    if goesOn then
      let next := (← peek).any fun c => c == ' ' || c == '\t'
      let join :=
        if fold && ending == ['\n'] && !leading && !next then
          if more.isEmpty then [' '] else []
        else ending
      return breaks ++ text ++ join ++ (← blockLines fold chomping indent more fuel)
    else
      let final :=
        match chomping with
        | .strip => []
        | .clip => ending
        | .keep => ending ++ more
      return breaks ++ text ++ final

/-- A block scalar in the innermost block, at the mark that starts it. -/
def blockText : Scan Token := do
  let fold := (← peek) == some '>'
  advance
  let marks ← takeWhile fun c => !isGap (some c)
  match blockMarks marks with
  | none => fail "unknown marks of a block scalar"
  | some (chomping, width) =>
    takeComment
    if (← peek).any fun c => !isBreak c then fail "text behind the marks of a block scalar"
    else
      let _ ← lineEnd
      let least := (max ((← get).indent + 1) 1).toNat
      let fuel := (← remaining) + 1
      let (breaks, indent) ←
        match width with
        | none => do
          let (breaks, widest) ← blockIndent 0 fuel
          pure (breaks, max least widest)
        | some w => do
          let indent := least + w - 1
          pure (← blockBreaks indent fuel, indent)
      let cs ←
        if (← column) == indent && (← peek).isSome then
          blockLines fold chomping indent breaks fuel
        else pure (if chomping = .keep then breaks else [])
      return .scalar false (String.ofList cs)

end Scan
end LeagueAudit.Yaml
