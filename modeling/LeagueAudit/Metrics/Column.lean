import LeagueAudit.Fault
import LeagueAudit.Json.Display
import LeagueAudit.Number.Reading
import LeagueAudit.Number.Sum

/-!
Columns of a table. Its cells decide of which kind a column is, and the kind decides how cells are
added up: numbers in sixty-four bits, doubles, texts one after the other, or each pair of cells as
its values allow. A missing cell is the undefined number.
-/
namespace LeagueAudit

/-- What all cells of a column are. -/
inductive CellKind where
  /-- Whole numbers of sixty-four bits with a sign, and without one. -/
  | signed | unsigned
  | double
  | truth
  /-- Texts, of which some may be missing. -/
  | text
  /-- Values of several kinds. -/
  | mixed
  deriving DecidableEq, Repr

structure Column where
  kind : CellKind
  cells : List Json

namespace Column

/-- The undefined number. -/
def missing : Json := .float (0.0 / 0.0)

/-- The value stands for nothing. -/
def isMissing : Json → Bool
  | .null => true
  | .float x => x.isNaN
  | _ => false

/-- The number of values of a word of sixty-four bits. -/
def wordSize : Int := 18446744073709551616

/-- The least number that a word with a sign cannot hold. -/
def signBit : Int := 9223372036854775808

/-- What was met in the cells of a column. -/
structure Census where
  null : Bool := false
  undefined : Bool := false
  truth : Bool := false
  double : Bool := false
  whole : Bool := false
  /-- Whole numbers that need a word without a sign, and those that need a sign. -/
  large : Bool := false
  negative : Bool := false

/-- The kind of a column with such cells, among them no text and no container. -/
def Census.kind (c : Census) : CellKind :=
  if c.truth then
    if c.null || c.undefined || c.double || c.whole then .mixed else .truth
  else if c.null && !(c.undefined || c.double || c.whole) then .mixed
  else if c.null || c.undefined || c.double then .double
  else if !c.whole then .mixed
  else if c.large then .unsigned
  else .signed

/-- Counts a whole number in. Where none was null so far, its size matters. -/
def Census.addWhole (c : Census) (n : Int) : Census :=
  if c.null then { c with whole := true }
  else { c with whole := true, large := c.large || n ≥ signBit, negative := c.negative || n < 0 }

/-- No word holds a number, or no kind of word holds all numbers so far. -/
def Census.exceeds (c : Census) (n : Int) : Bool :=
  !c.null && ((c.large && c.negative) || n ≥ wordSize || n < -signBit)

def isTextOrMissing : Json → Bool
  | .str _ => true
  | cell => isMissing cell

/-- The kind of a column by the cells that were not met yet; the first text or container decides
it. -/
def kindFrom (all : List Json) (met : Census) : List Json → Except Fault CellKind
  | [] => .ok met.kind
  | .null :: rest => kindFrom all { met with null := true } rest
  | .bool _ :: rest => kindFrom all { met with truth := true } rest
  | .float x :: rest =>
    if x.isNaN then kindFrom all { met with undefined := true } rest
    else kindFrom all { met with double := true } rest
  | .int n :: rest => do
    let _ ← intToFloat n
    let met := met.addWhole n
    if met.exceeds n then .ok .mixed else kindFrom all met rest
  | .str _ :: _ => .ok (if all.all isTextOrMissing then .text else .mixed)
  | _ :: _ => .ok .mixed

/-- A cell in a column of a kind. -/
def cellAs (kind : CellKind) (cell : Json) : Except Fault Json :=
  match kind, cell with
  | .double, .int n => do .ok (.float (← intToFloat n))
  | .double, .null => .ok missing
  | .text, .null => .ok missing
  | _, cell => .ok cell

/-- The column of cells. -/
def ofCells (cells : List Json) : Except Fault Column := do
  let kind ← kindFrom cells {} cells
  .ok ⟨kind, ← cells.mapM (cellAs kind)⟩

/-! Numbers. -/

/-- How many digits of a decimal count. -/
def digitLimit : Nat := 17

/-- Reads an unsigned decimal in the range of doubles; digits beyond the limit count as zeros. -/
def readDigits? (negative : Bool) (cs : List Char) : Option Float :=
  let whole := cs.takeWhile Char.isDigit
  let (fraction, rest) :=
    match cs.dropWhile Char.isDigit with
    | '.' :: r => (r.takeWhile Char.isDigit, r.dropWhile Char.isDigit)
    | r => ([], r)
  let kept := whole.take digitLimit
  let fraction := fraction.take (digitLimit - kept.length)
  if kept.isEmpty && fraction.isEmpty then none
  else
    match scanExponent rest with
    | (exponent, []) =>
      let exponent := exponent.getD 0 + (whole.length : Int) - kept.length - fraction.length
      let x := decimalFloat negative (digitsValue (kept ++ fraction)) exponent
      if exponent > 308 || x.isInf then none else some x
    | _ => none

/-- A number that was read from a text. -/
inductive TextNumber where
  | whole (n : Int)
  | double (x : Float)

/-- Reads a text as a number: blanks around it are accepted, and what follows a null character
counts in whole numbers only, which have to fit a word. -/
def readText (s : String) : Except Fault TextNumber :=
  let isSpace (c : Char) : Bool := c = ' ' || ('\t' ≤ c && c ≤ '\r')
  let cs := s.toList.takeWhile (· != '\x00')
  let bare := ((cs.dropWhile isSpace).reverse.dropWhile isSpace).reverse
  let (negative, digits) := splitSign bare
  let name := String.ofList ((splitSign cs).2.map Char.toLower)
  let unreadable := .error (.notNumeric s!"Unable to parse string {Text.quoted s}")
  if name = "inf" || name = "infinity" then
    .ok (.double (if negative then -1.0 / 0.0 else 1.0 / 0.0))
  else if !digits.isEmpty && digits.all Char.isDigit then
    let n : Int := if negative then -(digitsValue digits : Int) else digitsValue digits
    if cs.length != s.length then unreadable
    else if n < -signBit || n ≥ wordSize then .error (.wrongValue "Integer out of range.")
    else .ok (.whole n)
  else
    match readDigits? negative digits with
    | some x => .ok (.double x)
    | none => unreadable

/-- A cell as a number; what is empty is missing. -/
def number : Json → Except Fault TextNumber
  | .bool b => .ok (.whole (if b then 1 else 0))
  | .int n => .ok (.whole n)
  | .float x => .ok (.double x)
  | .str s => if s.isEmpty then .ok (.double (0.0 / 0.0)) else readText s
  | .null => .ok (.double (0.0 / 0.0))
  | .arr [] => .ok (.double (0.0 / 0.0))
  | .obj [] => .ok (.double (0.0 / 0.0))
  | _ => .error (.wrongType "Invalid object type")

/-- A number as a double, zero when it is undefined. -/
def TextNumber.toFloat : TextNumber → Except Fault Float
  | .whole n => intToFloat n
  | .double x => .ok (if x.isNaN then 0.0 else x)

def TextNumber.isLarge : TextNumber → Bool
  | .whole n => signBit ≤ n && n < wordSize
  | .double _ => false

/-- A number that no word without a sign holds: it has a sign, or it is undefined. -/
def TextNumber.opposes : TextNumber → Bool
  | .whole n => -signBit ≤ n && n < 0
  | .double x => x.isNaN

/-- A cell that is a number, or nothing. -/
def isPlain : Json → Bool
  | .str _ => false
  | .arr _ => false
  | .obj _ => false
  | _ => true

/-- The cells as numbers, missing ones as zero. Where large whole numbers stand beside others that
no word without a sign holds, texts are not read. -/
def numbersOrZero (cells : List Json) : Except Fault (List Float) := do
  let ns ← cells.mapM number
  if ns.any TextNumber.isLarge && ns.any TextNumber.opposes && !cells.all isPlain then
    .error (.wrongType "unsupported operand type(s) for /: 'str' and 'float'")
  else ns.mapM TextNumber.toFloat

/-! Sums. -/

/-- The sum of two values of a mixed column. -/
def plus (a b : Json) : Except Fault Json :=
  match a.asCount, b.asCount with
  | .int m, .int n => .ok (.int (m + n))
  | .int m, .float y => do .ok (.float ((← intToFloat m) + y))
  | .float x, .int n => do .ok (.float (x + (← intToFloat n)))
  | .float x, .float y => .ok (.float (x + y))
  | .str s, .str t => .ok (.str (s ++ t))
  | .arr xs, .arr ys => .ok (.arr (xs ++ ys))
  | _, _ => .error (.wrongType s!"cannot add {b.typeName} to {a.typeName}")

/-- The sum of the values of a mixed column, zero when there is none. -/
def sumMixed : List Json → Except Fault Json
  | [] => .ok (.int 0)
  | first :: rest => rest.foldlM plus first

/-- The whole number that a sum is, its fraction being dropped. -/
def wholeOf : Json → Except Fault Int
  | .bool b => .ok (if b then 1 else 0)
  | .int n => .ok n
  | .float x => truncateToInt x
  | .str s =>
    match readFreeInt? s with
    | some n => .ok n
    | none => .error (.badDigits s)
  | j =>
    .error (.wrongType s!"int() argument must be a string or a real number, not '{j.typeName}'")

/-- The whole number of a cell that is one. -/
def count : Json → Int
  | .bool true => 1
  | .int n => n
  | _ => 0

/-- The sum of cells of a column of a kind, as a whole number. Words have no room for more than
their bits. -/
def total (kind : CellKind) (cells : List Json) : Except Fault Int :=
  let counted : Int := (cells.map count).foldl (· + ·) 0
  let present := cells.filter fun cell => !isMissing cell
  match kind with
  | .signed => .ok (counted.bmod wordSize.toNat)
  | .unsigned => .ok (counted % wordSize)
  | .truth => .ok counted
  | .double => truncateToInt (carriedSum (present.filterMap fun
      | .float x => some x
      | _ => none))
  | .text => wholeOf (.str (String.join (present.map Json.text)))
  | .mixed => do wholeOf (← sumMixed present)

/-- Numbers come before texts, each in order. -/
def notAfter (a b : Json) : Bool :=
  match a.asCount, b.asCount with
  | .str s, .str t => decide (s ≤ t)
  | .str _, _ => false
  | _, .str _ => true
  | x, y => compareNumbers x y != some .gt

end Column
end LeagueAudit
