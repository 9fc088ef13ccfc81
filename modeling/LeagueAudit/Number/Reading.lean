import LeagueAudit.Number.Nearest
import LeagueAudit.Text.Class

/-!
Reading numbers from text: the scanner shared by all numeric texts, and the free forms that
documents and settings accept.
-/
namespace LeagueAudit

/-- The value of a run of ASCII digits. -/
def digitsValue (cs : List Char) : Nat :=
  cs.foldl (fun n c => n * 10 + (c.toNat - '0'.toNat)) 0

/-- How many digits a whole number in a text may have. -/
def wholeDigitLimit : Nat := 4300

/-- The double nearest to `digits * 10 ^ exponent`. -/
def decimalFloat (negative : Bool) (digits : Nat) (exponent : Int) : Float :=
  let size : Int := Nat.log2 (digits + 1) / 3 + 1 + exponent
  if digits = 0 then nearestFloat negative 0 1
  else if exponent > 400 then nearestFloat negative (twoTo 1100) 1
  else if size < -400 then nearestFloat negative 0 1
  else if exponent ≥ 0 then nearestFloat negative (digits * tenTo exponent.toNat) 1
  else nearestFloat negative digits (tenTo (-exponent).toNat)

/-- The parts of an unsigned decimal: digits before and after the point, and the exponent. -/
structure DecimalParts where
  whole : List Char
  /-- None when there is no point. -/
  fraction : Option (List Char)
  exponent : Option Int

/-- An exponent mark with digits; without digits there is no exponent. -/
def scanExponent : List Char → Option Int × List Char
  | e :: rest =>
    if e = 'e' || e = 'E' then
      let (negative, digits) :=
        match rest with
        | '-' :: r => (true, r)
        | '+' :: r => (false, r)
        | r => (false, r)
      match digits.takeWhile Char.isDigit with
      | [] => (none, e :: rest)
      | ds =>
        let n : Int := digitsValue ds
        (some (if negative then -n else n), digits.dropWhile Char.isDigit)
    else (none, e :: rest)
  | [] => (none, [])

/-- The double that the parts stand for. -/
def DecimalParts.toFloat (negative : Bool) (p : DecimalParts) : Float :=
  let fraction := p.fraction.getD []
  decimalFloat negative (digitsValue (p.whole ++ fraction))
    (p.exponent.getD 0 - (fraction.length : Int))

/-- Reads a decimal that may lack the digits on one side of the point. -/
def readDecimal? (negative : Bool) (cs : List Char) : Option Float :=
  let whole := cs.takeWhile Char.isDigit
  let rest := cs.dropWhile Char.isDigit
  let (fraction, rest) :=
    match rest with
    | '.' :: r => (some (r.takeWhile Char.isDigit), r.dropWhile Char.isDigit)
    | r => (none, r)
  if whole.isEmpty && (fraction.getD []).isEmpty then none
  else
    match scanExponent rest with
    | (exponent, []) => some (DecimalParts.toFloat negative ⟨whole, fraction, exponent⟩)
    | _ => none

/-- Splits a sign off. -/
def splitSign : List Char → Bool × List Char
  | '-' :: rest => (true, rest)
  | '+' :: rest => (false, rest)
  | rest => (false, rest)

/-- Reads a number with a sign, in decimal form or by one of the names of the values without
digits, in any case. -/
def readSignedFloat? (cs : List Char) : Option Float :=
  let (negative, rest) := splitSign cs
  let name := String.ofList (rest.map Char.toLower)
  if name = "inf" ∨ name = "infinity" then some (if negative then -1.0 / 0.0 else 1.0 / 0.0)
  else if name = "nan" then some (0.0 / 0.0)
  else readDecimal? negative rest

/-- Decimal digits of other scripts become ASCII digits. -/
def asciiDigits (cs : List Char) : List Char :=
  cs.map fun c =>
    if c.toNat < 128 then c
    else
      match Text.decimalValue? c with
      | some d => Char.ofNat ('0'.toNat + d)
      | none => c

/-- Drops low lines that stand between two digits; none when one stands elsewhere. -/
def dropDigitSeparators? (previous : Bool) : List Char → Option (List Char)
  | [] => some []
  | '_' :: rest =>
    match rest with
    | d :: _ => if previous && d.isDigit then dropDigitSeparators? false rest else none
    | [] => none
  | c :: rest => (dropDigitSeparators? c.isDigit rest).map (c :: ·)

/-- Blanks that a number may have around it; the four information separators are none. -/
def isNumberBlank (c : Char) : Bool :=
  Text.isBlank c && !(0x1c ≤ c.toNat && c.toNat ≤ 0x1f)

/-- A numeric text without the blanks around it. -/
def trimNumber (s : String) : List Char :=
  ((s.toList.dropWhile isNumberBlank).reverse.dropWhile isNumberBlank).reverse

/-- Reads a double from the free text of a document: blanks around it, digits of any script and
low lines between digits are accepted. -/
def readFreeFloat? (s : String) : Option Float := do
  let cs ← dropDigitSeparators? false (asciiDigits (trimNumber s))
  readSignedFloat? cs

/-- Reads a whole number from free text: blanks around it, a sign, digits of any script and low
lines between digits are accepted, but no more digits than the limit. -/
def readFreeInt? (s : String) : Option Int := do
  let cs ← dropDigitSeparators? false (asciiDigits (trimNumber s))
  let (negative, digits) := splitSign cs
  if digits.isEmpty || !digits.all Char.isDigit || digits.length > wholeDigitLimit then none
  else
    let n : Int := digitsValue digits
    some (if negative then -n else n)

/-- Low lines inside a setting are dropped unless they stand at an end or in pairs. -/
def dropSettingSeparators? (cs : List Char) : Option (List Char) :=
  let paired := (cs.zip (cs.drop 1)).any fun (a, b) => a == '_' && b == '_'
  if cs.head? == some '_' || cs.getLast? == some '_' || paired then none
  else some (cs.filter (· != '_'))

/-- Reads a double from a setting: it may have blanks around it or low lines inside, not both. -/
def readSettingFloat? (s : String) : Option Float :=
  (readSignedFloat? (trimNumber s)).or do
    readSignedFloat? (← dropSettingSeparators? s.toList)

/-- Drops zeros and low lines that follow a zero; `last` is the one before. A minus sign or another
digit ends them, and of zeros before a point the last one stays. -/
def dropZeros? (last : Char) : List Char → Option (List Char)
  | [] => some [last]
  | c :: rest =>
    if c = '0' || c = '_' then dropZeros? c rest
    else if c.isDigit || c = '-' then some (c :: rest)
    else if c = '.' then some (last :: c :: rest)
    else none

/-- Drops the zeros at the front of a number, which starts with a digit. -/
def dropLeadingZeros? : List Char → Option (List Char)
  | [] => none
  | c :: rest =>
    if c = '0' then dropZeros? c rest else if c.isDigit then some (c :: rest) else none

/-- Drops a fraction of zeros, one at least. -/
def dropZeroFraction (cs : List Char) : List Char :=
  match cs.dropWhile (· != '.') with
  | '.' :: '0' :: zeros => if zeros.all (· == '0') then cs.takeWhile (· != '.') else cs
  | _ => cs

/-- Reads a whole number in its plain form: a minus sign perhaps, then digits without zeros at the
front. -/
def readBareInt? (cs : List Char) : Option Int :=
  let (negative, digits) :=
    match cs with
    | '-' :: rest => (true, rest)
    | rest => (false, rest)
  let padded := digits.head? == some '0' && digits.length > 1
  if digits.isEmpty || padded || !digits.all Char.isDigit then none
  else
    let n : Int := digitsValue digits
    some (if negative then -n else n)

/-- The plain form of a whole number in a setting: blanks around it, a plus sign, zeros at the
front, a fraction of zeros and low lines inside are dropped. -/
def bareForm? (s : String) : Option (List Char) := do
  let (negative, unsigned) := splitSign (trimNumber s)
  let whole := dropZeroFraction (← dropLeadingZeros? unsigned)
  let digits := (dropSettingSeparators? whole).getD whole
  some (if negative then '-' :: digits else digits)

/-- Reads a whole number from a setting. -/
def readSettingInt? (s : String) : Option Int := do
  readBareInt? (← bareForm? s)

/-- Reads a whole number from digits of any script; none when another character is met. -/
def readPlainInt? (cs : List Char) : Option Nat :=
  if cs.isEmpty then none
  else cs.foldlM (fun n c => (Text.decimalValue? c).map (n * 10 + ·)) 0

end LeagueAudit
