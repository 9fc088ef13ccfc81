import LeagueAudit.Number.Digits

/-!
How doubles are written. A `NumberStyle` says which exponents are written positionally and whether a
whole number keeps a fraction; the digits come from `Decimal`.
-/
namespace LeagueAudit

/-- The decisions of one number style. -/
structure NumberStyle where
  /-- The least exponent written positionally. -/
  lowest : Int
  /-- The first exponent written with a power of ten. -/
  highest : Int
  /-- Whether a positional whole number ends in `.0`. -/
  keepsFraction : Bool

/-- Full precision: positional from `1e-4` below `1e16`, and always with a fraction. -/
def NumberStyle.full : NumberStyle := ⟨-4, 16, true⟩

/-- General style with `count` significant digits, trailing zeros dropped. -/
def NumberStyle.general (count : Nat) : NumberStyle := ⟨-4, count, false⟩

/-- The digits of a number without its trailing zeros, one digit at least. -/
def trimmedDigits (digits : Nat) : List Char :=
  let cs := Nat.toDigits 10 digits
  match (cs.reverse.dropWhile (· == '0')).reverse with
  | [] => ['0']
  | kept => kept

/-- A signed exponent of two digits at least. -/
def exponentText (scale : Int) : List Char :=
  let cs := Nat.toDigits 10 scale.natAbs
  'e' :: (if scale < 0 then '-' else '+') :: (if cs.length < 2 then '0' :: cs else cs)

/-- The text of a positive decimal. -/
def Decimal.layout (style : NumberStyle) (d : Decimal) : List Char :=
  let cs := trimmedDigits d.digits
  if style.lowest ≤ d.scale ∧ d.scale < style.highest then
    if d.scale < 0 then
      '0' :: '.' :: (List.replicate (-d.scale - 1).toNat '0' ++ cs)
    else
      let whole := d.scale.toNat + 1
      let digits := cs ++ List.replicate (whole - cs.length) '0'
      let fraction := digits.drop whole
      digits.take whole ++
        (if fraction.isEmpty then (if style.keepsFraction then ['.', '0'] else [])
         else '.' :: fraction)
  else
    match cs with
    | [] => []
    | first :: rest =>
      first :: ((if rest.isEmpty then [] else '.' :: rest) ++ exponentText d.scale)

/-- The text of zero. -/
def zeroText (style : NumberStyle) : String := if style.keepsFraction then "0.0" else "0"

/-- Writes the sign and the names of the values without digits; `finite` writes a positive
magnitude given in steps. -/
def writeFloat (zero : String) (finite : Nat → String) (x : Float) : String :=
  let sign := if hasMinusSign x then "-" else ""
  match Exact.ofFloat x with
  | .undefined => "nan"
  | .infinite _ => sign ++ "inf"
  | .finite steps => sign ++ (if steps = 0 then zero else finite steps.natAbs)

/-- The shortest text that reads back as the same double. -/
def floatText (x : Float) : String :=
  writeFloat (zeroText .full) (fun steps =>
    let bits := x.toBits.toNat % twoTo 63
    String.ofList ((Decimal.shortest steps stepsPerOne bits).layout .full)) x

/-- The text of a double with `count` significant digits, trailing zeros dropped. -/
def generalText (count : Nat) (x : Float) : String :=
  writeFloat (zeroText (.general count)) (fun steps =>
    String.ofList ((Decimal.rounded count steps stepsPerOne).layout (.general count))) x

/-- The text that reports use for amounts inside sentences: six significant digits. -/
def amountText (x : Float) : String := generalText 6 x

/-- Pads a number with zeros on the left. -/
def padded (width n : Nat) : String :=
  let cs := Nat.toDigits 10 n
  String.ofList (List.replicate (width - cs.length) '0' ++ cs)

/-- A double with two decimal places, the exact binary value being rounded. -/
def hundredthsText (x : Float) : String :=
  writeFloat "0.00" (fun steps =>
    let n := divNearest (steps * 100) stepsPerOne
    toString (n / 100) ++ "." ++ padded 2 (n % 100)) x

end LeagueAudit
