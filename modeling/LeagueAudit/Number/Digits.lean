import LeagueAudit.Number.Nearest

/-!
Decimal digits of positive numbers: the first `n` digits, correctly rounded, and the fewest digits
that read back as the same double. Of two shortest readings the nearer one is taken, and in a tie
the one with the even last digit.
-/
namespace LeagueAudit

/-- A positive decimal `digits * 10 ^ (scale - (length of digits - 1))`: `scale` is the exponent of
the first digit. -/
structure Decimal where
  digits : Nat
  scale : Int
  deriving DecidableEq, Repr

/-- The number of decimal digits of a number, one for zero. -/
def digitCount (n : Nat) : Nat := (Nat.toDigits 10 n).length

/-- The exponent of the first digit of `num / den`. -/
def decimalScale (num den : Nat) : Int :=
  let guess : Int := (digitCount num : Int) - digitCount den
  let reached :=
    if guess ≥ 0 then num ≥ den * tenTo guess.toNat else num * tenTo (-guess).toNat ≥ den
  if reached then guess else guess - 1

/-- `num / den` in units of `10 ^ -places`, as a quotient of whole numbers. -/
def scaled (num den : Nat) (places : Int) : Nat × Nat :=
  if places ≥ 0 then (num * tenTo places.toNat, den) else (num, den * tenTo (-places).toNat)

/-- A whole number of units `10 ^ -places`, as a quotient of whole numbers. -/
def unscaled (digits : Nat) (places : Int) : Nat × Nat :=
  if places ≥ 0 then (digits, tenTo places.toNat) else (digits * tenTo (-places).toNat, 1)

/-- The first `count` digits of `num / den`, correctly rounded. -/
def Decimal.rounded (count num den : Nat) : Decimal :=
  let scale := decimalScale num den
  let (n, d) := scaled num den ((count : Int) - 1 - scale)
  let digits := divNearest n d
  if digits ≥ tenTo count then ⟨digits / 10, scale + 1⟩ else ⟨digits, scale⟩

/-- The reading of `num / den` with `count` digits that is read back as the double with the bits
`bits`, when there is one. -/
def Decimal.readsBack? (count num den bits : Nat) : Option Decimal :=
  let scale := decimalScale num den
  let places := (count : Int) - 1 - scale
  let (n, d) := scaled num den places
  let low := n / d
  let reads (digits : Nat) : Bool :=
    let (p, q) := unscaled digits places
    nearestBits p q == bits
  let nearest := divNearest n d
  let other := if nearest = low then low + 1 else low
  let pick (digits : Nat) : Decimal :=
    if digits ≥ tenTo count then ⟨digits / 10, scale + 1⟩ else ⟨digits, scale⟩
  if reads nearest then some (pick nearest)
  else if reads other then some (pick other)
  else none

/-- The fewest digits that read back; seventeen always do. -/
def Decimal.shortest (num den bits : Nat) : Decimal :=
  ((List.range 17).findSome? fun k => Decimal.readsBack? (k + 1) num den bits).getD
    (Decimal.rounded 17 num den)

end LeagueAudit
