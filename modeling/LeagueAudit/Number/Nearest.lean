import LeagueAudit.Number.Exact

/-!
The double nearest to a quotient of whole numbers. Ties go to the even fraction and quotients
beyond the largest double to an infinity, so every conversion to a double rounds once.
-/
namespace LeagueAudit

/-- The nearest whole number to `num / den`; a half goes to the even neighbour. -/
def divNearest (num den : Nat) : Nat :=
  let low := num / den
  let rest := 2 * (num % den)
  if rest < den then low
  else if rest > den then low + 1
  else if low % 2 = 0 then low else low + 1

/-- The bit pattern of the double nearest to `num / den`, for positive `den`. -/
def nearestBits (num den : Nat) : Nat :=
  if num = 0 then 0
  else
    -- the quotient lies in [2 ^ (width - 1), 2 ^ (width + 1))
    let width : Int := (num.log2 : Int) - den.log2
    let guess : Int := max (width - 52) (-1074)
    let below (unit : Int) : Bool :=
      if unit ≥ 0 then num < twoTo 52 * (den * twoTo unit.toNat)
      else num * twoTo (-unit).toNat < twoTo 52 * den
    -- the weight of the last fraction bit
    let unit : Int := if below guess ∧ guess > -1074 then guess - 1 else guess
    let mantissa :=
      if unit ≥ 0 then divNearest num (den * twoTo unit.toNat)
      else divNearest (num * twoTo (-unit).toNat) den
    let bits :=
      if mantissa < twoTo 52 then mantissa
      else (unit + 1075).toNat * twoTo 52 + (mantissa - twoTo 52)
    min bits 0x7ff0000000000000

/-- The double nearest to `num / den`, with the given sign. -/
def nearestFloat (negative : Bool) (num den : Nat) : Float :=
  let magnitude := Float.ofBits (UInt64.ofNat (nearestBits num den))
  if negative then -magnitude else magnitude

/-- The double nearest to a quotient; none when it is beyond the largest double. -/
def quotientFloat? (num : Int) (den : Nat) : Option Float :=
  let x := nearestFloat (num < 0) num.natAbs den
  if x.isInf then none else some x

/-- The double nearest to a whole number; none when it is beyond the largest double. -/
def intFloat? (n : Int) : Option Float := quotientFloat? n 1

/-- The double nearest to a whole number of steps. -/
def stepsFloat (steps : Int) : Float := nearestFloat (steps < 0) steps.natAbs stepsPerOne

end LeagueAudit
