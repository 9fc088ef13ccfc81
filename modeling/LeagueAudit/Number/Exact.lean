/-!
What a double stands for. A finite double is a whole number of steps, a step being the smallest
positive double `2 ^ -1074`; so comparisons, sums and cuts to whole numbers are integer arithmetic.
-/
namespace LeagueAudit

/-- A power of two. -/
def twoTo (exponent : Nat) : Nat := Nat.pow 2 exponent

/-- A power of ten. -/
def tenTo (exponent : Nat) : Nat := Nat.pow 10 exponent

/-- The number of steps in one. -/
def stepsPerOne : Nat := twoTo 1074

/-- The value of a double. -/
inductive Exact where
  | finite (steps : Int)
  | infinite (negative : Bool)
  | undefined
  deriving DecidableEq, Repr

namespace Exact

/-- Reads sign, exponent field and fraction field. -/
def ofFloat (x : Float) : Exact :=
  let bits := x.toBits.toNat
  let fraction := bits % twoTo 52
  let exponent := bits / twoTo 52 % twoTo 11
  let negative := bits / twoTo 63 == 1
  if exponent = 2047 then
    if fraction = 0 then infinite negative else undefined
  else
    let magnitude : Nat :=
      if exponent = 0 then fraction else (twoTo 52 + fraction) * twoTo (exponent - 1)
    finite (if negative then -(magnitude : Int) else magnitude)

/-- The order of a whole number and a double, compared exactly; none when the double is
undefined. -/
def compareInt (n : Int) : Exact → Option Ordering
  | finite steps => some (compare (n * stepsPerOne) steps)
  | infinite negative => some (if negative then .gt else .lt)
  | undefined => none

/-- The value of a whole number. -/
def ofInt (n : Int) : Exact := finite (n * stepsPerOne)

/-- The order of values from minus infinity to infinity; undefined ones come last. -/
def notAfter : Exact → Exact → Bool
  | _, undefined => true
  | undefined, _ => false
  | infinite true, _ => true
  | _, infinite false => true
  | finite a, finite b => decide (a ≤ b)
  | _, _ => false

/-- How two values stand in that order. -/
def order (a b : Exact) : Ordering :=
  if a.notAfter b then (if b.notAfter a then .eq else .lt) else .gt

/-- The whole part, the fraction being dropped. -/
def truncate (steps : Int) : Int := steps.tdiv stepsPerOne

/-- The nearest whole number; a half goes to the even neighbour. -/
def roundHalfEven (steps : Int) : Int :=
  let low := steps.fdiv stepsPerOne
  let rest := 2 * (steps - low * stepsPerOne)
  if rest < stepsPerOne then low
  else if rest > stepsPerOne then low + 1
  else if low % 2 = 0 then low else low + 1

end Exact

/-- Whether a double carries the minus sign, which tells the two zeros apart. -/
def hasMinusSign (x : Float) : Bool := x.toBits ≥ 0x8000000000000000

/-- A whole number is less than a double. -/
def intLtFloat (n : Int) (x : Float) : Bool := (Exact.ofFloat x).compareInt n == some .lt

/-- A double is less than a whole number. -/
def floatLtInt (x : Float) (n : Int) : Bool := (Exact.ofFloat x).compareInt n == some .gt

/-- A double and a whole number are the same number. -/
def floatEqInt (x : Float) (n : Int) : Bool := (Exact.ofFloat x).compareInt n == some .eq

end LeagueAudit
