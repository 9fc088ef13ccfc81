import LeagueAudit.Fault
import LeagueAudit.Number.Format

/-!
Penalty models: how many points a violation amount costs. Amounts are priced in doubles; a tiered
price is defined for any ordered numbers, so that it can also be read exactly.
-/
namespace LeagueAudit

/-- One tier of a price: up to `limit` units, or all the rest, at a weight each. -/
structure Tier (α : Type) where
  limit : Option α
  weight : α

namespace Tier

variable {α : Type} [OfNat α 0] [Add α] [Sub α] [Mul α] [LE α] [LT α] [DecidableLE α]
  [DecidableLT α]

/-- The smaller of what remains and a limit. -/
def absorbed (remaining limit : α) : α := if limit < remaining then limit else remaining

/-- Adds to `total` what the tiers charge for the units that remain; what no tier absorbs is
charged at the base weight. -/
def charge (base remaining total : α) : List (Tier α) → α
  | [] => if 0 < remaining then total + remaining * base else total
  | t :: rest =>
    if remaining ≤ 0 then total
    else
      match t.limit with
      | some limit =>
        let used := absorbed remaining limit
        charge base (remaining - used) (total + used * t.weight) rest
      | none => charge base 0 (total + remaining * t.weight) rest

/-- The order of tiers: by limit, a tier without one last. -/
def notAfter (infinity : α) (a b : Tier α) : Bool :=
  !decide (b.limit.getD infinity < a.limit.getD infinity)

/-- The price of an amount. -/
def price (infinity base amount : α) (tiers : List (Tier α)) : α :=
  charge base amount 0 (tiers.mergeSort (notAfter infinity))

end Tier

/-- A penalty model with the weight that every model has. -/
inductive PenaltyModel where
  | linear (weight perViolation : Float)
  /-- `negative` is the sign of the weight, which a weight that is no number has too. -/
  | quadratic (weight exponent : Float) (negative : Bool)
  | exponential (weight base : Float) (negative : Bool)
  | logarithmic (weight : Float)
  | step (weight : Float)
  | lexicographic (weight : Float)
  | piecewise (weight : Float) (tiers : List (Tier Float))
  /-- A model of another name is charged by weight alone. -/
  | other (weight : Float) (name : String)

/-- The double infinity. -/
def infinity : Float := 1.0 / 0.0

/-- Euler's number. -/
def eulerBase : Float := 2.718281828459045

/-- How many points one place in a lexicographic order is worth. -/
def lexicographicScale : Float := 1e9

/-- The natural logarithm of one more than a positive amount, exact for small amounts too. -/
def logOnePlus (x : Float) : Float :=
  let u := 1.0 + x
  if u == 1.0 then x else if u.isInf then Float.log x else Float.log u * (x / (u - 1.0))

/-- A power of positive numbers; none when finite numbers have a power beyond all doubles. -/
def power? (x y : Float) : Option Float :=
  let z := Float.pow x y
  if z.isInf && x.isFinite && y.isFinite then none else some z

namespace PenaltyModel

def weight : PenaltyModel → Float
  | linear w _ => w
  | quadratic w _ _ => w
  | exponential w _ _ => w
  | logarithmic w => w
  | step w => w
  | lexicographic w => w
  | piecewise w _ => w
  | other w _ => w

/-- The sign of the weight, where points may be without bound. -/
def negative : PenaltyModel → Bool
  | quadratic _ _ n => n
  | exponential _ _ n => n
  | m => m.weight < 0.0

/-- The points of a positive amount; none when a power overflows. -/
def compute? (x : Float) : PenaltyModel → Option Float
  | linear w p => some (w * x + p)
  | quadratic w e _ => (power? x (if e == 0.0 then 2.0 else e)).map (w * ·)
  | exponential w b _ => if w == 0.0 then some 0.0 else (power? b x).map fun y => w * (y - 1.0)
  | logarithmic w => some (w * logOnePlus x)
  | step w => some (if x > 0.0 then w else 0.0)
  | lexicographic w => some ((if w == 0.0 then 1.0 else w) * lexicographicScale * x)
  | piecewise w tiers => some (Tier.price infinity w x tiers)
  | other w _ => some (w * x)

/-- The points when a power overflows: without bound, on the side of the weight. -/
def overflowed (m : PenaltyModel) : Float :=
  if m.weight == 0.0 then 0.0 else if m.negative then -infinity else infinity

/-- The points of an amount that is positive and finite, or zero. -/
def pointsOf (m : PenaltyModel) (x : Float) : Float :=
  if x == 0.0 then 0.0
  else
    let value := (m.compute? x).getD m.overflowed
    if value.isNaN then 0.0 else value

/-- The points of any amount: what is not positive and finite costs nothing. -/
def priceOf (m : PenaltyModel) (x : Float) : Float :=
  if x.isFinite && x > 0.0 then m.pointsOf x else 0.0

/-- A short description. -/
def describe : PenaltyModel → String
  | linear w _ => s!"{amountText w} per unit"
  | quadratic w e _ => s!"{amountText w} * x^{amountText e}"
  | exponential w b _ =>
    let base := if b == eulerBase then "e" else amountText b
    s!"{amountText w} * {base}^x"
  | logarithmic w => s!"{amountText w} * ln(1 + x)"
  | step w => s!"{amountText w} per violation"
  | lexicographic w => s!"priority rank (weight={amountText w})"
  | piecewise _ tiers => s!"tiered ({tiers.length} tiers)"
  | other w name => s!"{name} (weight={amountText w})"

end PenaltyModel
end LeagueAudit
