import LeagueAudit.Number.Nearest

/-!
Sums of doubles. One is rounded once: the exact sum of the finite terms is kept in steps, so the order
of the terms does not matter unless a running sum leaves the range of doubles. The other remembers
what rounding took from its running sum, and adds that to the next term.
-/
namespace LeagueAudit

/-- Why a sum has no value. -/
inductive SumFault where
  /-- A running sum of finite terms is beyond the largest double. -/
  | overflow
  /-- Infinities of both signs are among the terms. -/
  | opposedInfinities
  deriving DecidableEq, Repr

/-- The running sum: the exact part in steps, and which values without digits were met. -/
structure RunningSum where
  steps : Int
  plusInfinity : Bool
  minusInfinity : Bool
  undefined : Bool

namespace RunningSum

def empty : RunningSum := ⟨0, false, false, false⟩

/-- Adds one term. A value without digits starts the exact part afresh. -/
def add (s : RunningSum) (x : Float) : Except SumFault RunningSum :=
  match Exact.ofFloat x with
  | .finite n =>
    let steps := s.steps + n
    if (stepsFloat steps).isInf then .error .overflow else .ok { s with steps }
  | .infinite false => .ok { s with steps := 0, plusInfinity := true }
  | .infinite true => .ok { s with steps := 0, minusInfinity := true }
  | .undefined => .ok { s with steps := 0, undefined := true }

/-- The sum as a double. -/
def result (s : RunningSum) : Except SumFault Float :=
  if s.plusInfinity && s.minusInfinity then .error .opposedInfinities
  else if s.undefined then .ok (0.0 / 0.0)
  else if s.plusInfinity then .ok (1.0 / 0.0)
  else if s.minusInfinity then .ok (-1.0 / 0.0)
  else .ok (stepsFloat s.steps)

end RunningSum

/-- The sum of the terms, rounded once. -/
def exactSum (xs : List Float) : Except SumFault Float := do
  (← xs.foldlM RunningSum.add RunningSum.empty).result

/-- A running sum, and how much it is too large. -/
structure CarriedSum where
  total : Float := 0.0
  excess : Float := 0.0

namespace CarriedSum

/-- Adds a term. Infinite terms leave no excess. -/
def add (s : CarriedSum) (x : Float) : CarriedSum :=
  let term := x - s.excess
  let total := s.total + term
  let excess := total - s.total - term
  ⟨total, if excess.isNaN then 0.0 else excess⟩

end CarriedSum

/-- The sum of terms in their order. -/
def carriedSum (xs : List Float) : Float := (xs.foldl CarriedSum.add {}).total

end LeagueAudit
