import LeagueAudit.Json.Listing
import LeagueAudit.Schema.Found

/-!
Bounds for numbers and for sizes. A truth value as a bound stands for a number; any other value
cannot be compared.
-/
namespace LeagueAudit.Schema

/-- The text of a value in messages. -/
def shown (v : Json) : String := v.inspect false

/-- The order of a number and a bound, none when one is undefined. -/
def orderOf (a bound : Json) : Except Fault (Option Ordering) :=
  if bound.asCount.isNumber then .ok (compareNumbers a bound.asCount)
  else
    .error (.wrongType
      s!"'<' not supported between instances of '{a.typeName}' and '{bound.typeName}'")

/-- A bound is broken by numbers that stand in one of the orders to it. -/
structure BoundRule where
  bad : Ordering → Bool
  /-- What the message says between the number and the bound. -/
  relation : String

def BoundRule.check (r : BoundRule) (bound value : Json) : Found :=
  if !value.isNumber then .clear
  else
    .ofExcept (orderOf value bound) fun o =>
      .when (o.any r.bad) s!"{shown value} {r.relation} {shown bound}"

def minimumRule : BoundRule := ⟨(· == .lt), "is less than the minimum of"⟩
def maximumRule : BoundRule := ⟨(· == .gt), "is greater than the maximum of"⟩
def aboveRule : BoundRule := ⟨(· != .gt), "is less than or equal to the minimum of"⟩
def belowRule : BoundRule := ⟨(· != .lt), "is greater than or equal to the maximum of"⟩

/-- A bound for sizes; of one bound the message speaks in words of its own. -/
structure SizeRule where
  bad : Ordering
  words : String
  special : Int
  specialWords : String

def SizeRule.check (r : SizeRule) (size : Nat) (bound value : Json) : Found :=
  .ofExcept (orderOf (.int size) bound) fun o =>
    let words := if bound.same (.int r.special) then r.specialWords else r.words
    .when (o == some r.bad) s!"{shown value} {words}"

def leastSize (words : String) : SizeRule := ⟨.lt, words, 1, "should be non-empty"⟩
def mostSize (words : String) : SizeRule := ⟨.gt, words, 0, "is expected to be empty"⟩

/-- A number in the smallest steps of doubles. -/
def stepsOf : Json → Exact
  | .int n => .finite (n * stepsPerOne)
  | .float x => Exact.ofFloat x
  | _ => .undefined

/-- A number is a multiple of a whole one. Doubles are compared with the double of the unit. -/
def isMultipleOfInt (value : Json) (unit : Int) : Except Fault Bool :=
  match value with
  | .int n =>
    if unit = 0 then .error (.raised "ZeroDivisionError" "integer modulo by zero")
    else .ok (n % unit == 0)
  | v => do
    let y ← intToFloat unit
    if y == 0.0 then .error (.raised "ZeroDivisionError" "float modulo")
    else
      match stepsOf v, Exact.ofFloat y with
      | .finite a, .finite b => .ok (a % b == 0)
      | _, _ => .ok false

/-- A number is a multiple of a double: their quotient, as it is rounded, has no fraction. A
quotient beyond all doubles is taken as it is. -/
def isMultipleOfFloat (value : Json) (unit : Float) : Except Fault Bool := do
  let x ←
    match value with
    | .int n => intToFloat n
    | .float x => .ok x
    | _ => .ok 0.0
  if unit == 0.0 then .error (.raised "ZeroDivisionError" "float division by zero")
  else
    match Exact.ofFloat (x / unit), stepsOf value, Exact.ofFloat unit with
    | .finite steps, _, _ => .ok (steps % stepsPerOne == 0)
    | .infinite _, .finite a, .finite b => .ok (a % b == 0)
    | .infinite _, _, _ => .error .infiniteInteger
    | .undefined, _, _ => .error .undefinedInteger

/-- A number is a multiple of a unit. -/
def isMultiple (value unit : Json) : Except Fault Bool :=
  match unit.asCount with
  | .int n => isMultipleOfInt value n
  | .float y => isMultipleOfFloat value y
  | j => .error (.wrongType
      s!"unsupported operand type(s) for %: '{value.typeName}' and '{j.typeName}'")

def checkMultiple (unit value : Json) : Found :=
  if !value.isNumber then .clear
  else
    .ofExcept (isMultiple value unit) fun fits =>
      .when (!fits) s!"{shown value} is not a multiple of {shown unit}"

end LeagueAudit.Schema
