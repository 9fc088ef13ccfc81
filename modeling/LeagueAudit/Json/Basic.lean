import LeagueAudit.Number.Format

/-!
Documents: JSON values with whole numbers kept apart from doubles and the members of an object in
the order in which they were written. Absent members read as null.
-/
namespace LeagueAudit

/-- A JSON value. -/
inductive Json where
  | null
  | bool (b : Bool)
  | int (n : Int)
  | float (x : Float)
  | str (s : String)
  | arr (items : List Json)
  | obj (members : List (String × Json))
  deriving Inhabited

namespace Json

/-- The name by which messages call the type of a value. -/
def typeName : Json → String
  | null => "NoneType"
  | bool _ => "bool"
  | int _ => "int"
  | float _ => "float"
  | str _ => "str"
  | arr _ => "list"
  | obj _ => "dict"

/-- Null, false, zero and the empty text and containers are not truthy. -/
def truthy : Json → Bool
  | null => false
  | bool b => b
  | int n => n != 0
  | float x => x != 0.0
  | str s => !s.isEmpty
  | arr items => !items.isEmpty
  | obj members => !members.isEmpty

def isNull : Json → Bool
  | null => true
  | _ => false

def isObject : Json → Bool
  | obj _ => true
  | _ => false

def isArray : Json → Bool
  | arr _ => true
  | _ => false

def asString? : Json → Option String
  | str s => some s
  | _ => none

def asArray? : Json → Option (List Json)
  | arr items => some items
  | _ => none

def asObject? : Json → Option (List (String × Json))
  | obj members => some members
  | _ => none

/-- A number is a whole number or a double; a truth value is not. -/
def isNumber : Json → Bool
  | int _ => true
  | float _ => true
  | _ => false

/-- The value of a member. -/
def find? (j : Json) (key : String) : Option Json :=
  match j with
  | obj members => members.lookup key
  | _ => none

/-- The value of a member, null when it is absent. -/
def field (j : Json) (key : String) : Json := (j.find? key).getD null

/-- An object has a member. -/
def has (j : Json) (key : String) : Bool := (j.find? key).isSome

/-- The members of an object, none of anything else. -/
def members : Json → List (String × Json)
  | obj ms => ms
  | _ => []

/-- The items of an array, none of anything else. -/
def items : Json → List Json
  | arr xs => xs
  | _ => []

/-- The first value that is truthy, else the last. -/
def orElse (a b : Json) : Json := if a.truthy then a else b

/-- A value that is not null. -/
def notNull? (j : Json) : Option Json := if j.isNull then none else some j

/-- Sets a member: an existing one keeps its place, a new one goes last. -/
def setMember {α : Type} (key : String) (value : α) : List (String × α) → List (String × α)
  | [] => [(key, value)]
  | (k, v) :: rest => if k = key then (k, value) :: rest else (k, v) :: setMember key value rest

/-- Sets several members in turn. -/
def setMembers {α : Type} (base more : List (String × α)) : List (String × α) :=
  more.foldl (fun acc (k, v) => setMember k v acc) base

/-- Two numbers are equal as numbers. -/
def sameNumber : Json → Json → Option Bool
  | int a, int b => some (a == b)
  | int a, float b => some (floatEqInt b a)
  | float a, int b => some (floatEqInt a b)
  | float a, float b => some (a == b)
  | _, _ => none

/-- A double without a value. -/
def isUndefined : Json → Bool
  | float x => x.isNaN
  | _ => false

/-- A truth value as the number it stands for. -/
def asCount : Json → Json
  | bool b => int (if b then 1 else 0)
  | j => j

mutual

/-- Equality of values. Whole numbers and doubles are compared as numbers, and with `counts` truth
values too; without it every undefined double equals every other one. The order of members does not
matter. -/
def equal (counts : Bool) : Json → Json → Bool
  | null, null => true
  | bool a, bool b => a == b
  | str a, str b => a == b
  | arr xs, arr ys => equalItems counts xs ys
  | obj xs, obj ys => xs.length == ys.length && equalMembers counts xs ys
  | a, b =>
    if counts then (sameNumber (asCount a) (asCount b)).getD false
    else (sameNumber a b).getD false || (isUndefined a && isUndefined b)

def equalItems (counts : Bool) : List Json → List Json → Bool
  | [], [] => true
  | x :: xs, y :: ys => equal counts x y && equalItems counts xs ys
  | _, _ => false

/-- Every member of the first list has an equal one in the second. -/
def equalMembers (counts : Bool) : List (String × Json) → List (String × Json) → Bool
  | [], _ => true
  | (k, v) :: rest, ys =>
    (match ys.lookup k with
      | some w => equal counts v w
      | none => false) && equalMembers counts rest ys

end

/-- Equality with truth values counted as numbers. -/
def same (a b : Json) : Bool := equal true a b

/-- A value is the given text. -/
def isText (j : Json) (s : String) : Bool :=
  match j with
  | str t => t == s
  | _ => false

end Json

/-- The order of two numbers; none when one is undefined. -/
def compareNumbers : Json → Json → Option Ordering
  | .int a, .int b => some (compare a b)
  | .int a, .float b => (Exact.ofFloat b).compareInt a
  | .float a, .int b => ((Exact.ofFloat a).compareInt b).map Ordering.swap
  | .float a, .float b =>
    if a < b then some .lt else if a > b then some .gt else if a == b then some .eq else none
  | _, _ => none

end LeagueAudit
