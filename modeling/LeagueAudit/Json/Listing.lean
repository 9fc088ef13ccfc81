import LeagueAudit.Fault
import LeagueAudit.Json.Display

/-!
Values as lists: an array lists its items, an object its names and a text its characters. A value
that is not truthy lists nothing, and any other value cannot be listed. Values as members: an object
has its members, and a list of pairs has one member for each pair. Any value of two parts serves as a
pair, and a later member of a name replaces an earlier one.
-/
namespace LeagueAudit.Json

/-- The values that a truthy value lists. -/
def listed : Json → Except Fault (List Json)
  | arr items => .ok items
  | obj members => .ok (members.map fun (k, _) => str k)
  | str s => .ok (s.toList.map fun c => str (String.singleton c))
  | j => .error (.notListable j.typeName)

/-- The values that a value lists, none when it is not truthy. -/
def listedOrNone (j : Json) : Except Fault (List Json) := if j.truthy then j.listed else .ok []

/-- A member that must be there. -/
def required (j : Json) (key : String) : Except Fault Json :=
  match j with
  | obj members =>
    match members.lookup key with
    | some v => .ok v
    | none => .error (.missingKey key)
  | arr _ => .error (.wrongType "list indices must be integers or slices, not str")
  | str _ => .error (.wrongType "string indices must be integers, not 'str'")
  | j => .error (.wrongType s!"'{j.typeName}' object is not subscriptable")

/-- Reads an item of a list as a name and a value; a container cannot be a name. -/
def pairOf (position : Nat) (item : Json) : Except Fault (Json × Json) :=
  let element := s!"dictionary update sequence element #{position}"
  match item.listed with
  | .error _ => .error (.wrongType s!"cannot convert {element} to a sequence")
  | .ok [name, value] =>
    if name.isArray || name.isObject then .error (.notKey name.typeName) else .ok (name, value)
  | .ok parts => .error (.wrongValue s!"{element} has length {parts.length}; 2 is required")

/-- The pairs of a list from a position on, as far as they can be read, and why the next one
cannot. -/
def pairsFrom (position : Nat) : List Json → List (Json × Json) × Option Fault
  | [] => ([], none)
  | item :: rest =>
    match pairOf position item with
    | .error f => ([], some f)
    | .ok pair =>
      let (pairs, fault) := pairsFrom (position + 1) rest
      (pair :: pairs, fault)

/-- The pairs of a value as far as they can be read, and why there are no more. -/
def pairs : Json → List (Json × Json) × Option Fault
  | obj members => (members.map fun (k, v) => (str k, v), none)
  | j =>
    match j.listed with
    | .error f => ([], some f)
    | .ok items => pairsFrom 0 items

/-- The pairs of a value, or why it does not consist of pairs. -/
def allPairs (j : Json) : Except Fault (List (Json × Json)) :=
  match j.pairs with
  | (ps, none) => .ok ps
  | (_, some f) => .error f

/-- Members named by the texts of names. -/
def named (ps : List (Json × Json)) : List (String × Json) := ps.map fun (k, v) => (k.text, v)

/-- The members of a value that consists of pairs. -/
def memberwise (j : Json) : Except Fault (List (String × Json)) := do
  .ok (setMembers [] (named (← j.allPairs)))

end LeagueAudit.Json
