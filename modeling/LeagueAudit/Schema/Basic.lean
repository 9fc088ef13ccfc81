import LeagueAudit.Json.Display

/-!
What schemas find wrong with documents, the types that they know, and the texts of places.
-/
namespace LeagueAudit

/-- One step from a value to one of its parts. -/
inductive Step where
  | name (key : String)
  | place (index : Nat)
  deriving DecidableEq, Repr

def Step.text : Step → String
  | name key => key
  | place index => toString index

/-- A value that breaks a keyword of a schema. -/
structure Problem where
  /-- The way from the whole document to the value. -/
  path : List Step := []
  message : String
  deriving DecidableEq, Repr

namespace Problem

/-- A problem of a part, seen from the whole. -/
def inside (step : Step) (p : Problem) : Problem := { p with path := step :: p.path }

/-- A letter of ASCII with letters, digits and low lines after it. -/
def isWordName : List Char → Bool
  | [] => false
  | c :: rest => c.isAlpha && rest.all fun c => c.isAlphanum || c == '_'

/-- A name that needs no quotes in a path; a line feed at its end does not count. -/
def isPlainName (key : String) : Bool :=
  let cs := key.toList
  isWordName cs || (cs.getLast? == some '\n' && isWordName cs.dropLast)

def stepAddress : Step → String
  | .place n => s!"[{n}]"
  | .name key =>
    if isPlainName key then "." ++ key
    else
      let escaped := key.toList.flatMap fun c =>
        if c = '\\' || c = '\'' then ['\\', c] else [c]
      "['" ++ String.ofList escaped ++ "']"

/-- The place of a problem as an expression; problems are sorted by it. -/
def address (p : Problem) : String := "$" ++ String.join (p.path.map stepAddress)

/-- The place of a problem as a pointer, empty for the whole document. -/
def pointer (p : Problem) : String := String.join (p.path.map fun s => "/" ++ s.text)

end Problem

namespace Schema

/-- A whole number, or a double without a fraction. -/
def isWhole : Json → Bool
  | .int _ => true
  | .float x =>
    match Exact.ofFloat x with
    | .finite steps => steps % stepsPerOne == 0
    | _ => false
  | _ => false

/-- The types by name. -/
def typeTests : List (String × (Json → Bool)) :=
  [("array", Json.isArray), ("boolean", fun v => v matches .bool _), ("integer", isWhole),
    ("null", Json.isNull), ("number", Json.isNumber), ("object", Json.isObject),
    ("string", fun v => v matches .str _)]

/-- A value has the type of a name; none when there is no such type. -/
def hasType? (value : Json) (name : String) : Option Bool :=
  (typeTests.lookup name).map fun test => test value

end Schema
end LeagueAudit
