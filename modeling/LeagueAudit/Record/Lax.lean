import LeagueAudit.Record.Misfit
import LeagueAudit.Number.Reading
import LeagueAudit.Text.Class

/-!
Reading declared fields generously: numbers and truth values may be given as text, and truth values
as numbers. The result is the value or the rule that is broken.
-/
namespace LeagueAudit.Lax

abbrev Read (α : Type) := Except FieldRule α

/-- Reads a text that is made of characters alone. -/
def ofWhole {α : Type} (s : String) (read : String → Read α) : Read α :=
  if s.toList.any Text.isStandIn then .error .rawText else read s

/-- The double of a numeric text. -/
def floatOfText (s : String) : Read Float :=
  match readSettingFloat? s with
  | some x => .ok x
  | none => .error .numberText

/-- A double from a number, a truth value or a numeric text. -/
def readFloat : Json → Read Float
  | .float x => .ok x
  | .int n =>
    match intFloat? n with
    | some x => .ok x
    | none => .error .number
  | .bool b => .ok (if b then 1.0 else 0.0)
  | .str s => ofWhole s floatOfText
  | _ => .error .number

/-- The whole number that a double is. -/
def intOfFloat (x : Float) : Read Int :=
  match Exact.ofFloat x with
  | .finite steps =>
    if steps % stepsPerOne != 0 then .error .integerFraction
    else if steps.natAbs < twoTo 63 * stepsPerOne then .ok (Exact.truncate steps)
    else .error .integerSize
  | _ => .error .finiteNumber

/-- A whole number from a text. -/
def intOfText (s : String) : Read Int :=
  if s.length > wholeDigitLimit && (readBareInt? s.toList).isSome then .error .integerSize
  else
    match readSettingInt? s with
    | some n => .ok n
    | none => .error .integerText

/-- A whole number from a number without a fraction, a truth value or an integer text. -/
def readInt : Json → Read Int
  | .int n => .ok n
  | .float x => intOfFloat x
  | .bool b => .ok (if b then 1 else 0)
  | .str s => ofWhole s intOfText
  | _ => .error .integer

def truthWords : List (String × Bool) :=
  [("true", true), ("t", true), ("yes", true), ("y", true), ("on", true), ("1", true),
    ("false", false), ("f", false), ("no", false), ("n", false), ("off", false), ("0", false)]

def truthOfInt (n : Int) : Read Bool :=
  if n = 0 then .ok false else if n = 1 then .ok true else .error .truthText

def truthOfText (s : String) : Read Bool :=
  match truthWords.lookup (String.ofList (s.toList.map Char.toLower)) with
  | some b => .ok b
  | none => .error .truthText

/-- A truth value from itself, from zero or one, or from a word in any case. -/
def readBool : Json → Read Bool
  | .bool b => .ok b
  | .int n => truthOfInt n
  | .float x =>
    match intOfFloat x with
    | .ok n => truthOfInt n
    | .error _ => .error .truth
  | .str s => ofWhole s truthOfText
  | _ => .error .truth

/-- A text. -/
def readString : Json → Read String
  | .str s => .ok s
  | _ => .error .text

/-- The fields of a record that were read, with the misfits in the order of the fields. -/
def field {α : Type} (members : List (String × Json)) (names : List String) (default : α)
    (read : Json → Read α) : α × List Misfit :=
  match names.findSome? fun name => (members.lookup name).map (name, ·) with
  | none => (default, [])
  | some (name, value) =>
    match read value with
    | .ok a => (a, [])
    | .error rule => (default, [(Misfit.ofJson rule value).below name])

end LeagueAudit.Lax
