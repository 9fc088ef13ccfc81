import LeagueAudit.Json.Display

/-!
Misfits: values that do not fit the declared fields of a record. A misfit says where it is, which
rule the value breaks and how the value is shown.
-/
namespace LeagueAudit

/-- The rules of declared fields. -/
inductive FieldRule where
  | number | numberText
  | integer | integerText | integerFraction | integerSize | finiteNumber
  | text | rawText
  | truth | truthText
  | greaterThan (bound : String)
  | atLeast (bound : String)
  | declared
  | list
  | record (name : String)
  | literally (word : String)
  | stated (reason : String)
  deriving DecidableEq, Repr

namespace FieldRule

/-- The sentence of a rule. -/
def message : FieldRule → String
  | number => "Input should be a valid number"
  | numberText => "Input should be a valid number, unable to parse string as a number"
  | integer => "Input should be a valid integer"
  | integerText => "Input should be a valid integer, unable to parse string as an integer"
  | integerFraction => "Input should be a valid integer, got a number with a fractional part"
  | integerSize => "Unable to parse input string as an integer, exceeded maximum size"
  | finiteNumber => "Input should be a finite number"
  | text => "Input should be a valid string"
  | rawText => "Input should be a valid string, unable to parse raw data as a unicode string"
  | truth => "Input should be a valid boolean"
  | truthText => "Input should be a valid boolean, unable to interpret input"
  | greaterThan bound => s!"Input should be greater than {bound}"
  | atLeast bound => s!"Input should be greater than or equal to {bound}"
  | declared => "Extra inputs are not permitted"
  | list => "Input should be a valid list"
  | record name => s!"Input should be a valid dictionary or instance of {name}"
  | literally word => s!"Input should be '{word}'"
  | stated reason => s!"Value error, {reason}"

/-- The short name of a rule. -/
def code : FieldRule → String
  | number => "float_type"
  | numberText => "float_parsing"
  | integer => "int_type"
  | integerText => "int_parsing"
  | integerFraction => "int_from_float"
  | integerSize => "int_parsing_size"
  | finiteNumber => "finite_number"
  | text => "string_type"
  | rawText => "string_unicode"
  | truth => "bool_type"
  | truthText => "bool_parsing"
  | greaterThan _ => "greater_than"
  | atLeast _ => "greater_than_equal"
  | declared => "extra_forbidden"
  | list => "list_type"
  | record _ => "model_type"
  | literally _ => "literal_error"
  | stated _ => "value_error"

end FieldRule

/-- A value that does not fit. -/
structure Misfit where
  path : List String
  rule : FieldRule
  /-- The value in full, and the name of its type. -/
  shown : String
  typeName : String
  deriving DecidableEq, Repr

namespace Misfit

/-- The steps to the value, joined by dots. -/
def place (m : Misfit) : String := String.intercalate "." m.path

/-- Moves a misfit below one more step. -/
def below (step : String) (m : Misfit) : Misfit := { m with path := step :: m.path }

/-- Place and sentence in one line. -/
def brief (m : Misfit) : String :=
  let place := if m.path.isEmpty then "(root)" else m.place
  s!"{place}: {m.rule.message}"

/-- Place, sentence and value in two lines. -/
def detail (m : Misfit) : String :=
  let value := s!"input_value={Text.preview m.shown}, input_type={m.typeName}"
  s!"{m.place}\n  {m.rule.message} [type={m.rule.code}, {value}]"

/-- The misfits of a record in one text. -/
def report (record : String) (misfits : List Misfit) : String :=
  let noun := if misfits.length = 1 then "error" else "errors"
  String.intercalate "\n"
    (s!"{misfits.length} validation {noun} for {record}" :: misfits.map detail)

/-- A document value that breaks a rule. -/
def ofJson (rule : FieldRule) (value : Json) : Misfit :=
  ⟨[], rule, value.inspect false, value.typeName⟩

end Misfit

end LeagueAudit
