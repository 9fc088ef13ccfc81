import LeagueAudit.Number.Sum
import LeagueAudit.Text.Utf8

/-!
What can go wrong. A `Trouble` is foreseen: it has a kind, a source and often a suggested action.
Any other `Fault` means that a value of the documents does not fit the computation it met.
-/
namespace LeagueAudit

/-- The kinds of foreseen troubles. -/
inductive TroubleKind where
  | config | data | registry | selector | penaltyModel | ruleExecution | normalization
  deriving DecidableEq, Repr

/-- The name of a kind in messages. -/
def TroubleKind.name : TroubleKind → String
  | config => "ConfigError"
  | data => "DataError"
  | registry => "RegistryError"
  | selector => "SelectorError"
  | penaltyModel => "PenaltyModelError"
  | ruleExecution => "RuleExecutionError"
  | normalization => "NormalizationFailure"

/-- A foreseen trouble. -/
structure Trouble where
  kind : TroubleKind
  message : String
  source : String
  action : Option String := none
  deriving DecidableEq, Repr

/-- The full text of a trouble. -/
def Trouble.text (t : Trouble) : String :=
  let source := if t.source.isEmpty then "" else s!" (source={t.source})"
  let action :=
    match t.action with
    | some a => if a.isEmpty then "" else s!" | action: {a}"
    | none => ""
  s!"[{t.kind.name}] {t.message}{source}{action}"

/-- Why a computation has no value. -/
inductive Fault where
  | trouble (t : Trouble)
  /-- A record does not fit its declared fields; the text lists the misfits. -/
  | misfit (text : String)
  /-- A value of the named type was to be listed. -/
  | notListable (typeName : String)
  /-- A value without a place in an order was to be compared. -/
  | notComparable (message : String)
  /-- A whole number is beyond the largest double. -/
  | integerTooLarge
  /-- A quotient of whole numbers is beyond the largest double. -/
  | quotientTooLarge
  | infiniteInteger
  | undefinedInteger
  | dateOutOfRange
  /-- Digits that are no decimal digits were to be read as a number. -/
  | badDigits (text : String)
  | unknownZone (name : String)
  | badZoneName (name : String)
  /-- A name that leads to a folder of zones. -/
  | zoneFolder (name : String)
  /-- A name with a step that no file can have. -/
  | longName (name : String)
  | sum (fault : SumFault)
  /-- A tolerance below zero. -/
  | negativeTolerance
  | missingKey (key : String)
  /-- A container was to serve as a name. -/
  | notKey (typeName : String)
  /-- A value that does not fit the operation it met. -/
  | wrongType (message : String)
  /-- A text that is no number where one is needed. -/
  | notNumeric (message : String)
  /-- A value of the right type that the operation does not accept. -/
  | wrongValue (message : String)
  /-- A schema refers to a place that does not exist. -/
  | openReference (reference : String)
  /-- A computation without an end. -/
  | unending
  /-- A rule does not return. -/
  | silence
  | missingFeature (message : String)
  | unreadableBytes (fault : Text.ByteFault)
  /-- A text holds what cannot be written as bytes. -/
  | unwritableText
  /-- A fault that a scripted rule names itself. -/
  | raised (category message : String)

/-- The name of the class of a fault in messages. -/
def Fault.category : Fault → String
  | trouble t => t.kind.name
  | misfit _ => "ValidationError"
  | notListable _ => "TypeError"
  | notComparable _ => "TypeError"
  | integerTooLarge => "OverflowError"
  | quotientTooLarge => "OverflowError"
  | infiniteInteger => "OverflowError"
  | undefinedInteger => "ValueError"
  | dateOutOfRange => "OverflowError"
  | badDigits _ => "ValueError"
  | unknownZone _ => "ZoneInfoNotFoundError"
  | badZoneName _ => "ValueError"
  | zoneFolder _ => "IsADirectoryError"
  | longName _ => "OSError"
  | sum .overflow => "OverflowError"
  | sum .opposedInfinities => "ValueError"
  | negativeTolerance => "ValueError"
  | missingKey _ => "KeyError"
  | notKey _ => "TypeError"
  | wrongType _ => "TypeError"
  | notNumeric _ => "ValueError"
  | wrongValue _ => "ValueError"
  | openReference _ => "_WrappedReferencingError"
  | unending => "RecursionError"
  | silence => "TimeoutError"
  | missingFeature _ => "AttributeError"
  | unreadableBytes _ => "UnicodeDecodeError"
  | unwritableText => "UnicodeEncodeError"
  | raised category _ => category

/-- The text of a fault in messages. -/
def Fault.message : Fault → String
  | trouble t => t.text
  | misfit text => text
  | notListable typeName => s!"'{typeName}' object is not iterable"
  | notComparable message => message
  | integerTooLarge => "int too large to convert to float"
  | quotientTooLarge => "integer division result too large for a float"
  | infiniteInteger => "cannot convert float infinity to integer"
  | undefinedInteger => "cannot convert float NaN to integer"
  | dateOutOfRange => "date value out of range"
  | badDigits text => s!"invalid literal for int() with base 10: {Text.quoted text}"
  | unknownZone name => s!"'No time zone found with key {name}'"
  | badZoneName name => s!"ZoneInfo keys must be normalized relative paths, got: {name}"
  | zoneFolder name => s!"[Errno 21] Is a directory: {Text.quoted name}"
  | longName name => s!"[Errno 36] File name too long: {Text.quoted name}"
  | sum .overflow => "intermediate overflow in fsum"
  | sum .opposedInfinities => "-inf + inf in fsum"
  | negativeTolerance => "tolerances must be non-negative"
  | missingKey key => Text.quoted key
  | notKey typeName => s!"unhashable type: '{typeName}'"
  | wrongType message => message
  | notNumeric message => message
  | wrongValue message => message
  | openReference reference => reference
  | unending => "maximum recursion depth exceeded"
  | silence => ""
  | missingFeature message => message
  | unreadableBytes fault => fault.message
  | unwritableText => "'utf-8' codec can't encode characters: surrogates not allowed"
  | raised _ message => message

/-- The double of a whole number, or a fault when it is too large. -/
def intToFloat (n : Int) : Except Fault Float :=
  match intFloat? n with
  | some x => .ok x
  | none => .error .integerTooLarge

/-- The nearest whole number of a double, a half going to the even one. -/
def roundToInt (x : Float) : Except Fault Int :=
  match Exact.ofFloat x with
  | .finite steps => .ok (Exact.roundHalfEven steps)
  | .infinite _ => .error .infiniteInteger
  | .undefined => .error .undefinedInteger

/-- The whole part of a double. -/
def truncateToInt (x : Float) : Except Fault Int :=
  match Exact.ofFloat x with
  | .finite steps => .ok (Exact.truncate steps)
  | .infinite _ => .error .infiniteInteger
  | .undefined => .error .undefinedInteger

/-- The sum of doubles, rounded once. -/
def sumFloats (xs : List Float) : Except Fault Float := (exactSum xs).mapError .sum

end LeagueAudit
