import LeagueAudit.Json.Basic
import LeagueAudit.Text.Class

/-!
Options on a command line. An option may be given by any beginning of its name that no other option
shares, and its value behind an equals sign or as the next word. Two hyphens separate the options
from words that are none, and stand for nothing themselves, wherever one value is taken.
-/
namespace LeagueAudit.CommandLine

/-- Why a command line is not carried out: help is wanted, or it is not understood. -/
inductive Refusal where
  | help
  | misuse
  deriving DecidableEq, Repr

/-- An option. -/
structure OptionForm where
  name : String
  /-- It has a value; otherwise it is a mere flag. -/
  valued : Bool := true
  /-- The only values that it accepts; none are listed when it accepts any. -/
  choices : List String := []
  deriving DecidableEq, Repr

/-- What is given for an option or in a place. -/
inductive Value where
  | word (text : String)
  /-- A separator was given, which is no word. -/
  | nothing
  deriving DecidableEq, Repr

/-- The separator of options and other words. -/
def separatorWord : String := "--"

namespace Value

/-- The value that a word by itself is. -/
def ofWord (w : String) : Value := if w = separatorWord then nothing else word w

def text? : Value → Option String
  | word text => some text
  | nothing => none

/-- A value in a document. -/
def toJson : Value → Json
  | word text => .str text
  | nothing => .arr []

end Value

/-- What a word of a command line is. -/
inductive Word where
  | plain
  | help
  | option (form : OptionForm) (value : Option String)
  /-- It looks like an option, but there is none of its name. -/
  | unknown
  deriving DecidableEq, Repr

/-- A number below zero is no option. Its digits may be of any script, and a line may end after
it. -/
def isNegative (cs : List Char) : Bool :=
  let isDigit (c : Char) : Bool := (Text.decimalValue? c).isSome
  match if cs.getLast? = some '\n' then cs.dropLast else cs with
  | '-' :: digits =>
    let whole := digits.takeWhile isDigit
    match digits.dropWhile isDigit with
    | [] => !whole.isEmpty
    | '.' :: fraction => !fraction.isEmpty && fraction.all isDigit
    | _ => false
  | _ => false

def helpName : String := "--help"

/-- The name and the value of a word with an equals sign. -/
def splitValue (word : String) : String × Option String :=
  let cs := word.toList
  match cs.dropWhile (· != '=') with
  | [] => (word, none)
  | _ :: value => (String.ofList (cs.takeWhile (· != '=')), some (String.ofList value))

/-- The forms that a name or its beginning may stand for. -/
def candidates (forms : List OptionForm) (name : String) : List OptionForm :=
  let all := ⟨helpName, false, []⟩ :: forms
  match all.filter fun form => form.name == name with
  | [] => if name.startsWith "--" then all.filter fun form => form.name.startsWith name else []
  | exact => exact

/-- Flags have no values. -/
def asFlag (form : OptionForm) (value : Option String) : Except Refusal Word :=
  if value.isSome then .error .misuse
  else if form.name == helpName then .ok .help
  else .ok (.option form none)

/-- What follows the short name for help: it may be given again, also behind an equals sign, and
nothing else. -/
def asHelp : List Char → Except Refusal Word
  | '=' :: c :: rest => if (c :: rest).all (· = 'h') then .ok .help else .error .misuse
  | cs => if cs.all (· = 'h') then .ok .help else .error .misuse

/-- What a word that starts with a hyphen and is no option may be. -/
def asOther (word : String) : Except Refusal Word :=
  if word.startsWith "-h" then asHelp (word.toList.drop 2)
  else if isNegative word.toList || word.contains ' ' then .ok .plain
  else .ok .unknown

/-- Tells what a word is. -/
def wordOf (forms : List OptionForm) (word : String) : Except Refusal Word :=
  if !word.startsWith "-" || word == "-" then .ok .plain
  else
    let (name, value) := splitValue word
    match candidates forms name with
    | [] => asOther word
    | [form] => if form.valued then .ok (.option form value) else asFlag form value
    | _ => .error .misuse

/-- The beginning of a name that several options share. -/
def isAmbiguous (forms : List OptionForm) (word : String) : Bool :=
  word.startsWith "--" && 1 < (candidates forms (splitValue word).1).length

/-- What was found on a command line. -/
structure Found where
  /-- The values of options, the later ones of an option first. -/
  values : List (String × Value) := []
  plain : List String := []
  /-- The plain word that the separator goes with: the one right before it, else the next one. -/
  separated : Option Nat := none
  unknown : Bool := false

namespace Found

/-- The value of an option. -/
def value? (found : Found) (name : String) : Option Value := found.values.lookup name

def has (found : Found) (name : String) : Bool := (found.value? name).isSome

/-- The text that was given for an option. -/
def text? (found : Found) (name : String) : Option String := (found.value? name).bind Value.text?

/-- Adds a value that the option accepts. -/
def add (found : Found) (form : OptionForm) (word : String) : Except Refusal Found :=
  let value := Value.ofWord word
  if form.choices.isEmpty || value.text?.all form.choices.contains then
    .ok { found with values := (form.name, value) :: found.values }
  else .error .misuse

/-- Ends the options. A separator that no plain word takes in is unknown. -/
def separate (found : Found) (afterPlain : Bool) (rest : List String) : Found :=
  let plain := found.plain ++ rest
  let place := if afterPlain then found.plain.length - 1 else found.plain.length
  { found with plain, separated := some place, unknown := found.unknown || plain.length ≤ place }

/-- The value of a plain word that is taken alone. A separator that goes with it is left out. -/
def place (found : Found) (i : Nat) (word : String) : Value :=
  if found.separated = some i then .word word else .ofWord word

/-- The plain words from a place on, taken together: the first separator is left out. -/
def places (found : Found) (i : Nat) : List String :=
  let words := found.plain.drop i
  if found.separated.any (i ≤ ·) then words else words.erase separatorWord

end Found

/-- Goes through the words. With `first` it stops at the first plain word, which is kept with all
that follow; `afterPlain` tells whether the word before is a plain one. -/
def scanFrom (forms : List OptionForm) (first afterPlain : Bool) (found : Found) :
    List String → Except Refusal Found
  | [] => .ok found
  | word :: rest =>
    if word == separatorWord then
      if first then .error .misuse else .ok (found.separate afterPlain rest)
    else do
      match ← wordOf forms word with
      | .plain =>
        if first then .ok { found with plain := word :: rest }
        else scanFrom forms first true { found with plain := found.plain ++ [word] } rest
      | .help => .error .help
      | .unknown => scanFrom forms first false { found with unknown := true } rest
      | .option form (some value) => scanFrom forms first false (← found.add form value) rest
      | .option form none =>
        if !form.valued then scanFrom forms first false (← found.add form "") rest
        else
          match rest with
          | [] => .error .misuse
          | value :: rest =>
            if value != separatorWord && (← wordOf forms value) = .plain then
              scanFrom forms first false (← found.add form value) rest
            else .error .misuse

/-- Goes through the words, none of which may be ambiguous. -/
def scan (forms : List OptionForm) (first : Bool) (words : List String) : Except Refusal Found :=
  if (words.takeWhile (· != separatorWord)).any (isAmbiguous forms) then .error .misuse
  else scanFrom forms first false {} words

end LeagueAudit.CommandLine
