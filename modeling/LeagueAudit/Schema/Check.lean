import LeagueAudit.Json.Order
import LeagueAudit.Schema.Format
import LeagueAudit.Schema.Library
import LeagueAudit.Schema.Measure

/-!
Checking values against schemas. Every keyword of a schema is checked on its own, in the order in
which the schema lists them; keywords without a check are comments.
-/
namespace LeagueAudit.Schema

/-- How a schema at work has values checked against its parts. -/
structure Checker where
  /-- Checks a value against a part, which may have an identifier of its own. -/
  part : Json → Json → Found
  /-- Checks a value against a part whose identifier does not count. -/
  bare : Json → Json → Found
  /-- Checks a value against what a reference names. -/
  named : Json → Json → Found
  /-- The places of an array that a schema has a say about. -/
  knownPlaces : Json → Json → Except Fault (List Nat)
  /-- The names of an object that a schema has a say about. -/
  knownNames : Json → Json → Except Fault (List String)
  formats : Bool

namespace Checker

/-- A value has no problem under a part. -/
def accepts (c : Checker) (part value : Json) : Except Fault Bool := (c.bare part value).isClear

/-- The problems of a part of the value; those of a part that may not be there at all have no
place. -/
def step (c : Checker) (s : Step) (part value : Json) : Found :=
  match part with
  | .bool _ => c.part part value
  | part => (c.part part value).inside s

end Checker

/-- The check of a keyword: the checker, the schema, the keyword's argument and the value. -/
abbrev Rule := Checker → Json → Json → Json → Found

/-- The members that a keyword needs. -/
def membersOf : Json → Except Fault (List (String × Json))
  | .obj ms => .ok ms
  | j => .error (noFeature j "items")

/-- A member is among the names that a value lists; a text has its parts. -/
def listsName (names : Json) (name : String) : Except Fault Bool :=
  match names with
  | .obj _ => .ok (names.has name)
  | .arr items => .ok (items.any (·.isText name))
  | .str s => .ok (name.isEmpty || (s.splitOn name).length > 1)
  | j => .error (.wrongType s!"argument of type '{j.typeName}' is not iterable")

/-- An object has a member of a name; a container is no name. -/
def hasName (value name : Json) : Except Fault Bool :=
  match name with
  | .str s => .ok (value.has s)
  | .arr _ => .error (.notKey name.typeName)
  | .obj _ => .error (.notKey name.typeName)
  | _ => .ok false

/-- A text matches a pattern somewhere. -/
def matchesText (pattern : Json) (s : String) : Except Fault Bool :=
  match pattern with
  | .str p => do .ok ((← patternOf p).occursIn s)
  | _ => .error (.wrongType "first argument must be string or compiled pattern")

/-! ### Values of every type -/

/-- A value has the type that a name stands for. -/
def hasNamedType (value name : Json) : Except Fault Bool :=
  match name with
  | .arr _ => .error (.notKey name.typeName)
  | .obj _ => .error (.notKey name.typeName)
  | name =>
    match name.asString?.bind (hasType? value) with
    | some b => .ok b
    | none => .error (.raised "UnknownType" (shown name))

/-- The names of types that a schema asks for. -/
def typeNames (types : Json) : Except Fault (List Json) :=
  match types with
  | .str _ => .ok [types]
  | _ => types.listed

def checkType : Rule := fun _ _ types value =>
  .ofExcept (typeNames types) fun names =>
    .ofExcept (names.anyM (hasNamedType value)) fun has =>
      .when (!has) s!"{shown value} is not of type {Text.commaJoined (names.map shown)}"

def checkEnum : Rule := fun _ _ allowed value =>
  .ofExcept allowed.listed fun items =>
    .when (!items.any (Json.equal false value)) s!"{shown value} is not one of {shown allowed}"

def checkConst : Rule := fun _ _ wanted value =>
  .when (!Json.equal false value wanted) s!"{shown wanted} was expected"

def checkAllOf : Rule := fun c _ parts value =>
  .ofExcept parts.listed fun parts => .each parts fun part => c.part part value

/-- The alternatives from the first one without problems on. -/
def fromMatch (c : Checker) (value : Json) : List Json → Except Fault (List Json)
  | [] => .ok []
  | part :: rest => do
    if (← (c.part part value).all).isEmpty then .ok (part :: rest) else fromMatch c value rest

def noMatch (value : Json) : String :=
  s!"{shown value} is not valid under any of the given schemas"

def checkAnyOf : Rule := fun c _ parts value =>
  .ofExcept (parts.listed.bind (fromMatch c value)) fun found =>
    .when found.isEmpty (noMatch value)

/-- Exactly one alternative fits; of several the first one is named last. -/
def checkOneOf : Rule := fun c _ parts value =>
  .ofExcept (parts.listed.bind (fromMatch c value)) fun found =>
    match found with
    | [] => .when true (noMatch value)
    | first :: rest =>
      .ofExcept (rest.filterM fun part => c.accepts part value) fun more =>
        let all := Text.commaJoined ((more ++ [first]).map shown)
        .when (!more.isEmpty) s!"{shown value} is valid under each of {all}"

def checkNot : Rule := fun c _ part value =>
  .ofExcept (c.accepts part value) fun fits =>
    .when fits s!"{shown value} should not be valid under {shown part}"

def checkIf : Rule := fun c schema part value =>
  .ofExcept (c.accepts part value) fun fits =>
    match schema.find? (if fits then "then" else "else") with
    | some branch => c.part branch value
    | none => .clear

def checkReference : Rule := fun c _ reference value => c.named reference value

def anyRules : List (String × Rule) :=
  [("type", checkType), ("enum", checkEnum), ("const", checkConst), ("allOf", checkAllOf),
    ("anyOf", checkAnyOf), ("oneOf", checkOneOf), ("not", checkNot), ("if", checkIf),
    ("$ref", checkReference), ("$dynamicRef", checkReference)]

/-! ### Objects -/

/-- A check of objects only. -/
def forObjects (rule : Rule) : Rule := fun c schema arg value =>
  if value.isObject then rule c schema arg value else .clear

def checkProperties : Rule := fun c _ parts value =>
  .ofExcept (membersOf parts) fun ms =>
    .each ms fun (name, part) =>
      match value.find? name with
      | some v => c.step (.name name) part v
      | none => .clear

/-- The pattern of all names that patterns declare. -/
def declaredPattern? (schema : Json) : Except Fault (Option String) :=
  match schema.find? "patternProperties" with
  | none => .ok none
  | some patterns => do
    let items ← patterns.listed
    match items.mapM Json.asString? with
    | some texts =>
      let joined := String.intercalate "|" texts
      .ok (if joined.isEmpty then none else some joined)
    | none => .error (.wrongType "sequence item: expected str instance")

/-- The members of a value that a schema does not declare, by name or by pattern. -/
def undeclared (schema value : Json) : Except Fault (List (String × Json)) := do
  let pattern ← declaredPattern? schema
  let names := (schema.find? "properties").getD (.obj [])
  value.members.filterM fun (k, _) => do
    if ← listsName names k then .ok false
    else
      match pattern with
      | some p => do .ok !(← matchesText (.str p) k)
      | none => .ok true

/-- Names with the verb for their number. -/
def withVerb (names : List String) (one many : String) : String :=
  let verb := if names.length = 1 then one else many
  s!"{Text.commaJoined (names.map Text.quoted)} {verb}"

/-- Undeclared names in one sentence. -/
def undeclaredText (schema : Json) (names : List String) : String :=
  let names := Text.sorted names
  match schema.find? "patternProperties" with
  | some patterns =>
    let texts := Text.sorted ((patterns.listed.toOption.getD []).filterMap Json.asString?)
    withVerb names "does" "do" ++ " not match any of the regexes: " ++
      Text.commaJoined (texts.map Text.quoted)
  | none =>
    "Additional properties are not allowed (" ++ withVerb names "was" "were" ++ " unexpected)"

def checkAdditional : Rule := fun c schema part value =>
  .ofExcept (undeclared schema value) fun extra =>
    if part.isObject then .each extra fun (k, v) => c.step (.name k) part v
    else .when (!part.truthy && !extra.isEmpty) (undeclaredText schema (extra.map (·.1)))

def checkPatternProperties : Rule := fun c _ patterns value =>
  .ofExcept (membersOf patterns) fun ms =>
    .each ms fun (pattern, part) =>
      .each value.members fun (k, v) =>
        .ofExcept (matchesText (.str pattern) k) fun fits =>
          if fits then c.step (.name k) part v else .clear

def checkNames : Rule := fun c _ part value =>
  .each value.members fun (k, _) => c.part part (.str k)

def checkRequired : Rule := fun _ _ names value =>
  .ofExcept names.listed fun names =>
    .each names fun name =>
      .ofExcept (hasName value name) fun has =>
        .when (!has) s!"{shown name} is a required property"

def checkDependentRequired : Rule := fun _ _ dependencies value =>
  .ofExcept (membersOf dependencies) fun ms =>
    .each ms fun (name, needed) =>
      if !value.has name then .clear
      else
        .ofExcept needed.listed fun needed =>
          .each needed fun each =>
            .ofExcept (hasName value each) fun has =>
              .when (!has) s!"{shown each} is a dependency of {Text.quoted name}"

def checkDependentSchemas : Rule := fun c _ dependencies value =>
  .ofExcept (membersOf dependencies) fun ms =>
    .each ms fun (name, part) => if value.has name then c.part part value else .clear

def checkLeastMembers : Rule := fun _ _ bound value =>
  (leastSize "does not have enough properties").check value.members.length bound value

def checkMostMembers : Rule := fun _ _ bound value =>
  (mostSize "has too many properties").check value.members.length bound value

/-- The members that nothing else has a say about; each is named once for every problem. -/
def checkUnevaluatedNames : Rule := fun c schema part value =>
  .ofExcept (c.knownNames schema value) fun known =>
    let rest := value.members.filter fun (k, _) => !known.contains k
    let counted := rest.mapM fun (k, v) => do
      .ok (List.replicate (← (c.part part v).all).length k)
    .ofExcept counted fun names =>
      let names := names.flatten
      let text :=
        match part with
        | .bool false =>
          "not allowed (" ++ withVerb (Text.sorted names) "was" "were"
        | _ => "not valid under the given schema (" ++ withVerb names "was" "were"
      .when (!names.isEmpty) ("Unevaluated properties are " ++ text ++ " unexpected)")

def objectRules : List (String × Rule) :=
  [("properties", checkProperties), ("additionalProperties", checkAdditional),
    ("patternProperties", checkPatternProperties), ("propertyNames", checkNames),
    ("required", checkRequired), ("dependentRequired", checkDependentRequired),
    ("dependentSchemas", checkDependentSchemas), ("minProperties", checkLeastMembers),
    ("maxProperties", checkMostMembers), ("unevaluatedProperties", checkUnevaluatedNames)]

/-! ### Arrays -/

/-- A check of arrays only. -/
def forArrays (rule : Rule) : Rule := fun c schema arg value =>
  if value.isArray then rule c schema arg value else .clear

/-- Items with their places, from a place on. -/
def placed (items : List Json) (start : Nat) : List (Nat × Json) :=
  (items.mapIdx fun i v => (i, v)).drop start

/-- The length of the declared start of an array. -/
def declaredItems (schema : Json) : Except Fault Nat :=
  match schema.find? "prefixItems" with
  | none => .ok 0
  | some parts => parts.listed.map List.length

def tooManyItems (start : Nat) (extra : List Json) : String :=
  let noun := if start = 1 then "item" else "items"
  let rest :=
    match extra with
    | [one] => shown one
    | many => shown (.arr many)
  s!"Expected at most {start} {noun} but found {extra.length} extra: {rest}"

def checkItems : Rule := fun c schema part value =>
  .ofExcept (declaredItems schema) fun start =>
    match part, value.items.drop start with
    | _, [] => .clear
    | .bool false, extra => .when true (tooManyItems start extra)
    | _, _ => .each (placed value.items start) fun (i, v) => c.step (.place i) part v

def checkFirstItems : Rule := fun c _ parts value =>
  .ofExcept parts.listed fun parts =>
    .each ((placed value.items 0).zip parts) fun ((i, v), part) => c.step (.place i) part v

def checkLeastItems : Rule := fun _ _ bound value =>
  (leastSize "is too short").check value.items.length bound value

def checkMostItems : Rule := fun _ _ bound value =>
  (mostSize "is too long").check value.items.length bound value

/-- Two neighbours of a list are equal. -/
def neighboursEqual : List Json → Bool
  | x :: y :: rest => Json.equal false x y || neighboursEqual (y :: rest)
  | _ => false

/-- Two values of a list are equal. -/
def hasEqual : List Json → Bool
  | [] => false
  | x :: rest => rest.any (Json.equal false x) || hasEqual rest

/-- A list of values in order is looked through for equal neighbours, any other one for equal
values. Truth values have no order. -/
def hasRepetition (items : List Json) : Bool :=
  let ordered :=
    if items.any fun v => v matches .bool _ then none
    else (Sorting.sort Json.before items).toOption
  match ordered with
  | some sorted => neighboursEqual sorted
  | none => hasEqual items

def checkUnique : Rule := fun _ _ on value =>
  .when (on.truthy && hasRepetition value.items) s!"{shown value} has non-unique elements"

/-- A size stands in an order to a bound. -/
def isSize (size : Nat) (order : Ordering) (bound : Json) : Except Fault Bool := do
  .ok ((← orderOf (.int size) bound) == some order)

/-- Counts the items that fit, up to the first one that is too many. -/
def countFitting (c : Checker) (part most : Json) (count : Nat) :
    List Json → Except Fault (Nat × Bool)
  | [] => .ok (count, false)
  | v :: rest => do
    if !(← c.accepts part v) then countFitting c part most count rest
    else if ← isSize (count + 1) .gt most then .ok (count + 1, true)
    else countFitting c part most (count + 1) rest

def checkContains : Rule := fun c schema part value =>
  let least := (schema.find? "minContains").getD (.int 1)
  let most := (schema.find? "maxContains").getD (.int value.items.length)
  .ofExcept (countFitting c part most 0 value.items) fun (count, tooMany) =>
    if tooMany then
      .when true
        s!"Too many items match the given schema (expected at most {most.text})"
    else
      .ofExcept (isSize count .lt least) fun tooFew =>
        .when tooFew
          (if count = 0 then s!"{shown value} does not contain items matching the given schema"
          else s!"Too few items match the given schema (expected at least {least.text} " ++
            s!"but only {count} matched)")

def checkUnevaluatedItems : Rule := fun c schema _ value =>
  .ofExcept (c.knownPlaces schema value) fun known =>
    let rest := (placed value.items 0).filter fun (i, _) => !known.contains i
    let verb := if rest.length = 1 then "was" else "were"
    let all := Text.commaJoined (rest.map fun (_, v) => shown v)
    .when (!rest.isEmpty) s!"Unevaluated items are not allowed ({all} {verb} unexpected)"

def arrayRules : List (String × Rule) :=
  [("items", checkItems), ("prefixItems", checkFirstItems), ("contains", checkContains),
    ("minItems", checkLeastItems), ("maxItems", checkMostItems), ("uniqueItems", checkUnique),
    ("unevaluatedItems", checkUnevaluatedItems)]

/-! ### Texts and numbers -/

/-- A check of texts only. -/
def forTexts (check : Checker → Json → String → Found) : Rule := fun c _ arg value =>
  match value with
  | .str s => check c arg s
  | _ => .clear

def checkPattern (_ : Checker) (pattern : Json) (s : String) : Found :=
  .ofExcept (matchesText pattern s) fun fits =>
    .when (!fits) s!"{Text.quoted s} does not match {shown pattern}"

def checkFormat (c : Checker) (format : Json) (s : String) : Found :=
  match format with
  | .str name =>
    .ofExcept (if c.formats then hasFormat s name else .ok true) fun fits =>
      .when (!fits) s!"{Text.quoted s} is not a {shown format}"
  | _ => .clear

def checkLeastLength (_ : Checker) (bound : Json) (s : String) : Found :=
  (leastSize "is too short").check s.length bound (.str s)

def checkMostLength (_ : Checker) (bound : Json) (s : String) : Found :=
  (mostSize "is too long").check s.length bound (.str s)

def textRules : List (String × Rule) :=
  [("pattern", forTexts checkPattern), ("format", forTexts checkFormat),
    ("minLength", forTexts checkLeastLength), ("maxLength", forTexts checkMostLength)]

def numberRules : List (String × Rule) :=
  [("minimum", fun _ _ bound value => minimumRule.check bound value),
    ("maximum", fun _ _ bound value => maximumRule.check bound value),
    ("exclusiveMinimum", fun _ _ bound value => aboveRule.check bound value),
    ("exclusiveMaximum", fun _ _ bound value => belowRule.check bound value),
    ("multipleOf", fun _ _ unit value => checkMultiple unit value)]

/-- The checks by keyword. -/
def rules : List (String × Rule) :=
  anyRules ++ objectRules.map (fun (word, rule) => (word, forObjects rule)) ++
    arrayRules.map (fun (word, rule) => (word, forArrays rule)) ++ textRules ++ numberRules

/-! ### Schemas -/

/-- What every value does not meet. -/
def neverProblem (value : Json) : Problem := ⟨[], s!"False schema does not allow {shown value}"⟩

/-- Checks a value against the keywords of a schema. -/
def checkKeywords (c : Checker) (schema : Json) (members : List (String × Json)) (value : Json) :
    Found :=
  .each members fun (word, arg) =>
    match rules.lookup word with
    | some rule => rule c schema arg value
    | none => .clear

/-- Why a value that is no schema cannot be used as one. -/
def notSchema (j : Json) : Fault :=
  match j with
  | .str _ => noFeature j "items"
  | .arr _ => noFeature j "items"
  | j => .wrongType s!"argument of type '{j.typeName}' is not iterable"

/-- The dialect of a schema, if it names one, can be looked up. -/
def dialectFault? (schema : Json) : Option Fault :=
  match schema.find? "$schema" with
  | none => none
  | some (.str _) => none
  | some (.arr _) => some (.notKey "list")
  | some (.obj _) => some (.notKey "dict")
  | some j => if j.truthy then some (noFeature j "decode") else none

/-- A checker that does not enter the parts of schemas any more. -/
def endless : Checker where
  part := fun _ _ => .fault .unending
  bare := fun _ _ => .fault .unending
  named := fun _ _ => .fault .unending
  knownPlaces := fun _ _ => .error .unending
  knownNames := fun _ _ => .error .unending
  formats := false

/-- Checks a value against a schema at work in a scope. -/
def checkIn (checker : Scope → Checker) (s : Scope) (schema value : Json) : Found :=
  match schema with
  | .bool true => .clear
  | .bool false => .one (neverProblem value)
  | .obj members =>
    match dialectFault? schema with
    | some f => .fault f
    | none => checkKeywords (checker s) schema members value
  | j => .fault (notSchema j)

/-- Checks a value against a part of a schema, which may have an identifier of its own. -/
def checkPart (checker : Scope → Checker) (s : Scope) (schema value : Json) : Found :=
  match schema with
  | .bool _ => checkIn checker s schema value
  | schema => .ofExcept (s.entered schema) fun s => checkIn checker s schema value

/-- Looks up a reference, which must be a text. -/
def lookupReference (s : Scope) (reference : Json) : Except Fault (Except Lost (Scope × Json)) :=
  match reference with
  | .str name => (s.lookup name).run
  | j => .error (noFeature j "startswith")

/-- Checks a value against the schema that a reference names. -/
def checkNamed (checker : Scope → Checker) (s : Scope) (reference value : Json) : Found :=
  .ofExcept (lookupReference s reference) fun found =>
    match found with
    | .ok (there, schema) => checkIn checker there schema value
    | .error _ => .fault (.openReference reference.text)

/-- What the schema that a reference names says. -/
def surveyNamed {α : Type} (survey : Scope → Json → Except Fault (List α)) (s : Scope)
    (reference : Json) : Except Fault (List α) :=
  if reference.isNull then .ok []
  else do
    match ← lookupReference s reference with
    | .ok (there, schema) => survey there schema
    | .error lost => .error (.raised lost.category reference.text)

/-- What the parts under a condition say. -/
def surveyBranches {α : Type} (c : Checker) (survey : Json → Except Fault (List α))
    (schema value : Json) : Except Fault (List α) :=
  match schema.find? "if" with
  | none => .ok []
  | some condition => do
    if ← c.accepts condition value then
      let known ← survey condition
      match schema.find? "then" with
      | some branch => .ok (known ++ (← survey branch))
      | none => .ok known
    else
      match schema.find? "else" with
      | some branch => survey branch
      | none => .ok []

/-- What the combined parts that a value fits say. -/
def surveyParts {α : Type} (c : Checker) (survey : Json → Except Fault (List α))
    (schema value : Json) : Except Fault (List α) := do
  let parts ← ["allOf", "oneOf", "anyOf"].mapM fun word =>
    match schema.find? word with
    | some parts => parts.listed
    | none => .ok []
  let known ← parts.flatten.mapM fun part => do
    if ← (c.part part value).isClear then survey part else .ok []
  .ok known.flatten

/-- The parts of a value that fit one of the schemas under some keywords. -/
def fitting {α : Type} (c : Checker) (schema : Json) (words : List String)
    (parts : List (α × Json)) (fits : Checker → Json → Json → Except Fault Bool) :
    Except Fault (List α) := do
  let found ← words.mapM fun word =>
    match schema.find? word with
    | none => .ok []
    | some part => do .ok ((← parts.filterM fun (_, v) => fits c part v).map (·.1))
  .ok found.flatten

/-- The places of an array that a schema has a say about. -/
def knownPlaces (checker : Scope → Checker) (fuel : Nat) (s : Scope) (schema value : Json) :
    Except Fault (List Nat) := do
  match fuel, schema with
  | 0, _ => .error .unending
  | _, .bool _ => .ok []
  | fuel + 1, .obj _ =>
    let c := checker s
    let within := fun part => knownPlaces checker fuel s part value
    let items := placed value.items 0
    if schema.has "items" then .ok (items.map (·.1))
    else
      let named (word : String) :=
        surveyNamed (fun there part => knownPlaces checker fuel there part value) s
          (schema.field word)
      let references := (← named "$ref") ++ (← named "$dynamicRef")
      let first := List.range (← declaredItems schema)
      let branches ← surveyBranches c within schema value
      let fits ← fitting c schema ["contains", "unevaluatedItems"] items Checker.accepts
      .ok (references ++ first ++ branches ++ fits ++ (← surveyParts c within schema value))
  | _, j => .error (noFeature j "get")

/-- The names of an object that a schema has a say about. -/
def knownNames (checker : Scope → Checker) (fuel : Nat) (s : Scope) (schema value : Json) :
    Except Fault (List String) := do
  match fuel, schema with
  | 0, _ => .error .unending
  | _, .bool _ => .ok []
  | fuel + 1, .obj _ =>
    let c := checker s
    let within := fun part => knownNames checker fuel s part value
    let named (word : String) :=
      surveyNamed (fun there part => knownNames checker fuel there part value) s
        (schema.field word)
    let references := (← named "$ref") ++ (← named "$dynamicRef")
    let declared := (schema.field "properties").members.map (·.1)
    let parts := Json.obj ((schema.members).filter fun (_, v) => !v.isNull)
    let fits ← fitting c parts ["additionalProperties", "unevaluatedProperties"] value.members
      fun c part v => (c.part part v).isClear
    let patterned ← value.members.filterM fun (k, _) => do
      match schema.find? "patternProperties" with
      | some patterns => (← patterns.listed).anyM fun p => matchesText p k
      | none => .ok false
    let dependent ←
      match schema.find? "dependentSchemas" with
      | some parts => do
        let found ← (← membersOf parts).mapM fun (k, part) =>
          if value.has k then within part else .ok []
        .ok found.flatten
      | none => .ok []
    let combined ← surveyParts c within schema value
    let branches ← surveyBranches c within schema value
    .ok (references ++ declared ++ fits ++ patterned.map (·.1) ++ dependent ++ combined ++ branches)
  | _, j => .error (noFeature j "get")

/-- Checks with at most `fuel` schemas within each other. -/
def checkerWithin (formats : Bool) (fuel : Nat) (s : Scope) : Checker :=
  match fuel with
  | 0 => endless
  | fuel + 1 =>
    let checker := checkerWithin formats fuel
    { part := checkPart checker s
      bare := checkIn checker s
      named := checkNamed checker s
      knownPlaces := knownPlaces checker fuel s
      knownNames := knownNames checker fuel s
      formats }

/-- How many schemas may be at work within each other. -/
def depthLimit : Nat := 480

/-- The problems of a value under the schema of a scope. -/
def problems (formats : Bool) (s : Scope) (schema value : Json) : Found :=
  checkIn (checkerWithin formats depthLimit) s schema value

end LeagueAudit.Schema
