import LeagueAudit.Selector.Basic
import LeagueAudit.Text.Case
import LeagueAudit.Text.Order

/-!
Reading selectors from documents. Several criteria in one object must all hold; a missing selector,
`*` and an empty object select everything. A top-level `entityType` restricts one kind by ids and
tags only.
-/
namespace LeagueAudit

/-- Why a document is no selector. A path names the part at fault. -/
inductive SelectorFault where
  | notSelector (typeName : String)
  | unsupportedKind (kind : String)
  | extraKindKeys (keys : List String)
  | notObject (path : String)
  | nestedKind (path : String)
  | unknownKeys (path : String) (keys : List String)
  | notList (path : String)
  | notTexts (path : String)
  | notScalars (path : String)
  | unknownDays (path : String) (days : List String)
  | notSide (path : String)
  | extraBounds (path : String)
  | notNumber (path : String)
  | notRange (path : String)
  | notDateRange (path : String)
  | notDate (path : String) (text : String)
  deriving DecidableEq, Repr

namespace SelectorFault

def booleanKeys : List String := ["allOf", "anyOf", "not"]

def leafKeys : List String :=
  ["id", "ids", "tags", "division", "ageGroup", "venueType", "capacity", "dateRange", "dayOfWeek",
    "phase", "round", "role"]

def message : SelectorFault → String
  | notSelector typeName => s!"Selector must be an object or '*', got {typeName}"
  | unsupportedKind kind => s!"Unsupported entityType '{kind}'"
  | extraKindKeys keys => s!"Unknown key(s) in entityType selector: {Text.commaJoined keys}"
  | notObject path => s!"{path} must be an object"
  | nestedKind path => s!"{path}: entityType is only allowed at the top level"
  | unknownKeys path keys => s!"{path}: unknown selector key(s): {Text.commaJoined keys}"
  | notList path => s!"{path} must be a list"
  | notTexts path => s!"{path} must be a string or list of strings"
  | notScalars path => s!"{path} must be a scalar or list of scalars"
  | unknownDays path days => s!"{path}: unknown day name(s): {Text.commaJoined days}"
  | notSide path => s!"{path} must be 'home' or 'away'"
  | extraBounds path => s!"{path} accepts only min/max"
  | notNumber path => s!"{path} must be a number"
  | notRange path => path ++ " must be a value or \x7bmin, max\x7d"
  | notDateRange path => s!"{path} must be an object with start/end"
  | notDate path text => s!"{path} is not an ISO date or datetime: '{text}'"

def action : SelectorFault → Option String
  | unsupportedKind _ => some "Use one of: team, venue, fixture."
  | unknownKeys _ _ => some s!"Supported keys: {Text.commaJoined (booleanKeys ++ leafKeys)}."
  | _ => none

def trouble (f : SelectorFault) : Trouble := ⟨.selector, f.message, "parse_selector", f.action⟩

end SelectorFault

namespace Selector

open SelectorFault

/-- A value that holds other values. -/
def isContainer : Json → Bool
  | .arr _ => true
  | .obj _ => true
  | _ => false

/-- One value or a list of values. -/
def oneOrMany : Json → List Json
  | .arr items => items
  | j => [j]

/-- One text or a list of texts; numbers and truth values are taken as text. -/
def readTexts (path : String) (value : Json) : Except SelectorFault (List String) :=
  let items := oneOrMany value
  if items.any fun v => isContainer v || v.isNull then .error (notTexts path)
  else .ok (items.map Json.text)

def dayNames : List String :=
  ["monday", "tuesday", "wednesday", "thursday", "friday", "saturday", "sunday"]

def readAttribute (path : String) (field : Attribute) (value : Json) :
    Except SelectorFault Leaf :=
  let values := oneOrMany value
  if values.isEmpty || values.any isContainer then .error (notScalars path)
  else .ok (.among field values)

/-- A bound is a number or null. -/
def readLimit (path : String) (value : Json) : Except SelectorFault Json :=
  if value.isNull || value.isNumber then .ok value else .error (notNumber path)

def readMeasure (path : String) (field : Measure) (value : Json) : Except SelectorFault Leaf :=
  match value with
  | .obj members =>
    if members.isEmpty || members.any fun (k, _) => k != "min" && k != "max" then
      .error (extraBounds path)
    else do
      let min ← readLimit (path ++ ".min") (value.field "min")
      let max ← readLimit (path ++ ".max") (value.field "max")
      .ok (.between field min max)
  | .arr _ => .error (notRange path)
  | .bool _ => .error (notRange path)
  | _ => .ok (.exactly field value)

/-- A bound of a date range: null, or a text that is a date or a time. -/
def readDateBound (path : String) (value : Json) : Except SelectorFault (Option String) :=
  if value.isNull then .ok none
  else if (Iso.read? value.text.toList).isSome then .ok (some value.text)
  else .error (notDate path value.text)

def readDateRange (path : String) (value : Json) : Except SelectorFault Leaf :=
  if !value.isObject || value.members.any fun (k, _) => k != "start" && k != "end" then
    .error (notDateRange path)
  else do
    let start ← readDateBound (path ++ ".start") (value.field "start")
    let finish ← readDateBound (path ++ ".end") (value.field "end")
    .ok (.dateRange start finish)

def readDays (path : String) (value : Json) : Except SelectorFault Leaf := do
  let days := (← readTexts path value).map Text.lower
  let bad := days.filter fun d => !dayNames.contains d
  if bad.isEmpty then .ok (.dayOfWeek (Text.sortedSet days)) else .error (unknownDays path bad)

def readRole (path : String) (value : Json) : Except SelectorFault Leaf :=
  if value.isText "home" then .ok (.role .home)
  else if value.isText "away" then .ok (.role .away)
  else .error (notSide path)

/-- Reads the criterion of a key. -/
def readLeaf (key path : String) (value : Json) : Except SelectorFault Leaf :=
  match key with
  | "tags" => do .ok (.tags (← readTexts path value))
  | "division" => readAttribute path .division value
  | "ageGroup" => readAttribute path .ageGroup value
  | "venueType" => readAttribute path .venueType value
  | "phase" => readAttribute path .phase value
  | "capacity" => readMeasure path .capacity value
  | "round" => readMeasure path .round value
  | "dayOfWeek" => readDays path value
  | "dateRange" => readDateRange path value
  | "role" => readRole path value
  | _ => do .ok (.ids (Text.sortedSet (← readTexts path value)))

/-- Everything that must hold at once. -/
def together : List Selector → Selector
  | [] => wildcard
  | [one] => one
  | many => allOf many

/-- The parts of an object in the order of the keys; null criteria are left out. -/
def partsInOrder (members : List (String × Json))
    (branches : List (String × Except SelectorFault Selector)) :
    Except SelectorFault (List Selector) :=
  let present (key : String) : Bool :=
    match members.lookup key with
    | none => false
    | some value => booleanKeys.contains key || !value.isNull
  ((booleanKeys ++ leafKeys).filter present).filterMap (fun key => branches.lookup key) |>.mapM id

mutual

/-- Reads a selector below the top level. -/
def readNode (path : String) : Json → Except SelectorFault Selector
  | .obj members =>
    let branches := readBranches path members
    if (members.lookup "entityType").isSome then .error (nestedKind path)
    else
      let unknown := (members.map (·.1)).filter fun k => !(booleanKeys ++ leafKeys).contains k
      if unknown.isEmpty then do .ok (together (← partsInOrder members branches))
      else .error (unknownKeys path (Text.sorted unknown))
  | .str s => if s == "*" then .ok wildcard else .error (notObject path)
  | _ => .error (notObject path)

/-- Reads the part of each key. -/
def readBranches (path : String) :
    List (String × Json) → List (String × Except SelectorFault Selector)
  | [] => []
  | (key, value) :: rest =>
    let part : Except SelectorFault Selector :=
      if key == "allOf" then do .ok (allOf (← readItems s!"{path}.allOf" value))
      else if key == "anyOf" then do .ok (anyOf (← readItems s!"{path}.anyOf" value))
      else if key == "not" then do .ok (not (← readNode s!"{path}.not" value))
      else do .ok (leaf (← readLeaf key s!"{path}.{key}" value))
    (key, part) :: readBranches path rest

/-- Reads a list of selectors. -/
def readItems (path : String) : Json → Except SelectorFault (List Selector)
  | .arr items => readChildren path 0 items
  | _ => .error (notList path)

def readChildren (path : String) (position : Nat) : List Json → Except SelectorFault (List Selector)
  | [] => .ok []
  | value :: rest => do
    .ok ((← readNode s!"{path}[{position}]" value) :: (← readChildren path (position + 1) rest))

end

/-- The kind that a name stands for. -/
def readKind? (value : Json) : Option EntityKind :=
  [EntityKind.team, .venue, .fixture].find? fun k => value.isText k.name

/-- The keys of a selector for one kind of entity. -/
def scopeKeys : List String := ["entityType", "ids", "tags"]

/-- Reads a selector for one kind of entity. -/
def readKindScope (doc : Json) : Except SelectorFault Selector :=
  match readKind? (doc.field "entityType") with
  | none => .error (unsupportedKind (doc.field "entityType").text)
  | some kind =>
    let extra := (doc.members.map (·.1)).filter fun k => !(scopeKeys.contains k)
    if !extra.isEmpty then .error (extraKindKeys (Text.sorted extra))
    else do
      let criterion (key : String) : Except SelectorFault (List Selector) :=
        let value := doc.field key
        if value.truthy then do .ok [leaf (← readLeaf key s!"selector.{key}" value)] else .ok []
      let leaves := (← criterion "ids") ++ (← criterion "tags")
      .ok (entityScope kind (if leaves.isEmpty then wildcard else allOf leaves))

/-- Reads a selector document. -/
def read (doc : Json) : Except SelectorFault Selector :=
  if doc.isNull || doc.isText "*" then .ok wildcard
  else if !doc.isObject then .error (notSelector doc.typeName)
  else if doc.has "entityType" then readKindScope doc
  else readNode "selector" doc

end Selector
end LeagueAudit
