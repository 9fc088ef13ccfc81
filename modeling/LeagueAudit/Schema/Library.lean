import LeagueAudit.Json.Listing
import LeagueAudit.Number.Reading
import LeagueAudit.Schema.Address
import LeagueAudit.Text.Percent

/-!
The schemas that references may name. Each is known by its address; a part of a schema is known by
an address of its own if it has an identifier, and by anchors. Such parts are looked for only when a
reference cannot do without them.
-/
namespace LeagueAudit.Schema

/-- A named part of a schema. -/
structure Anchor where
  schema : Json
  /-- The outermost schema on the way with an anchor of the name counts instead. -/
  dynamic : Bool

/-- Schemas by address, anchors by address and name, and the addresses of the schemas whose parts
were not looked for yet. -/
structure Library where
  schemas : List (String × Json) := []
  anchors : List ((String × String) × Anchor) := []
  unread : List String := []

/-- Why a reference leads nowhere. -/
inductive Lost where
  | schema | part | anchor | pointerLike
  deriving DecidableEq, Repr

def Lost.category : Lost → String
  | schema => "Unresolvable"
  | part => "PointerToNowhere"
  | anchor => "NoSuchAnchor"
  | pointerLike => "InvalidAnchor"

/-- A look at what references name. -/
abbrev Lookup := ExceptT Lost (Except Fault)

/-- A look that ends in a fault. -/
def Lookup.fault {α : Type} (f : Fault) : Lookup α := ExceptT.lift (.error f)

def noFeature (j : Json) (name : String) : Fault :=
  .missingFeature s!"'{j.typeName}' object has no attribute '{name}'"

/-- The identifier of a schema. -/
def idOf? : Json → Except Fault (Option String)
  | .bool _ => .ok none
  | .obj members =>
    match members.lookup "$id" with
    | none => .ok none
    | some .null => .ok none
    | some (.str id) => .ok (some (Address.withoutEmptyFragment id))
    | some j => .error (noFeature j "rstrip")
  | j => .error (noFeature j "get")

/-- The keywords whose value is a schema. -/
def schemaWords : List String :=
  ["additionalProperties", "contains", "contentSchema", "else", "if", "items", "not",
    "propertyNames", "then", "unevaluatedItems", "unevaluatedProperties"]

/-- The keywords whose value is an array of schemas. -/
def arrayWords : List String := ["allOf", "anyOf", "oneOf", "prefixItems"]

/-- The keywords whose value is an object of schemas. -/
def objectWords : List String :=
  ["$defs", "definitions", "dependentSchemas", "patternProperties", "properties"]

/-- The way leads to a schema and not to some other value; steps into arrays have no name. -/
def leadsToSchema : List (Option String) → Bool
  | [] => true
  | none :: _ => false
  | some word :: rest =>
    if schemaWords.contains word then leadsToSchema rest
    else
      match rest with
      | [] => false
      | _ :: more =>
        (arrayWords.contains word || objectWords.contains word) && leadsToSchema more

/-- A dialect is named by a text. -/
def checkDialect (j : Json) : Except Fault Unit :=
  match j.field "$schema" with
  | .null => .ok ()
  | .str _ => .ok ()
  | d => .error (noFeature d "rstrip")

namespace Library

/-- Adds a schema under an address. -/
def add (library : Library) (address : String) (schema : Json) : Library :=
  let address := Address.withoutEmptyFragment address
  { library with
    schemas := Json.setMember address schema library.schemas
    unread := if library.unread.contains address then library.unread
      else library.unread ++ [address] }

/-- Adds the anchor that a member declares. -/
def addAnchor (library : Library) (address : String) (schema : Json) (dynamic : Bool) :
    Except Fault Library :=
  match schema.field (if dynamic then "$dynamicAnchor" else "$anchor") with
  | .str name =>
    .ok { library with anchors := ((address, name), ⟨schema, dynamic⟩) :: library.anchors }
  | j => if j.isArray || j.isObject then .error (.notKey j.typeName) else .ok library

/-- Adds a schema under its own identifier, with its anchors; gives its address too. -/
def addOwn (library : Library) (address : String) (schema : Json) :
    Except Fault (Library × String) := do
  let (library, address) ←
    match ← idOf? schema with
    | none => .ok (library, address)
    | some id => do
      let own ← Address.join address id
      .ok ({ library with schemas := Json.setMember own schema library.schemas }, own)
  .ok (← (← library.addAnchor address schema false).addAnchor address schema true, address)

mutual

/-- Adds the parts of a schema; a later part does not replace an earlier one. -/
def addParts (library : Library) (address : String) : Json → Except Fault Library
  | .bool _ => .ok library
  | .obj members => do
    checkDialect (.obj members)
    let (library, address) ← library.addOwn address (.obj members)
    library.addMembers address members
  | j => .error (noFeature j "get")

def addMembers (library : Library) (address : String) :
    List (String × Json) → Except Fault Library
  | [] => .ok library
  | (word, v) :: rest => do
    let library ← library.addMembers address rest
    if schemaWords.contains word then library.addParts address v
    else if arrayWords.contains word then
      match v with
      | .arr items => library.addItems address items
      | .obj [] => .ok library
      | .obj _ => .error (noFeature (.str "") "get")
      | .str s => if s.isEmpty then .ok library else .error (noFeature v "get")
      | v => .error (.notListable v.typeName)
    else if objectWords.contains word then
      match v with
      | .obj members => library.addValues address members
      | v => .error (noFeature v "values")
    else .ok library

def addItems (library : Library) (address : String) : List Json → Except Fault Library
  | [] => .ok library
  | x :: rest => do (← library.addItems address rest).addParts address x

def addValues (library : Library) (address : String) :
    List (String × Json) → Except Fault Library
  | [] => .ok library
  | (_, v) :: rest => do (← library.addValues address rest).addParts address v

end

/-- Looks for the parts of all schemas. -/
def complete (library : Library) : Except Fault Library :=
  library.unread.foldrM (fun address library =>
    match library.schemas.lookup address with
    | some schema => library.addParts address schema
    | none => .ok library) { library with unread := [] }

/-- The schema of an address. -/
def find (library : Library) (address : String) : Lookup (Library × Json) := do
  match library.schemas.lookup address with
  | some schema => pure (library, schema)
  | none =>
    let library ← library.complete
    match library.schemas.lookup address with
    | some schema => pure (library, schema)
    | none => throw .schema

/-- The anchor of a name in the schema of an address. -/
def findAnchor (library : Library) (address name : String) : Lookup (Library × Anchor) := do
  match library.anchors.lookup (address, name) with
  | some anchor => pure (library, anchor)
  | none =>
    let completed ← library.complete
    match completed.anchors.lookup (address, name) with
    | some anchor => pure (completed, anchor)
    | none =>
      match library.schemas.lookup (Address.withoutEmptyFragment address) with
      | none => Lookup.fault (.raised "NoSuchResource" address)
      | some schema =>
        let own := (← idOf? schema).bind fun id => completed.anchors.lookup (id, name)
        match own with
        | some anchor => pure (completed, anchor)
        | none => throw (if name.contains '/' then .pointerLike else .anchor)

end Library

/-- Where a schema is at work: the library, the address that references start from, and the
addresses on the way there, the last one first. -/
structure Scope where
  library : Library
  base : String
  passed : List String := []

namespace Scope

/-- Goes on at another address. -/
def moved (s : Scope) (library : Library) (address : String) : Scope :=
  let leaves := !s.base.isEmpty && (s.passed.isEmpty || address != s.base)
  ⟨library, address, if leaves then s.base :: s.passed else s.passed⟩

/-- Goes on inside a schema, which may have an identifier of its own. -/
def entered (s : Scope) (schema : Json) : Except Fault Scope := do
  match ← idOf? schema with
  | none => .ok s
  | some id => .ok { s with base := ← Address.join s.base id }

/-- The part of a value that a step of a pointer leads to; steps into arrays count from the front,
or from the end if they are negative. -/
def part (value : Json) (step : String) : Lookup (Json × Option String) := do
  let place (items : List Json) : Lookup (Json × Option String) := do
    match readFreeInt? step with
    | none => Lookup.fault (.wrongValue s!"invalid literal: {step}")
    | some n =>
      let n := if n < 0 then n + items.length else n
      match if n < 0 then none else items[n.toNat]? with
      | some v => pure (v, none)
      | none => throw .part
  match value with
  | .arr items => place items
  | .str s => place (s.toList.map fun c => .str (String.singleton c))
  | .obj members =>
    let name := (step.replace "~1" "/").replace "~0" "~"
    match members.lookup name with
    | some v => pure (v, some name)
    | none => throw .part
  | j =>
    Lookup.fault (.wrongType s!"'{j.typeName}' object is not subscriptable")

/-- Follows the steps of a pointer. `way` holds those since the last schema with an identifier. -/
def follow (s : Scope) (value : Json) (way : List (Option String)) :
    List String → Lookup (Scope × Json)
  | [] => pure (s, value)
  | step :: rest => do
    let (v, name) ← part value step
    let way := way ++ [name]
    if !leadsToSchema way then follow s v way rest
    else
      let entered ← s.entered v
      follow entered v (if (← idOf? v).isSome then [] else way) rest

/-- The outermost schema on the way with a dynamic anchor of a name. -/
def outermost (s : Scope) (name : String) (schema : Json) : List String → Lookup Json
  | [] => pure schema
  | address :: rest => do
    match ← ExceptT.lift (s.library.findAnchor address name).run with
    | .ok (_, anchor) => s.outermost name (if anchor.dynamic then anchor.schema else schema) rest
    | .error .anchor => s.outermost name schema rest
    | .error lost => throw lost

/-- The schema that a reference names, and where it is at work. -/
def lookup (s : Scope) (reference : String) : Lookup (Scope × Json) := do
  let (address, fragment) ←
    if reference.startsWith "#" then pure (s.base, String.ofList (reference.toList.drop 1))
    else
      let joined ← Address.join s.base reference
      Address.splitFragment joined
  let (library, schema) ← s.library.find address
  match fragment.toList with
  | [] => pure (s.moved library address, schema)
  | '/' :: steps =>
    let steps := (String.ofList (Text.unescape steps)).splitOn "/"
    (s.moved library address).follow schema [] steps
  | _ =>
    let (library, anchor) ← library.findAnchor address fragment
    let there := s.moved library address
    if !anchor.dynamic then pure (there, anchor.schema)
    else
      let schema ← there.outermost fragment anchor.schema there.passed
      pure (← there.entered schema, schema)

end Scope
end LeagueAudit.Schema
