import LeagueAudit.Json.Listing
import LeagueAudit.Schema.Meta

/-!
A catalog of schemas, each known by its key and by its own identifier, so that schemas may refer to
each other by either.
-/
namespace LeagueAudit

/-- A way to check the structure of documents by named schemas. -/
structure StructureCheck where
  /-- The first of several names that is known. -/
  resolve : List String → Option String
  /-- What is wrong with a document under the schema of a name. -/
  validate : Json → String → Except Fault (List String)

/-- Schemas by name. -/
structure SchemaCatalog where
  documents : List (String × Json)
  library : Schema.Library

namespace SchemaCatalog

/-- A schema with an identifier, which is made from its key if need be. -/
def identified (key : String) (schema : Json) : Except Fault Json := do
  let members ← schema.memberwise
  .ok (.obj
    (if (members.lookup "$id").isSome then members
    else members ++ [("$id", .str ("osss://schemas/" ++ key))]))

/-- Adds a schema under its key and its identifier. An identifier that is no text makes the catalog
useless in the end, and at once if it is a container. -/
def add (catalog : SchemaCatalog × Option Fault) (key : String) (schema : Json) :
    Except Fault (SchemaCatalog × Option Fault) := do
  let (⟨documents, library⟩, useless) := catalog
  let document ← identified key schema
  Schema.checkDialect document
  let known := Json.setMember key document documents
  match document.field "$id" with
  | .str id =>
    .ok (⟨Json.setMember id document known, (library.add key document).add id document⟩, useless)
  | .arr _ => .error (.notKey "list")
  | .obj _ => .error (.notKey "dict")
  | j => .ok (⟨known, library⟩, some (Schema.noFeature j "rstrip"))

/-- A catalog of schemas by key. -/
def ofSchemas (schemas : List (String × Json)) : Except Fault SchemaCatalog := do
  let start : SchemaCatalog := ⟨[], Schema.metaLibrary⟩
  match ← schemas.foldlM (fun catalog (key, schema) => add catalog key schema) (start, none) with
  | (catalog, none) => .ok catalog
  | (_, some f) => .error f

/-- A catalog of the members of an object. -/
def ofJson (schemas : Json) : Except Fault SchemaCatalog := do
  ofSchemas (← Schema.membersOf schemas)

def has (catalog : SchemaCatalog) (key : String) : Bool := (catalog.documents.lookup key).isSome

/-- The first of several names that is known. -/
def resolve (catalog : SchemaCatalog) (names : List String) : Option String :=
  names.find? catalog.has

def unknownSchema (key : String) : Trouble :=
  ⟨.data, s!"Unknown schema: {key}", "SchemaCatalog.validate",
    some "Check that the schemas directory contains the OSSS schemas."⟩

def invalidSchema (key : String) (p : Problem) : Trouble :=
  ⟨.data, s!"Schema {key} is not a valid JSON schema: {p.message}", "SchemaCatalog.validate", none⟩

/-- The order of problems: by place, then by message. -/
def notAfter (a b : Problem) : Bool :=
  a.address < b.address || (a.address == b.address && decide (a.message ≤ b.message))

/-- A problem in one line. -/
def line (p : Problem) : String :=
  let place := if p.path.isEmpty then "(root)" else p.pointer
  s!"{place} {p.message}"

/-- The problems of a document in order, one line each. -/
def validate (catalog : SchemaCatalog) (document : Json) (key : String) :
    Except Fault (List String) := do
  match catalog.documents.lookup key with
  | none => .error (.trouble (unknownSchema key))
  | some schema =>
    match ← Schema.schemaProblem? schema with
    | some p => .error (.trouble (invalidSchema key p))
    | none =>
      let scope ← Schema.rootScope catalog.library schema
      .ok (((← (Schema.problems true scope schema document).all).mergeSort notAfter).map line)

/-- The catalog as a way to check structure. -/
def toCheck (catalog : SchemaCatalog) : StructureCheck := ⟨catalog.resolve, catalog.validate⟩

end SchemaCatalog
end LeagueAudit
