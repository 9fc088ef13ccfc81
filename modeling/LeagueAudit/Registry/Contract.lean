import LeagueAudit.Schema.Meta
import LeagueAudit.Text.Case

/-!
Parameter contracts: what a registry entry says about the parameters of its rule, as a schema. An
entry gives a schema, or names with loose type words, or nothing, which accepts any object.
-/
namespace LeagueAudit.Contract

/-- A text occurs in another one. -/
def occursIn (part whole : String) : Bool := whole.contains part

/-- Parts of loose type words with the types that they stand for, the first one found counting. -/
def typeWords : List (String × String) :=
  [("int", "number"), ("number", "number"), ("float", "number"), ("bool", "boolean"),
    ("array", "array"), ("list", "array"), ("object", "object"), ("map", "object")]

/-- The type that a loose word stands for. -/
def simpleType (word : Json) : String :=
  let text := Text.lower word.text
  match typeWords.find? fun (part, _) => occursIn part text with
  | some (_, name) => name
  | none => "string"

def typeSchema (word : Json) : List (String × Json) := [("type", .str (simpleType word))]

/-- The keywords that tell a schema from a loose description. -/
def schemaKeywords : List String :=
  ["type", "properties", "items", "anyOf", "oneOf", "enum", "$ref"]

def isTruthValue : Json → Bool
  | .bool _ => true
  | _ => false

/-- The schema of one parameter that is described by an object. -/
def describedSchema (spec : Json) : Json :=
  if schemaKeywords.any spec.has then
    .obj (spec.members.filter fun (k, v) => !(k == "required" && isTruthValue v))
  else
    let kind := spec.field "kind"
    let description := spec.field "description"
    .obj ((if kind.truthy then typeSchema kind else []) ++
      (if description.truthy then [("description", description)] else []) ++
      (((spec.find? "default").map fun v => [("default", v)]).getD []))

/-- The schema of one parameter. -/
def parameterSchema (spec : Json) : Json :=
  match spec with
  | .str _ => .obj (typeSchema spec)
  | .obj _ => describedSchema spec
  | _ => .obj []

/-- A description demands its parameter. -/
def isRequired (spec : Json) : Bool :=
  match spec.field "required" with
  | .bool b => b
  | _ => false

/-- What accepts any object. -/
def anyObject : List (String × Json) :=
  [("type", .str "object"), ("additionalProperties", .bool true)]

/-- The schema of the parameters of an entry. -/
def ofEntry (entry : Json) : Json :=
  let direct := (entry.field "parametersSchema").orElse (entry.field "paramsSchema")
  let declared := (entry.field "parameters").orElse (entry.field "params")
  match direct, declared with
  | .obj members, _ => .obj (Json.setMembers anyObject members)
  | _, .obj parameters =>
    let required :=
      (parameters.filter fun (_, spec) => isRequired spec).map fun (k, _) => Json.str k
    .obj
      [("type", .str "object"),
        ("properties", .obj (parameters.map fun (k, spec) => (k, parameterSchema spec))),
        ("required", .arr required), ("additionalProperties", .bool true)]
  | _, _ => .obj anyObject

/-- A problem of parameters in one line. -/
def line (p : Problem) : String :=
  let place := if p.path.isEmpty then "params" else p.pointer
  s!"{place} {p.message}"

/-- What is wrong with parameters under a schema, in the order of the lines. -/
def problems (schema params : Json) : Except Fault (List String) := do
  let scope ← Schema.rootScope Schema.metaLibrary schema
  .ok (Text.sorted ((← (Schema.problems false scope schema params).all).map line))

end LeagueAudit.Contract
