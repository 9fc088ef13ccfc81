import LeagueAudit.Schema.Check

/-!
The schema of schemas. It lists, by vocabulary, what the value of each keyword must be, and each
vocabulary is a schema of its own. A schema inside a schema is checked against all vocabularies, by
an anchor that each of them declares.
-/
namespace LeagueAudit.Schema

def record (members : List (String × Json)) : Json := .obj members

def texts (names : List String) : Json := .arr (names.map Json.str)

/-- A schema with one keyword. -/
def only (keyword : String) (arg : Json) : Json := record [(keyword, arg)]

def ofType (name : String) : Json := only "type" (.str name)

/-- A reference to a shared part. -/
def sharedPart (name : String) : Json := only "$ref" (.str ("#/$defs/" ++ name))

/-- A reference to the schema of schemas. -/
def anySchema : Json := only "$dynamicRef" (.str "#meta")

/-- An object whose members all meet a schema. -/
def mapOf (values : Json) : Json :=
  record [("type", .str "object"), ("additionalProperties", values)]

/-- Every schema is an object or a truth value. -/
def schemaTypes : Json := texts ["object", "boolean"]

/-- The address of the schema of schemas, before the name of a part. -/
def metaBase : String := "https://json-schema.org/draft/2020-12/"

/-- The head of a schema about schemas. -/
def metaHead (name vocabularies : List String) (title : String) : List (String × Json) :=
  [("$schema", .str (metaBase ++ "schema")),
    ("$id", .str (metaBase ++ String.intercalate "/" name)),
    ("$vocabulary", record (vocabularies.map fun v => (metaBase ++ "vocab/" ++ v, .bool true))),
    ("$dynamicAnchor", .str "meta"), ("title", .str title)]

/-- One vocabulary: the keywords and what their values must be, with the parts that they share. -/
def vocabulary (name words title : String) (keywords shared : List (String × Json)) : Json :=
  record (metaHead ["meta", name] [words] title ++
    [("type", schemaTypes), ("properties", record keywords)] ++
    (if shared.isEmpty then [] else [("$defs", record shared)]))

def coreWords : Json :=
  vocabulary "core" "core" "Core vocabulary meta-schema"
    [("$id", record [("$ref", .str "#/$defs/uriReferenceString"),
        ("$comment", .str "Non-empty fragments not allowed."), ("pattern", .str "^[^#]*#?$")]),
      ("$schema", sharedPart "uriString"), ("$ref", sharedPart "uriReferenceString"),
      ("$anchor", sharedPart "anchorString"), ("$dynamicRef", sharedPart "uriReferenceString"),
      ("$dynamicAnchor", sharedPart "anchorString"),
      ("$vocabulary", record [("type", .str "object"), ("propertyNames", sharedPart "uriString"),
        ("additionalProperties", ofType "boolean")]),
      ("$comment", ofType "string"), ("$defs", mapOf anySchema)]
    [("anchorString", record [("type", .str "string"),
        ("pattern", .str "^[A-Za-z_][-A-Za-z0-9._]*$")]),
      ("uriString", record [("type", .str "string"), ("format", .str "uri")]),
      ("uriReferenceString", record [("type", .str "string"), ("format", .str "uri-reference")])]

/-- An object of schemas that is empty by default. -/
def schemaMap (more : List (String × Json)) : Json :=
  record ([("type", .str "object"), ("additionalProperties", anySchema)] ++ more ++
    [("default", .obj [])])

def applicatorWords : Json :=
  vocabulary "applicator" "applicator" "Applicator vocabulary meta-schema"
    [("prefixItems", sharedPart "schemaArray"), ("items", anySchema), ("contains", anySchema),
      ("additionalProperties", anySchema), ("properties", schemaMap []),
      ("patternProperties", schemaMap [("propertyNames", only "format" (.str "regex"))]),
      ("dependentSchemas", schemaMap []), ("propertyNames", anySchema), ("if", anySchema),
      ("then", anySchema), ("else", anySchema), ("allOf", sharedPart "schemaArray"),
      ("anyOf", sharedPart "schemaArray"), ("oneOf", sharedPart "schemaArray"),
      ("not", anySchema)]
    [("schemaArray", record [("type", .str "array"), ("minItems", .int 1), ("items", anySchema)])]

def unevaluatedWords : Json :=
  vocabulary "unevaluated" "unevaluated" "Unevaluated applicator vocabulary meta-schema"
    [("unevaluatedItems", anySchema), ("unevaluatedProperties", anySchema)] []

/-- Keywords with the same rule. -/
def alike (names : List String) (rule : Json) : List (String × Json) :=
  names.map fun name => (name, rule)

def validationWords : Json :=
  let count := sharedPart "nonNegativeInteger"
  let countOrZero := sharedPart "nonNegativeIntegerDefault0"
  vocabulary "validation" "validation" "Validation vocabulary meta-schema"
    ([("type", only "anyOf" (.arr
        [sharedPart "simpleTypes",
          record [("type", .str "array"), ("items", sharedPart "simpleTypes"),
            ("minItems", .int 1), ("uniqueItems", .bool true)]])),
      ("const", .bool true), ("enum", record [("type", .str "array"), ("items", .bool true)]),
      ("multipleOf", record [("type", .str "number"), ("exclusiveMinimum", .int 0)])] ++
      alike ["maximum", "exclusiveMaximum", "minimum", "exclusiveMinimum"] (ofType "number") ++
      [("maxLength", count), ("minLength", countOrZero),
        ("pattern", record [("type", .str "string"), ("format", .str "regex")]),
        ("maxItems", count), ("minItems", countOrZero),
        ("uniqueItems", record [("type", .str "boolean"), ("default", .bool false)]),
        ("maxContains", count),
        ("minContains", record [("$ref", .str "#/$defs/nonNegativeInteger"),
          ("default", .int 1)]),
        ("maxProperties", count), ("minProperties", countOrZero),
        ("required", sharedPart "stringArray"),
        ("dependentRequired", mapOf (sharedPart "stringArray"))])
    [("nonNegativeInteger", record [("type", .str "integer"), ("minimum", .int 0)]),
      ("nonNegativeIntegerDefault0", record [("$ref", .str "#/$defs/nonNegativeInteger"),
        ("default", .int 0)]),
      ("simpleTypes", only "enum"
        (texts ["array", "boolean", "integer", "null", "number", "object", "string"])),
      ("stringArray", record [("type", .str "array"), ("items", ofType "string"),
        ("uniqueItems", .bool true), ("default", .arr [])])]

/-- A keyword that is a truth value, false by default. -/
def flagWord : Json := record [("type", .str "boolean"), ("default", .bool false)]

def commentWords : Json :=
  vocabulary "meta-data" "meta-data" "Meta-data vocabulary meta-schema"
    ([("title", ofType "string"), ("description", ofType "string"), ("default", .bool true)] ++
      alike ["deprecated", "readOnly", "writeOnly"] flagWord ++
      [("examples", record [("type", .str "array"), ("items", .bool true)])]) []

def formatWords : Json :=
  vocabulary "format-annotation" "format-annotation"
    "Format vocabulary meta-schema for annotation results" [("format", ofType "string")] []

def contentWords : Json :=
  vocabulary "content" "content" "Content vocabulary meta-schema"
    [("contentEncoding", ofType "string"), ("contentMediaType", ofType "string"),
      ("contentSchema", anySchema)] []

/-- The names of the vocabularies. -/
def vocabularyNames : List String :=
  ["core", "applicator", "unevaluated", "validation", "meta-data", "format-annotation", "content"]

/-- A keyword that is no longer in use. -/
def outdated (comment : String) (rule : List (String × Json)) : Json :=
  record (("$comment", .str comment) :: rule ++ [("deprecated", .bool true)])

/-- The schema of schemas. -/
def metaSchema : Json :=
  let map := fun values =>
    [("type", .str "object"), ("additionalProperties", values), ("deprecated", .bool true),
      ("default", .obj [])]
  record (metaHead ["schema"] vocabularyNames "Core and Validation specifications meta-schema" ++
    [("allOf", .arr (vocabularyNames.map fun name => only "$ref" (.str ("meta/" ++ name)))),
      ("type", schemaTypes),
      ("$comment", .str ("This meta-schema also defines keywords that have appeared in previous " ++
        "drafts in order to prevent incompatible extensions as they remain in common use.")),
      ("properties", record
        [("definitions", record (("$comment",
            .str "\"definitions\" has been replaced by \"$defs\".") :: map anySchema)),
          ("dependencies", record (("$comment",
            .str ("\"dependencies\" has been split and replaced by \"dependentSchemas\" and " ++
              "\"dependentRequired\" in order to serve their differing semantics.")) ::
            map (only "anyOf" (.arr
              [anySchema, only "$ref" (.str "meta/validation#/$defs/stringArray")])))),
          ("$recursiveAnchor", outdated
            "\"$recursiveAnchor\" has been replaced by \"$dynamicAnchor\"."
            [("$ref", .str "meta/core#/$defs/anchorString")]),
          ("$recursiveRef", outdated
            "\"$recursiveRef\" has been replaced by \"$dynamicRef\"."
            [("$ref", .str "meta/core#/$defs/uriReferenceString")])])])

/-- The schemas about schemas. -/
def metaSchemas : List Json :=
  [metaSchema, coreWords, applicatorWords, unevaluatedWords, validationWords, commentWords,
    formatWords, contentWords]

/-- The library of the schemas about schemas, each known by its identifier. -/
def metaLibrary : Library :=
  let known : Library := metaSchemas.foldl (fun library schema =>
    library.add (((schema.field "$id").asString?).getD "") schema) {}
  known.complete.toOption.getD known

/-- The first problem of a schema as a schema. -/
def schemaProblem? (schema : Json) : Except Fault (Option Problem) :=
  (problems true ⟨metaLibrary, metaBase ++ "schema", []⟩ metaSchema schema).first?

/-- The scope of a schema that is added to a library under its identifier. -/
def rootScope (library : Library) (schema : Json) : Except Fault Scope := do
  let base := (← idOf? schema).getD ""
  .ok ⟨library.add base schema, base, []⟩

end LeagueAudit.Schema
