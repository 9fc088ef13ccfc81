import LeagueAudit.Proofs.Evaluation.Isolation
import LeagueAudit.Proofs.Schema.Found

/-!
Loose contracts. An entry that describes the parameters of its rule by type words is turned into a
schema, and this schema decides exactly what the words say: the parameters are an object, they have
what is demanded, and what they have is of the types that the words stand for. A rule with such a
contract is run on parameters that meet it, or not at all.
-/
namespace LeagueAudit

open Found

namespace Contract

/-- The type of a value; truth values are no numbers. -/
def jsonType : Json → String
  | .null => "null"
  | .bool _ => "boolean"
  | .int _ => "number"
  | .float _ => "number"
  | .str _ => "string"
  | .arr _ => "array"
  | .obj _ => "object"

/-- The types that loose words stand for. -/
def wordTypes : List String := ["number", "boolean", "array", "object", "string"]

theorem simpleType_mem (word : Json) : simpleType word ∈ wordTypes := by
  unfold simpleType
  dsimp only
  split
  · next name hfind =>
    have hnames : ∀ p ∈ typeWords, p.2 ∈ wordTypes := by decide
    exact hnames _ (List.mem_of_find?_eq_some hfind)
  · decide

theorem hasType?_wordType {name : String} (hname : name ∈ wordTypes) (value : Json) :
    Schema.hasType? value name = some (jsonType value == name) := by
  simp only [wordTypes, List.mem_cons, List.not_mem_nil, or_false] at hname
  rcases hname with rfl | rfl | rfl | rfl | rfl <;> cases value <;> rfl

/-- A description by a type word, or by an object that is no schema. -/
def isLoose : Json → Bool
  | .str _ => true
  | .obj members => !schemaKeywords.any (Json.obj members).has
  | _ => false

/-- The type word of a description. -/
def typeWord? : Json → Option Json
  | .str word => some (.str word)
  | spec => if (spec.field "kind").truthy then some (spec.field "kind") else none

/-- Parameters that are as a loose contract describes them; what it does not name is free. -/
structure Meets (parameters : List (String × Json)) (params : Json) : Prop where
  object : params.isObject = true
  required : ∀ p ∈ parameters, isRequired p.2 = true → params.has p.1 = true
  typed : ∀ p ∈ parameters, ∀ word v, typeWord? p.2 = some word → params.find? p.1 = some v →
    jsonType v = simpleType word

/-- The schema of a loose contract. -/
def looseSchema (parameters : List (String × Json)) : Json :=
  .obj
    [("type", .str "object"),
      ("properties", .obj (parameters.map fun (k, spec) => (k, parameterSchema spec))),
      ("required",
        .arr ((parameters.filter fun (_, spec) => isRequired spec).map fun (k, _) => Json.str k)),
      ("additionalProperties", .bool true)]

variable {c : Schema.Checker} {schema value : Json}

theorem decides_type {name : String} (hname : name ∈ wordTypes) :
    (Schema.checkType c schema (.str name) value).Decides (jsonType value = name) := by
  have hhas : [Json.str name].anyM (Schema.hasNamedType value) = .ok (jsonType value == name) := by
    simp only [List.anyM, Schema.hasNamedType, Json.asString?, Option.bind_some,
      hasType?_wordType hname, bind, Except.bind]
    cases jsonType value == name <;> rfl
  unfold Schema.checkType
  refine .ofExcept rfl (.ofExcept hhas ?_)
  exact (decides_when _ _).congr (by simp)

theorem decides_forObjects {rule : Schema.Rule} {arg : Json} {P : Prop}
    (h : value.isObject = true → (rule c schema arg value).Decides P) :
    (Schema.forObjects rule c schema arg value).Decides (value.isObject = true → P) := by
  unfold Schema.forObjects
  split
  · next hobject => exact (h hobject).congr (by simp [hobject])
  · next hother => exact decides_clear.congr (by simp [hother])

/-- Of a schema of one parameter only the type word is checked. -/
theorem decides_words {checker : Schema.Scope → Schema.Checker} {s : Schema.Scope}
    {members : List (String × Json)}
    (h : ∀ p ∈ members, (p.1 = "type" ∧ ∃ name ∈ wordTypes, p.2 = .str name) ∨
      p.1 = "description" ∨ p.1 = "default") :
    (Schema.checkPart checker s (.obj members) value).Decides
      (∀ p ∈ members, p.1 = "type" → p.2 = .str (jsonType value)) := by
  have hnone : ∀ word, word ≠ "type" → word ≠ "description" → word ≠ "default" →
      members.lookup word = none := by
    intro word htype hdescription hdefault
    rw [List.lookup_eq_none_iff]
    intro p hp
    rcases h p hp with ⟨hword, -⟩ | hword | hword <;> rw [hword] <;> simpa
  have hid : Schema.idOf? (.obj members) = .ok none := by
    simp only [Schema.idOf?, hnone "$id" (by decide) (by decide) (by decide)]
  have hdialect : Schema.dialectFault? (.obj members) = none := by
    simp only [Schema.dialectFault?, Json.find?,
      hnone "$schema" (by decide) (by decide) (by decide)]
  have hentered : s.entered (.obj members) = .ok s := by
    rw [Schema.Scope.entered, hid]
    rfl
  unfold Schema.checkPart
  refine .ofExcept hentered ?_
  simp only [Schema.checkIn, hdialect, Schema.checkKeywords]
  refine .each fun p hp => ?_
  obtain ⟨word, arg⟩ := p
  rcases h _ hp with ⟨rfl, name, hname, rfl⟩ | rfl | rfl
  · exact (decides_type hname).congr (by simp [eq_comm])
  · exact decides_clear.congr (by simp)
  · exact decides_clear.congr (by simp)

/-- The schema of one parameter is its type word, with notes that are not checked. -/
theorem parameterSchema_eq {spec : Json} (hloose : isLoose spec = true) :
    ∃ notes : List (String × Json), (∀ p ∈ notes, p.1 = "description" ∨ p.1 = "default") ∧
      parameterSchema spec =
        .obj (((typeWord? spec).map fun word => ("type", .str (simpleType word))).toList ++
          notes) := by
  match spec with
  | .str word => exact ⟨[], by simp, rfl⟩
  | .obj members =>
    have hschema : parameterSchema (.obj members) = .obj _ :=
      if_neg (by simpa [isLoose] using hloose)
    rw [hschema]
    let description := Json.field (.obj members) "description"
    refine ⟨(if description.truthy then [("description", description)] else []) ++
      (((Json.find? (.obj members) "default").map fun v => [("default", v)]).getD []), ?_, ?_⟩
    · intro p hp
      rcases List.mem_append.mp hp with hp | hp
      · split at hp
        · exact .inl (by rw [List.mem_singleton.mp hp])
        · cases hp
      · cases hdefault : Json.find? (.obj members) "default" with
        | none => simp [hdefault] at hp
        | some v =>
          rw [hdefault] at hp
          exact .inr (by rw [List.mem_singleton.mp hp])
    · rw [List.append_assoc]
      congr 2
      dsimp only [typeWord?]
      split <;> rfl
  | .null | .bool _ | .int _ | .float _ | .arr _ => cases hloose

theorem decides_parameter {checker : Schema.Scope → Schema.Checker} {s : Schema.Scope}
    {spec : Json} (hloose : isLoose spec = true) :
    (Schema.checkPart checker s (parameterSchema spec) value).Decides
      (∀ word, typeWord? spec = some word → jsonType value = simpleType word) := by
  obtain ⟨notes, hnotes, hschema⟩ := parameterSchema_eq hloose
  have hfree : ∀ p ∈ notes, p.1 = "type" → p.2 = .str (jsonType value) := by
    intro p hp htype
    rcases hnotes p hp with h | h <;> simp [h] at htype
  rw [hschema]
  refine (decides_words ?_).congr ?_
  · intro p hp
    rcases List.mem_append.mp hp with hp | hp
    · obtain ⟨word, -, rfl⟩ := Option.map_eq_some_iff.mp (Option.mem_toList.mp hp)
      exact .inl ⟨rfl, _, simpleType_mem word, rfl⟩
    · exact .inr (hnotes p hp)
  · rw [List.forall_mem_append, and_iff_left hfree]
    cases typeWord? spec <;> simp [eq_comm]

theorem decides_properties (fuel : Nat) {s : Schema.Scope} {parameters : List (String × Json)}
    (hloose : ∀ p ∈ parameters, value.has p.1 = true → isLoose p.2 = true) :
    (Schema.checkProperties (Schema.checkerWithin false (fuel + 1) s) schema
      (.obj (parameters.map fun (k, spec) => (k, parameterSchema spec))) value).Decides
      (∀ p ∈ parameters, ∀ word v, typeWord? p.2 = some word → value.find? p.1 = some v →
        jsonType v = simpleType word) := by
  unfold Schema.checkProperties
  refine .ofExcept rfl ?_
  rw [each_map]
  refine .each fun p hp => ?_
  dsimp only
  cases hgiven : value.find? p.1 with
  | none => exact decides_clear.congr (by simp)
  | some v =>
    have hloose := hloose p hp (by rw [Json.has, hgiven]; rfl)
    have hpart : (Schema.checkPart (Schema.checkerWithin false fuel) s (parameterSchema p.2)
        v).Decides _ := decides_parameter hloose
    -- The schema is an object, so its problems are told from the place of the parameter.
    obtain ⟨notes, -, hschema⟩ := parameterSchema_eq hloose
    rw [hschema] at hpart ⊢
    exact (hpart.inside _).congr (by simp)

theorem decides_required (parameters : List (String × Json)) :
    (Schema.checkRequired c schema
      (.arr ((parameters.filter fun (_, spec) => isRequired spec).map fun (k, _) => Json.str k))
      value).Decides
      (∀ p ∈ parameters, isRequired p.2 = true → value.has p.1 = true) := by
  unfold Schema.checkRequired
  refine .ofExcept rfl ?_
  rw [each_map]
  refine .congr (.each fun p hp => .ofExcept rfl (decides_when _ _)) ?_
  simp only [List.mem_filter, Bool.not_eq_false', and_imp]

/-- No name is a problem when further members are welcome. -/
theorem decides_additional {names : List (String × Json)}
    (hpatterns : schema.find? "patternProperties" = none)
    (hnames : (schema.find? "properties").getD (.obj []) = .obj names) :
    (Schema.checkAdditional c schema (.bool true) value).Decides True := by
  have hpattern : Schema.declaredPattern? schema = .ok none := by
    rw [Schema.declaredPattern?, hpatterns]
  have hextra : ∃ extra, Schema.undeclared schema value = .ok extra := by
    unfold Schema.undeclared
    rw [hpattern, hnames]
    refine ⟨_, filterM_eq_ok.mpr ⟨fun p hp => (exists_congr fun b => bind_eq_ok).mpr ?_, rfl⟩⟩
    refine ⟨!(Json.obj names).has p.1, (Json.obj names).has p.1, rfl, ?_⟩
    cases (Json.obj names).has p.1 <;> rfl
  obtain ⟨extra, hextra⟩ := hextra
  exact .ofExcept hextra decides_clear

theorem isObject_iff_jsonType : value.isObject = true ↔ jsonType value = "object" := by
  cases value <;> simp [Json.isObject, jsonType]

/-- The schema of a loose contract decides what the contract says; only what is given has to be
described loosely. -/
theorem decides_loose (s : Schema.Scope) {parameters : List (String × Json)}
    (hloose : value.isObject = true → ∀ p ∈ parameters, value.has p.1 = true →
      isLoose p.2 = true) :
    (Schema.problems false s (looseSchema parameters) value).Decides (Meets parameters value) := by
  let c := Schema.checkerWithin false Schema.depthLimit s
  let schema := looseSchema parameters
  -- One fact for each keyword; the keywords about members say nothing about other values.
  have htype : (Schema.checkType c schema (.str "object") value).Decides _ :=
    decides_type (by decide)
  have hproperties : (Schema.forObjects Schema.checkProperties c schema _ value).Decides _ :=
    decides_forObjects fun hobject => decides_properties _ (hloose hobject)
  have hrequired : (Schema.forObjects Schema.checkRequired c schema _ value).Decides _ :=
    decides_forObjects fun _ => decides_required parameters
  have hadditional : (Schema.forObjects Schema.checkAdditional c schema _ value).Decides _ :=
    decides_forObjects fun _ => decides_additional rfl rfl
  refine Decides.congr (htype.andThen (hproperties.andThen (hrequired.andThen
    (hadditional.andThen decides_clear)))) ?_
  rw [← isObject_iff_jsonType]
  constructor
  · rintro ⟨hobject, htyped, hrequired, -⟩
    exact ⟨hobject, hrequired hobject, htyped hobject⟩
  · rintro ⟨hobject, hrequired, htyped⟩
    exact ⟨hobject, fun _ => htyped, fun _ => hrequired, fun _ => trivial, trivial⟩

theorem decides_anyObject (s : Schema.Scope) :
    (Schema.problems false s (.obj anyObject) value).Decides (value.isObject = true) := by
  let c := Schema.checkerWithin false Schema.depthLimit s
  have htype : (Schema.checkType c (.obj anyObject) (.str "object") value).Decides _ :=
    decides_type (by decide)
  have hadditional :
      (Schema.forObjects Schema.checkAdditional c (.obj anyObject) _ value).Decides _ :=
    decides_forObjects fun _ => decides_additional rfl rfl
  refine Decides.congr (htype.andThen (hadditional.andThen decides_clear)) ?_
  simp [isObject_iff_jsonType]

/-- Without a schema of its own an entry has a loose contract, or accepts any object. -/
theorem ofEntry_eq {entry : Json}
    (hdirect : ((entry.field "parametersSchema").orElse (entry.field "paramsSchema")).isObject =
      false) :
    ofEntry entry =
      match (entry.field "parameters").orElse (entry.field "params") with
      | .obj parameters => looseSchema parameters
      | _ => .obj anyObject := by
  unfold ofEntry
  generalize (entry.field "parametersSchema").orElse (entry.field "paramsSchema") = direct
    at hdirect ⊢
  generalize (entry.field "parameters").orElse (entry.field "params") = declared
  cases direct with
  | obj members => cases hdirect
  | _ => cases declared <;> rfl

theorem problems_eq_ok {params : Json} {P : Prop} (hid : Schema.idOf? schema = .ok none)
    (h : ∀ s, (Schema.problems false s schema params).Decides P) :
    ∃ lines, problems schema params = .ok lines ∧ (lines = [] ↔ P) := by
  obtain ⟨ps, hps, hP⟩ := h ⟨Schema.metaLibrary.add "" schema, "", []⟩
  refine ⟨Text.sorted (ps.map line), ?_, ?_⟩
  · unfold problems Schema.rootScope
    rw [hid]
    exact bind_eq_ok.mpr ⟨_, rfl, bind_eq_ok.mpr ⟨ps, hps, rfl⟩⟩
  · rw [Text.sorted, ← List.length_eq_zero_iff, List.length_mergeSort, List.length_map,
      List.length_eq_zero_iff]
    exact hP

/-- An entry that describes the parameters of its rule loosely and gives no schema for them. -/
structure DescribesLoosely (entry : Json) (parameters : List (String × Json)) : Prop where
  direct : ((entry.field "parametersSchema").orElse (entry.field "paramsSchema")).isObject = false
  described : entry.field "parameters" = .obj parameters
  loose : ∀ p ∈ parameters, isLoose p.2 = true

variable {entry params : Json} {parameters : List (String × Json)}

theorem problems_of_describesLoosely (h : DescribesLoosely entry parameters)
    (hsome : parameters ≠ []) : ∃ lines, problems (ofEntry entry) params = .ok lines ∧
      (lines = [] ↔ Meets parameters params) := by
  have hdescribed : (entry.field "parameters").orElse (entry.field "params") =
      .obj parameters := by
    rw [h.described, Json.orElse, if_pos (by simpa [Json.truthy] using hsome)]
  rw [ofEntry_eq h.direct, hdescribed]
  exact problems_eq_ok rfl fun s => decides_loose s fun _ p hp _ => h.loose p hp

theorem problems_of_not_isObject (h : DescribesLoosely entry parameters)
    (hother : ¬params.isObject = true) :
    ∃ lines, problems (ofEntry entry) params = .ok lines ∧ lines ≠ [] := by
  rw [ofEntry_eq h.direct]
  split
  · obtain ⟨lines, hlines, hnone⟩ := problems_eq_ok rfl
      fun s => decides_loose s fun hobject => absurd hobject hother
    exact ⟨lines, hlines, fun hnil => hother (hnone.mp hnil).object⟩
  · obtain ⟨lines, hlines, hnone⟩ := problems_eq_ok rfl fun s => decides_anyObject s
    exact ⟨lines, hlines, fun hnil => hother (hnone.mp hnil)⟩

theorem problems_of_not_meets (h : DescribesLoosely entry parameters)
    (hmeets : ¬Meets parameters params) :
    ∃ lines, problems (ofEntry entry) params = .ok lines ∧ lines ≠ [] := by
  by_cases hobject : params.isObject = true
  · -- An empty description counts as none, but then it asks for an object and nothing else.
    have hsome : parameters ≠ [] := by
      rintro rfl
      exact hmeets ⟨hobject, by simp, by simp⟩
    obtain ⟨lines, hlines, hnone⟩ := problems_of_describesLoosely h hsome
    exact ⟨lines, hlines, fun hnil => hmeets (hnone.mp hnil)⟩
  · exact problems_of_not_isObject h hobject

end Contract

/-- The parameters that a constraint gives to its rule, an empty object when it declares none. -/
def Constraint.given (c : Constraint) : Json := c.params.notNull?.getD (.obj [])

namespace Engine

open Contract Evaluation

/-- A contract that stands between the constraints of a rule and the rule. -/
structure Enforces (engine : Engine) (c : Constraint) (ruleId : String)
    (parameters : List (String × Json)) : Prop where
  /-- A rule that runs is handed what meets the contract. -/
  meets : ∀ index rule scope model, engine.Runs c index ruleId rule scope model →
    Meets parameters c.given ∧ runOf c rule scope = rule.run ⟨c.given, scope⟩
  /-- Whatever the rule may be, it is not asked about anything else. -/
  rejects : ¬Meets parameters c.given → ∃ message, ∀ index doc, Constraint.read doc = .ok c →
    engine.evaluate index doc = .ok (rejected c [] message "InvalidParams" message)
  accepts : parameters ≠ [] → Meets parameters c.given → engine.contractProblems c ruleId = .ok []

variable {engine : Engine} {registry : Registry} {c : Constraint} {ruleId : String} {entry : Json}
  {parameters : List (String × Json)}

theorem contractProblems_eq (hregistry : engine.registry = some registry)
    (hentry : registry.get? ruleId = some entry) :
    engine.contractProblems c ruleId = problems (ofEntry entry) c.given := by
  have hlookup : registry.entries.lookup ruleId = some entry := by
    unfold Registry.get? at hentry
    split at hentry
    · cases hentry
    · exact hentry
  simp only [contractProblems, hregistry, Registry.paramsProblems, Registry.paramsSchema?, hlookup,
    Option.map_some, Constraint.given]

theorem runOf_of_isObject {rule : Rule} {scope : Index} (h : c.given.isObject = true) :
    runOf c rule scope = rule.run ⟨c.given, scope⟩ := by
  unfold Constraint.given at h ⊢
  unfold runOf
  cases hparams : c.params with
  | obj members => rfl
  | null => rfl
  | _ =>
    rw [hparams] at h
    cases h

/-- The contract of a registered rule is enforced for each of its constraints. -/
theorem enforces_of_describesLoosely (hregistry : engine.registry = some registry)
    (hentry : registry.get? ruleId = some entry) (hloose : DescribesLoosely entry parameters)
    (hid : c.ruleId = some ruleId) : engine.Enforces c ruleId parameters := by
  have hproblems := contractProblems_eq (c := c) hregistry hentry
  refine ⟨?meets, ?rejects, ?accepts⟩
  case meets =>
    intro index rule scope model hruns
    have hmeets : Meets parameters c.given := by
      by_contra hmeets
      obtain ⟨lines, hlines, hsome⟩ := problems_of_not_meets hloose hmeets
      rw [← hproblems, hruns.contract] at hlines
      exact hsome (Except.ok.inj hlines).symm
    exact ⟨hmeets, runOf_of_isObject hmeets.object⟩
  case rejects =>
    intro hmeets
    obtain ⟨lines, hlines, hsome⟩ := problems_of_not_meets hloose hmeets
    have hwarnings : engine.registryWarnings c ruleId = [] := by
      simp only [registryWarnings, hregistry, hentry, Option.isSome_some, if_true]
    refine ⟨contractMessage ruleId lines, fun index doc hread => ?_⟩
    have hbad : (!lines.isEmpty) = true := by simpa using hsome
    simp only [evaluate, hread, evaluateRead, hid, hwarnings]
    rw [hproblems, hlines]
    exact if_pos hbad
  case accepts =>
    intro hsome hmeets
    obtain ⟨lines, hlines, hnone⟩ := problems_of_describesLoosely hloose hsome
    rw [hproblems, hlines, hnone.mpr hmeets]

/-- A registry that demands the number of hours of a rest rule. -/
def restRegistry : Registry :=
  ⟨[("min_rest", .obj [("parameters", .obj
    [("min_hours", .obj [("kind", .str "int"), ("required", .bool true)]),
      ("strict", .str "bool")])])], []⟩

/-- A constraint without the hours. -/
def restWithoutHours : Json := .obj [("id", .str "H"), ("ruleId", .str "min_rest")]

theorem enforces_restRegistry :
    ∃ c, Constraint.read restWithoutHours = .ok c ∧ ∃ message, ∀ index,
      Engine.evaluate { catalog := .default, registry := some restRegistry } index
        restWithoutHours = .ok (rejected c [] message "InvalidParams" message) := by
  obtain ⟨c, hread, hid, hparams⟩ : ∃ c, Constraint.read restWithoutHours = .ok c ∧
      c.ruleId = some "min_rest" ∧ c.params = .null := ⟨_, rfl, rfl, rfl⟩
  have hgiven : c.given = .obj [] := by rw [Constraint.given, hparams]; rfl
  have henforces : Enforces { catalog := .default, registry := some restRegistry } c "min_rest"
      [("min_hours", .obj [("kind", .str "int"), ("required", .bool true)]),
        ("strict", .str "bool")] :=
    enforces_of_describesLoosely rfl rfl ⟨rfl, rfl, by decide⟩ hid
  obtain ⟨message, hrejected⟩ := henforces.rejects fun hmeets => by
    have hhas := hmeets.required _ List.mem_cons_self rfl
    rw [hgiven] at hhas
    exact absurd hhas (by decide)
  exact ⟨c, hread, message, fun index => hrejected index _ hread⟩

end Engine
end LeagueAudit
