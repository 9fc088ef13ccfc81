import LeagueAudit.Proofs.Json.Members
import LeagueAudit.Proofs.Registry.Contract
import LeagueAudit.Proofs.Text.Case

/-!
Parameters that are lists. The loose word of a list with the type of its elements stands for an
array unless this type has a word for numbers or truth values in it, which counts before the list.
-/
namespace LeagueAudit

open Found

namespace Contract

/-- The parts of loose words that count before lists. -/
def scalarWords : List String := ["int", "number", "float", "bool"]

/-- A text has one of these words in it, in letters of any case. -/
def NamesScalar (text : String) : Prop :=
  ∃ word ∈ scalarWords, word.toList <:+: (Text.lower text).toList

instance (text : String) : Decidable (NamesScalar text) :=
  inferInstanceAs (Decidable (∃ word ∈ scalarWords, _))

/-- The loose word of lists with elements of a type. -/
def listOf (element : String) : String := "list" ++ "[" ++ element ++ "]"

theorem occursIn_iff {part whole : String} :
    occursIn part whole = true ↔ part.toList <:+: whole.toList :=
  String.contains_string_iff

theorem occursIn_listOf {word : String} (hopen : '[' ∉ word.toList) (hclose : ']' ∉ word.toList)
    (element : String) : occursIn word (Text.lower (listOf element)) = true ↔
      word.toList <:+: "list".toList ∨ word.toList <:+: (Text.lower element).toList := by
  have hnil : word.toList <:+: [] → word.toList <:+: (Text.lower element).toList := by
    intro h
    rw [List.infix_nil.mp h]
    exact List.nil_infix
  rw [occursIn_iff, listOf, Text.toList_lower_bracketed, List.append_assoc, List.cons_append,
    Text.infix_append_cons_iff hopen, Text.infix_append_cons_iff hclose, or_iff_left_of_imp hnil]
  exact Iff.rfl

theorem namesScalar_iff (element : String) : NamesScalar element ↔
    ∃ word ∈ scalarWords, occursIn word (Text.lower (listOf element)) = true := by
  refine exists_congr fun word => and_congr_right fun hword => ?_
  have hplain : ∀ word ∈ scalarWords,
      '[' ∉ word.toList ∧ ']' ∉ word.toList ∧ ¬word.toList <:+: "list".toList := by decide
  obtain ⟨hopen, hclose, hother⟩ := hplain word hword
  rw [occursIn_listOf hopen hclose, or_iff_right hother]

/-- A list is an array unless its elements name a scalar. -/
theorem simpleType_listOf (element : String) :
    "array" = simpleType (.str (listOf element)) ↔ ¬NamesScalar element := by
  have hlist : occursIn "list" (Text.lower (listOf element)) = true :=
    (occursIn_listOf (by decide) (by decide) element).mpr (.inl List.infix_rfl)
  rw [namesScalar_iff]
  have htext : (Json.str (listOf element)).text = listOf element := rfl
  unfold simpleType
  rw [htext]
  dsimp only
  generalize Text.lower (listOf element) = text at hlist
  simp only [typeWords, scalarWords, List.find?_cons, hlist, List.exists_mem_cons_iff]
  cases occursIn "int" text <;> cases occursIn "number" text <;> cases occursIn "float" text <;>
    cases occursIn "bool" text <;> cases occursIn "array" text <;> simp

/-- A problem of the parameter of a name. -/
def IsAbout (name : String) (p : Problem) : Prop := p.path.head? = some (.name name)

variable {c : Schema.Checker} {schema value v : Json} {name : String}
  {parameters : List (String × Json)}

theorem shows_whole (bad : Bool) (message : String) :
    (when bad message).Shows (IsAbout name) False :=
  (shows_when bad message).congr (by simp [IsAbout])

theorem exists_parameterSchema (spec : Json) : ∃ members, parameterSchema spec = .obj members := by
  unfold parameterSchema
  split
  · exact ⟨_, rfl⟩
  · unfold describedSchema
    split <;> exact ⟨_, rfl⟩
  · exact ⟨_, rfl⟩

/-- What a schema says of the properties of an object concerns them one by one. -/
theorem shows_properties (fuel : Nat) {s : Schema.Scope} {spec : Json}
    (hdistinct : (parameters.map (·.1)).Nodup) (hspec : (name, spec) ∈ parameters)
    (hloose : isLoose spec = true) (hgiven : value.find? name = some v) :
    (Schema.checkProperties (Schema.checkerWithin false (fuel + 1) s) schema
      (.obj (parameters.map fun (k, spec) => (k, parameterSchema spec))) value).Shows
      (IsAbout name) ¬∀ word, typeWord? spec = some word → jsonType v = simpleType word := by
  unfold Schema.checkProperties
  refine .ofExcept fun members hmembers => ?_
  cases Except.ok.inj hmembers
  rw [each_map]
  refine Shows.congr (.each (Q := fun p => p.1 = name ∧
    ¬∀ word, typeWord? spec = some word → jsonType v = simpleType word) fun p hp => ?_) ?_
  · dsimp only
    obtain ⟨members, hschema⟩ := exists_parameterSchema p.2
    by_cases hname : p.1 = name
    · have hsame : p.2 = spec := by
        have hlookup := (Json.mem_iff_lookup hdistinct).mp hp
        rw [hname, (Json.mem_iff_lookup hdistinct).mp hspec] at hlookup
        exact (Option.some.inj hlookup).symm
      have hpart : (Schema.checkPart (Schema.checkerWithin false fuel) s (parameterSchema spec)
          v).Decides _ := decides_parameter hloose
      rw [hname, hgiven, hsame]
      rw [hsame] at hschema
      rw [hschema] at hpart ⊢
      exact (hpart.shows_inside (.name name)).congr (by simp)
    · have hother : Step.name p.1 ≠ .name name := fun h => hname (Step.name.inj h)
      cases value.find? p.1 with
      | none => exact shows_clear.congr (by simp [hname])
      | some w =>
        rw [hschema]
        exact (shows_inside_of_ne hother _).congr (by simp [hname])
  · constructor
    · rintro ⟨p, -, -, h⟩
      exact h
    · exact fun h => ⟨_, hspec, rfl, h⟩

theorem shows_loose (s : Schema.Scope) {spec : Json}
    (hdistinct : (parameters.map (·.1)).Nodup) (hspec : (name, spec) ∈ parameters)
    (hloose : isLoose spec = true) (hgiven : value.find? name = some v) :
    (Schema.problems false s (looseSchema parameters) value).Shows (IsAbout name)
      ¬∀ word, typeWord? spec = some word → jsonType v = simpleType word := by
  let c := Schema.checkerWithin false Schema.depthLimit s
  let schema := looseSchema parameters
  have hobject : value.isObject = true := by
    cases value with
    | obj members => rfl
    | _ => cases hgiven
  have htype : (Schema.checkType c schema (.str "object") value).Shows (IsAbout name) False :=
    .ofExcept fun _ _ => .ofExcept fun _ _ => shows_whole _ _
  have hforObjects : ∀ {rule : Schema.Rule} {arg : Json} {P : Prop},
      (rule c schema arg value).Shows (IsAbout name) P →
        (Schema.forObjects rule c schema arg value).Shows (IsAbout name) P := by
    intro rule arg P h
    rwa [Schema.forObjects, if_pos hobject]
  have hproperties : (Schema.forObjects Schema.checkProperties c schema (.obj
      (parameters.map fun (k, spec) => (k, parameterSchema spec))) value).Shows (IsAbout name) _ :=
    hforObjects (shows_properties (Schema.depthLimit - 1) hdistinct hspec hloose hgiven)
  have hrequired : (Schema.forObjects Schema.checkRequired c schema (.arr
      ((parameters.filter fun (_, spec) => isRequired spec).map fun (k, _) => Json.str k))
      value).Shows (IsAbout name) False :=
    hforObjects (.ofExcept fun _ _ => .each_none fun _ _ => .ofExcept fun _ _ => shows_whole _ _)
  have hadditional : (Schema.forObjects Schema.checkAdditional c schema (.bool true)
      value).Shows (IsAbout name) False :=
    hforObjects (.ofExcept fun _ _ => by rw [if_neg (by decide)]; exact shows_whole _ _)
  refine Shows.congr (htype.andThen (hproperties.andThen (hrequired.andThen
    (hadditional.andThen shows_clear)))) ?_
  simp

/-- The problems of parameters under the contract of an entry. -/
def parameterProblems (entry params : Json) : Except Fault (List Problem) := do
  let scope ← Schema.rootScope Schema.metaLibrary (ofEntry entry)
  (Schema.problems false scope (ofEntry entry) params).all

theorem parameterProblems_eq {entry : Json} (params : Json)
    (hdirect : ((entry.field "parametersSchema").orElse (entry.field "paramsSchema")).isObject =
      false)
    (hdeclared : (entry.field "parameters").orElse (entry.field "params") = .obj parameters) :
    ∃ s, parameterProblems entry params =
      (Schema.problems false s (looseSchema parameters) params).all := by
  refine ⟨⟨Schema.metaLibrary.add "" (looseSchema parameters), "", []⟩, ?_⟩
  rw [parameterProblems, ofEntry_eq hdirect, hdeclared]
  rfl

/-- The check of parameters tells these problems in sorted lines. -/
theorem paramsProblems_eq {registry : Registry} {rule : String} {entry params : Json}
    (hentry : registry.get? rule = some entry) (hobject : params.isObject = true) :
    registry.paramsProblems rule params =
      (parameterProblems entry params).map fun ps => Text.sorted (ps.map line) := by
  have hlookup : registry.entries.lookup rule = some entry := by
    unfold Registry.get? at hentry
    split at hentry
    · cases hentry
    · exact hentry
  obtain ⟨members, rfl⟩ := Json.exists_eq_obj hobject
  simp only [Registry.paramsProblems, Registry.paramsSchema?, hlookup, Option.map_some]
  change problems (ofEntry entry) (.obj members) = _
  unfold problems parameterProblems
  cases Schema.rootScope Schema.metaLibrary (ofEntry entry) with
  | error f => rfl
  | ok scope =>
    dsimp only [bind, Except.bind]
    cases (Schema.problems false scope (ofEntry entry) (.obj members)).all <;> rfl

/-- An entry without a schema of its own declares one of its parameters to be a list of elements of
a type. -/
structure DeclaresList (entry : Json) (parameters : List (String × Json))
    (name element : String) : Prop where
  direct : ((entry.field "parametersSchema").orElse (entry.field "paramsSchema")).isObject = false
  declared : (entry.field "parameters").orElse (entry.field "params") = .obj parameters
  distinct : (parameters.map (·.1)).Nodup
  spec : ∃ spec, (name, spec) ∈ parameters ∧ isLoose spec = true ∧
    typeWord? spec = some (.str (listOf element))

/-- An array that is given for a list is a problem exactly when the type of its elements names a
scalar. The check comes to its end when all that is given is described loosely. -/
theorem finds_list_iff {registry : Registry} {rule element : String} {entry params : Json}
    {items : List Json} (hentry : registry.get? rule = some entry)
    (hlist : DeclaresList entry parameters name element)
    (hgiven : params.find? name = some (.arr items)) :
    registry.paramsProblems rule params =
        (parameterProblems entry params).map (fun ps => Text.sorted (ps.map line)) ∧
      (∀ ps, parameterProblems entry params = .ok ps →
        ((∃ p ∈ ps, IsAbout name p) ↔ NamesScalar element)) ∧
      ((∀ p ∈ parameters, params.has p.1 = true → isLoose p.2 = true) →
        ∃ ps, parameterProblems entry params = .ok ps) := by
  have hobject : params.isObject = true := by
    cases params with
    | obj members => rfl
    | _ => cases hgiven
  obtain ⟨spec, hspec, hloose, hword⟩ := hlist.spec
  obtain ⟨s, hs⟩ := parameterProblems_eq params hlist.direct hlist.declared
  refine ⟨paramsProblems_eq hentry hobject, fun ps hps => ?_, fun hothers => ?_⟩
  · have hshows := shows_loose s hlist.distinct hspec hloose hgiven ps (hs ▸ hps)
    rw [hshows, hword]
    simp only [Option.some.injEq, forall_eq', jsonType, simpleType_listOf, not_not]
  · obtain ⟨ps, hps, -⟩ := decides_loose s fun _ => hothers
    exact ⟨ps, hs.trans hps⟩

/-- A rule with one parameter, a list. -/
def listEntry (element : String) : Json :=
  .obj [("parameters", .obj [("xs", .str (listOf element))])]

def listRegistry (element : String) : Registry := ⟨[("r", listEntry element)], []⟩

/-- Parameters with two numbers. -/
def twoNumbers : Json := .obj [("xs", .arr [.int 1, .int 2])]

theorem declaresList_listEntry (element : String) :
    DeclaresList (listEntry element) [("xs", .str (listOf element))] "xs" element :=
  ⟨rfl, rfl, by simp, _, List.mem_cons_self, rfl, rfl⟩

theorem finds_list_iff_int :
    ∃ ps, parameterProblems (listEntry "int") twoNumbers = .ok ps ∧ ∃ p ∈ ps, IsAbout "xs" p := by
  have hentry : (listRegistry "int").get? "r" = some (listEntry "int") := rfl
  have hgiven : twoNumbers.find? "xs" = some (.arr [.int 1, .int 2]) := rfl
  obtain ⟨-, hfinds, hends⟩ := finds_list_iff hentry (declaresList_listEntry "int") hgiven
  obtain ⟨ps, hps⟩ := hends (by simp [isLoose])
  exact ⟨ps, hps, (hfinds ps hps).mpr (by decide +kernel)⟩

theorem simpleType_listOf_int : simpleType (.str (listOf "int")) = "number" := by
  have hint : occursIn "int" (Text.lower (listOf "int")) = true :=
    (occursIn_listOf (by decide) (by decide) "int").mpr (.inr (by decide +kernel))
  have htext : (Json.str (listOf "int")).text = listOf "int" := rfl
  simp only [simpleType, htext, typeWords, List.find?_cons, hint]

/-- An array is rejected for a list of whole numbers. -/
theorem paramsProblems_listOf_int :
    (listRegistry "int").paramsProblems "r" twoNumbers =
      .ok ["/xs [1, 2] is not of type 'number'"] := by
  have hschema : ofEntry (listEntry "int") =
      .obj [("type", .str "object"),
        ("properties", .obj [("xs", .obj [("type", .str (simpleType (.str (listOf "int"))))])]),
        ("required", .arr []), ("additionalProperties", .bool true)] := rfl
  rw [simpleType_listOf_int] at hschema
  obtain ⟨ps, hps, rfl⟩ := exists_ok_of_toOption_map
    (x := parameterProblems (listEntry "int") twoNumbers) (f := fun ps => ps)
    (b := [⟨[.name "xs"], "[1, 2] is not of type 'number'"⟩])
    (by rw [parameterProblems, hschema]; decide +kernel)
  rw [paramsProblems_eq rfl rfl, hps, Except.map, Text.sorted, List.map_singleton,
    List.mergeSort_singleton]
  rfl

end Contract
end LeagueAudit
