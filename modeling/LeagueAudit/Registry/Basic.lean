import LeagueAudit.Registry.Contract
import LeagueAudit.Text.Similar

/-!
The registry: the rules that are declared, with the contracts of their parameters, and the metrics
of objectives. Whether a rule is implemented is another matter.
-/
namespace LeagueAudit

/-- Declared rules and objectives by name; no name occurs twice. -/
structure Registry where
  entries : List (String × Json)
  objectives : List (String × Json)

namespace Registry

/-- The name that an entry declares, its own name for names counting before `id`. -/
def nameOf? (key : String) (entry : Json) : Option String :=
  match (entry.field key).orElse (entry.field "id") with
  | .str name => if name.isEmpty then none else some name
  | _ => none

/-- Adds an entry under its name, a later one replacing an earlier one. -/
def addEntry (entries : List (String × Json)) (entry : Json) : List (String × Json) :=
  match nameOf? "ruleId" entry with
  | some name =>
    Json.setMember name (.obj (Json.setMember "id" (.str name) entry.members)) entries
  | none => entries

def addObjective (objectives : List (String × Json)) (entry : Json) : List (String × Json) :=
  match nameOf? "objectiveId" entry with
  | some name => Json.setMember name entry objectives
  | none => objectives

/-- A registry of listed entries; what has no name is left out. -/
def ofLists (constraints objectives : List Json) : Registry :=
  ⟨constraints.foldl addEntry [], objectives.foldl addObjective []⟩

/-- A registry of documents that list entries. -/
def ofDocuments (constraints objectives : Json) : Except Fault Registry := do
  let constraints ← constraints.listed
  .ok (ofLists constraints (← objectives.listed))

/-- The names of the rules in order. -/
def ruleIds (r : Registry) : List String := Text.sorted (r.entries.map (·.1))

def objectiveIds (r : Registry) : List String := Text.sorted (r.objectives.map (·.1))

def size (r : Registry) : Nat := r.entries.length

def has (r : Registry) (rule : String) : Bool := (r.entries.lookup rule).isSome

/-- The entry of a rule; no rule has an empty name. -/
def get? (r : Registry) (rule : String) : Option Json :=
  if rule.isEmpty then none else r.entries.lookup rule

/-- A metric is a declared objective. -/
def hasObjective (r : Registry) (metric : Json) : Except Fault Bool :=
  if !metric.truthy then .ok false
  else
    match metric with
    | .str name => .ok (r.objectives.lookup name).isSome
    | .arr _ => .error (.notKey metric.typeName)
    | .obj _ => .error (.notKey metric.typeName)
    | _ => .ok false

/-- The schema of the parameters of a declared rule. -/
def paramsSchema? (r : Registry) (rule : String) : Option Json :=
  (r.entries.lookup rule).map Contract.ofEntry

/-- What is wrong with the parameters of a rule; nothing when the rule is not declared. -/
def paramsProblems (r : Registry) (rule : String) (params : Json) : Except Fault (List String) :=
  match r.paramsSchema? rule with
  | none => .ok []
  | some schema => Contract.problems schema (params.notNull?.getD (.obj []))

/-- At most three declared names that are close to an unknown one. -/
def suggestions (r : Registry) (rule : String) : List String :=
  Text.similarTo rule 3 (r.entries.map (·.1))

end Registry
end LeagueAudit
