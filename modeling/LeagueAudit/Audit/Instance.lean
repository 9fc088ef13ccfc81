import LeagueAudit.Audit.Basic
import LeagueAudit.Schedule.Placeholder

/-!
The audit of an instance before there is any result: its structure, its objectives, the declared
constraints, and the references between fixtures, teams and venues.
-/
namespace LeagueAudit

namespace InstanceAudit

/-- The names under which the schema of instances may be known. -/
def schemaNames : List String :=
  ["osss-core.schema.json", "osss-instance.schema.json", "instance.schema.json",
    "https://opensportsscheduling.org/schemas/osss-core.schema.json"]

def schemaMissing : Entry :=
  { check := "SchemaUnavailable"
    message := "No OSSS core schema found; structural validation skipped"
    action := some "Point --schemas at a directory containing osss-core.schema.json." }

/-- Checks the structure. -/
def checkStructure (schemas : Option StructureCheck) (league : Json) (report : Report) :
    Except Fault Report :=
  match schemas with
  | none => .ok report
  | some schemas =>
    match schemas.resolve schemaNames with
    | none => .ok (report.addWarning schemaMissing)
    | some name => do
      let errors := (← schemas.validate league name).map fun message =>
        ({ check := "SchemaViolation", message } : Entry)
      .ok ((report.addErrors errors).markPassed "SchemaViolation")

/-- A warning for an objective whose metric the registry does not declare. -/
def objectiveWarnings (registry : Registry) (objective : Json) : Except Fault (List Entry) := do
  let metric := objective.field "metric"
  if ← registry.hasObjective metric then .ok []
  else
    .ok
      [{ check := "MissingRegistryEntry"
         message := s!"Objective metric not found in registry: {metric.text}"
         entities := .obj [("metric", metric)] }]

/-- Checks the objectives against the registry. -/
def checkObjectives (registry : Option Registry) (league : Json) (report : Report) :
    Except Fault Report :=
  match registry with
  | none => .ok report
  | some registry => do
    let warnings ← (league.field "objectives").items.mapM (objectiveWarnings registry)
    .ok (report.addWarnings warnings.flatten)

/-- The declared names that are close to an unknown rule, as a question. -/
def hint (names : List String) : Option String :=
  if names.isEmpty then none
  else
    let quoted := String.intercalate ", " (names.map fun name => s!"'{name}'")
    some s!"Did you mean {quoted}?"

/-- A warning when a registry does not declare the rule. -/
def registryWarnings (registry : Option Registry) (c : Constraint) (rule : String) : List Entry :=
  match registry with
  | none => []
  | some registry =>
    if registry.has rule then []
    else
      [Evaluation.entry c "MissingRegistryEntry"
        s!"Constraint rule not found in registry: {rule}" (hint (registry.suggestions rule))]

/-- A warning when the rule is not implemented. -/
def implementationWarnings (catalog : Catalog) (c : Constraint) (rule : String) : List Entry :=
  if catalog.has rule then []
  else
    [Evaluation.entry c "MissingRule"
      (s!"No rule implementation found for '{rule}'; constraint '{c.label}' " ++
        "will not be checked")]

/-- An error when the parameters do not fit the contract of the rule. -/
def paramsErrors (registry : Option Registry) (c : Constraint) (rule : String) :
    Except Fault (List Entry) :=
  match registry with
  | none => .ok []
  | some registry => do
    let problems ← registry.paramsProblems rule c.params
    .ok (if problems.isEmpty then []
      else [Evaluation.entry c "InvalidParams" (Engine.contractMessage rule problems)])

/-- An error when the selector cannot be read. -/
def selectorErrors (c : Constraint) : List Entry :=
  match Selector.read c.selector with
  | .ok _ => []
  | .error f =>
    [Evaluation.entry c "InvalidSelector" s!"Constraint '{c.label}': {f.message}"]

/-- An error when a soft constraint has no penalty model. -/
def penaltyErrors (c : Constraint) : List Entry :=
  if !c.soft then []
  else if c.penalty.isNull then
    [Evaluation.entry c "MissingPenalty" s!"Soft constraint '{c.label}' missing penalty model"
      (some "Declare a penalty descriptor such as a linear model.")]
  else
    match PenaltyModel.read c.penalty with
    | .ok _ => []
    | .error f =>
      [Evaluation.entry c "InvalidPenaltyModel" s!"Constraint '{c.label}': {f.message}"]

def withoutRule (c : Constraint) : Entry :=
  Evaluation.entry c "InvalidConstraint" s!"Constraint '{c.label}' is missing ruleId"
    (some "Add a ruleId naming a registered rule.")

/-- Checks a declared constraint. -/
def checkDeclared (auditor : Auditor) (c : Constraint) (report : Report) : Except Fault Report :=
  match c.ruleId with
  | none => .ok (report.addError (withoutRule c))
  | some rule => do
    let warnings := registryWarnings auditor.registry c rule ++
      implementationWarnings auditor.catalog c rule
    let params ← paramsErrors auditor.registry c rule
    .ok (report.extend (params ++ selectorErrors c ++ penaltyErrors c) warnings)

/-- Checks the constraint at a position. -/
def checkConstraint (auditor : Auditor) (report : Report) (item : Json × Nat) :
    Except Fault Report :=
  let (doc, position) := item
  match Constraint.read doc with
  | .ok c => checkDeclared auditor c report
  | .error m =>
    .ok (report.addError
      { check := "InvalidConstraint"
        message := s!"Constraint #{position} is malformed: {Constraint.misfitText m}" })

def noConstraints : Entry :=
  { check := "NoConstraints"
    message := "No constraints[] found on instance (allowed, but unusual)." }

/-- Checks the declared constraints. -/
def checkConstraints (auditor : Auditor) (league : Json) (report : Report) :
    Except Fault Report :=
  match league.field "constraints" with
  | .arr docs => docs.zipIdx.foldlM (checkConstraint auditor) report
  | _ => .ok (report.addWarning noConstraints)

/-- An entry about the references of a fixture. -/
def reference (fixture message : String) (more : List (String × Json) := [])
    (action : Option String := none) : Entry :=
  ⟨"ReferentialIntegrity", message, .obj (("fixtureId", .str fixture) :: more), action⟩

/-- Warnings about participants that are no declared teams and stand for none either. -/
def teamWarnings (index : Index) (fixture : String) (participants : List String) : List Entry :=
  if index.teams.isEmpty then []
  else
    (participants.filter fun team =>
      (index.teams.lookup team).isNone && !isPlaceholder team).map fun team =>
        reference fixture s!"Fixture '{fixture}' references unknown team '{team}'"
          [("teamId", .str team)]

/-- Warnings about a home or an away team that does not take part. -/
def sideWarnings (fixture : String) (doc : Json) (participants : List String) : List Entry :=
  ["homeTeamId", "awayTeamId"].filterMap fun key =>
    let side := doc.field key
    if side.isNull || participants.contains side.sealedText then none
    else
      some (reference fixture
        s!"Fixture '{fixture}' {key} '{side.sealedText}' is not one of its participants")

/-- Errors about a fixture that is locked to a venue that nobody declares. -/
def lockErrors (index : Index) (fixture : String) (doc : Json) : List Entry :=
  let locked := doc.field "lockedVenueId"
  let venue := locked.sealedText
  if locked.isNull || (index.venues.lookup venue).isSome then []
  else
    [reference fixture s!"Fixture '{fixture}' is locked to unknown venue '{venue}'"
      [("venueId", .str venue)] (some "Declare the venue or remove lockedVenueId.")]

/-- Checks the references of one fixture. -/
def checkFixture (index : Index) (report : Report) (fixture : String × Json) :
    Except Fault Report := do
  let (id, doc) := fixture
  let participants ← index.participants id
  let count := participants.length
  let few :=
    if count < 2 then
      [reference id s!"Fixture '{id}' has {count} participant(s), expected at least 2"]
    else []
  .ok (report.extend (lockErrors index id doc)
    (few ++ teamWarnings index id participants ++ sideWarnings id doc participants))

/-- Checks the references between entities. -/
def checkReferences (index : Index) (report : Report) : Except Fault Report := do
  let report := report.addWarnings (index.issues.map fun issue =>
    { check := "MalformedEntry", message := issue.message })
  .ok ((← index.fixtures.foldlM (checkFixture index) report).markPassed "ReferentialIntegrity")

/-- What the instance holds. -/
def details (index : Index) (league : Json) : List (String × Json) :=
  let count (n : Nat) : Json := .int n
  [("instanceId", league.field "id"),
    ("objectiveCount", count (league.field "objectives").items.length),
    ("constraintCount", count (league.field "constraints").items.length),
    ("teamCount", count index.teams.length), ("venueCount", count index.venues.length),
    ("fixtureCount", count index.fixtures.length), ("timezone", .str index.zone.name)]

end InstanceAudit

namespace Auditor

/-- Audits an instance. -/
def auditInstance (auditor : Auditor) (league : Json) : Except Fault Report := do
  let report := auditor.report "Instance"
  if !league.isObject then
    .ok (report.addError
      { check := "SchemaViolation"
        message := s!"Instance must be a JSON object, got {league.typeName}" })
  else
    let report ← InstanceAudit.checkStructure auditor.schemas league report
    let report ← InstanceAudit.checkObjectives auditor.registry league report
    let report ← InstanceAudit.checkConstraints auditor league report
    let index ← auditor.index league (.obj [])
    let report ← InstanceAudit.checkReferences index report
    .ok (report.setDetails (InstanceAudit.details index league))

end Auditor
end LeagueAudit
