import LeagueAudit.Constraint
import LeagueAudit.Json.Listing
import LeagueAudit.Penalty.Parser
import LeagueAudit.Registry.Basic
import LeagueAudit.Report.Basic
import LeagueAudit.Rule.Catalog
import LeagueAudit.Selector.Parser
import LeagueAudit.Selector.Scope

/-!
Evaluating constraints: a constraint is checked as declared, its rule runs on the index limited to
its selector, and for a soft constraint the outcome is priced. What is wrong with one constraint is
recorded in its own evaluation.
-/
namespace LeagueAudit

/-- How an evaluation ended. -/
inductive Status where
  | ok
  | violated
  /-- The rule is not implemented. -/
  | unchecked
  /-- The constraint cannot be evaluated as declared. -/
  | invalid
  /-- The rule failed. -/
  | failed
  deriving DecidableEq, Repr

def Status.name : Status → String
  | ok => "ok"
  | violated => "violated"
  | unchecked => "unchecked"
  | invalid => "invalid"
  | failed => "error"

/-- The evaluation of one constraint. -/
structure Evaluation where
  constraint : Constraint
  status : Status := .ok
  violations : List Violation := []
  /-- By how much a soft constraint misses its goal. -/
  amount : Float := 0.0
  count : Int := 0
  /-- The points that a soft constraint costs. -/
  penalty : Float := 0.0
  explanation : Json := .null
  errors : List Entry := []
  warnings : List Entry := []
  /-- Whatever else the rule tells. -/
  extra : List (String × Json) := []
  /-- The fixtures whose times the rule read; none when it reads no times. -/
  timed : Option (List String) := none
  /-- Why the rule failed. -/
  trouble : Option Trouble := none

namespace Evaluation

/-- The rule ran and its outcome was read. -/
def checked (ev : Evaluation) : Bool := ev.status = .ok || ev.status = .violated

/-- The constraint and its rule, as entries name them. -/
def entitiesOf (c : Constraint) : Json :=
  .obj (("constraintId", .str c.label) :: (c.ruleId.map fun r => [("ruleId", .str r)]).getD [])

def entry (c : Constraint) (check message : String) (action : Option String := none) : Entry :=
  ⟨check, message, entitiesOf c, action⟩

/-- The evaluation of a constraint that cannot be evaluated as declared: one error, and the reason
as its violation. -/
def rejected (c : Constraint) (warnings : List Entry) (reason check message : String)
    (action : Option String := none) : Evaluation :=
  { constraint := c, status := .invalid, violations := [⟨reason, []⟩]
    errors := [entry c check message action], warnings }

/-- The evaluation of a constraint whose rule failed. -/
def faulty (c : Constraint) (warnings : List Entry) (t : Trouble) : Evaluation :=
  { constraint := c, status := .failed
    errors := [entry c "RuleExecution" t.message t.action], warnings, trouble := some t }

/-- The line of a ledger for an evaluation. -/
def scoreLine (ev : Evaluation) : Json :=
  .obj ([("constraintId", .str ev.constraint.label), ("violations", .int ev.count),
      ("penalty", .float ev.penalty)] ++
    (if ev.explanation.truthy then [("explanation", ev.explanation)] else []))

end Evaluation

/-- What a rule handed back, read as an outcome. -/
structure Reading where
  violations : List Violation
  count : Int
  amount : Json
  /-- A price that the rule itself sets. -/
  price : Option Float := none
  explanation : Json := .null
  extra : List (String × Json) := []

namespace Reading

/-- The double of a number, zero for anything else. -/
def numberOf : Json → Except Fault Float
  | .int n => intToFloat n
  | .float x => .ok x
  | _ => .ok 0.0

/-- A count as given, cut to a whole number, else the number of violations. -/
def countOf (given : Json) (violations : List Violation) : Except Fault Int :=
  match given with
  | .int n => .ok n
  | .float x => truncateToInt x
  | _ => .ok violations.length

/-- The violations of a list; anything else lists none. -/
def violationsOf (raw : Json) : Except Fault (List Violation) := raw.items.mapM Violation.ofJson

/-- The first of two members that is there. -/
def either (doc : Json) (key other : String) : Json :=
  ((doc.find? key).orElse fun _ => doc.find? other).getD .null

/-- Reads an outcome given by its fields. -/
def ofFields (members : List (String × Json)) : Except Fault Reading := do
  let extra ← ((members.lookup "meta").getD (.obj [])).memberwise
  let violations ← violationsOf ((members.lookup "violations").getD (.arr []))
  let count ← countOf ((members.lookup "count").getD .null) violations
  .ok
    { violations, count
      amount := (members.lookup "amount").getD (.float 0.0)
      explanation := (members.lookup "explanation").getD .null
      extra }

/-- Reads an object that a rule handed back; it may set a price. -/
def ofObject (doc : Json) : Except Fault Reading := do
  let amount ← numberOf (either doc "amount" "violationAmount")
  let price ←
    if (doc.field "penalty").isNumber then do .ok (some (← numberOf (doc.field "penalty")))
    else .ok none
  let violations ← violationsOf (doc.field "violations")
  let count ← countOf (either doc "count" "violationCount") violations
  .ok { violations, count, amount := .float amount, price, explanation := doc.field "explanation" }

/-- Reads what a rule handed back. -/
def ofReturned : Returned → Except Fault Reading
  | .outcome o =>
    .ok
      { violations := o.violations
        count := (o.count.getD o.violations.length : Nat)
        amount := .float o.amount
        explanation := (o.explanation.map Json.str).getD .null }
  | .fields members => ofFields members
  | .value (.obj members) => ofObject (.obj members)
  | .value v => do
    let violations ← violationsOf v
    .ok { violations, count := violations.length, amount := .float 0.0 }

/-- The amount of a soft constraint: as measured by a soft rule, else the count. -/
def amountFor (r : Reading) (kind : RuleKind) : Except Fault Float :=
  if kind = .soft then numberOf r.amount else intToFloat r.count

/-- The points of a soft constraint: the rule's own price if it measured nothing, else those of the
penalty model. -/
def priceFor (r : Reading) (model : PenaltyModel) (amount : Float) : Except Fault Float :=
  match r.price with
  | some price => do
    .ok (if (← numberOf r.amount) == 0.0 then price else model.priceOf amount)
  | none => .ok (model.priceOf amount)

end Reading

/-- What evaluations need besides the index. -/
structure Engine where
  registry : Option Registry := none
  catalog : Catalog
  /-- A hard constraint without an implementation is an error. -/
  strict : Bool := false
  workers : Int := 1
  /-- How many seconds to wait for a rule when several workers run. -/
  timeout : Option Float := none

namespace Engine

open Evaluation

/-- A constraint names its rule. -/
def withoutRule (c : Constraint) : Evaluation :=
  rejected c [] "Constraint missing ruleId" "InvalidConstraint"
    s!"Constraint '{c.label}' is missing ruleId" (some "Add a ruleId naming a registered rule.")

/-- A warning when a registry does not declare the rule. -/
def registryWarnings (engine : Engine) (c : Constraint) (rule : String) : List Entry :=
  match engine.registry with
  | none => []
  | some registry =>
    if (registry.get? rule).isSome then []
    else
      [entry c "MissingRegistryEntry"
        s!"Rule '{rule}' is not declared in the registry; params not validated"]

/-- What is wrong with the parameters under the contract of the rule. -/
def contractProblems (engine : Engine) (c : Constraint) (rule : String) :
    Except Fault (List String) :=
  match engine.registry with
  | none => .ok []
  | some registry => registry.paramsProblems rule c.params

def contractMessage (rule : String) (problems : List String) : String :=
  let all := String.intercalate "; " problems
  s!"Invalid params for '{rule}': {all}"

/-- A rule without an implementation: unchecked, or invalid for a hard constraint when strict. -/
def withoutImplementation (engine : Engine) (c : Constraint) (warnings : List Entry)
    (rule : String) : Evaluation :=
  let message := s!"No rule implementation found for '{rule}' (type={c.severity})."
  if !c.soft && engine.strict then rejected c warnings message "MissingRule" message
  else
    { constraint := c, status := .unchecked
      warnings := warnings ++ [entry c "MissingRule" s!"{message} Constraint was not checked."] }

/-- The penalty model of a soft constraint; a hard one needs none. -/
def modelOf (c : Constraint) (warnings : List Entry) :
    Except Evaluation (Option PenaltyModel) :=
  if !c.soft then .ok none
  else if c.penalty.isNull then
    .error (rejected c warnings "Missing penalty model" "MissingPenalty"
      s!"Soft constraint '{c.label}' missing penalty model"
      (some "Declare a penalty descriptor such as a linear model."))
  else
    match PenaltyModel.read c.penalty with
    | .ok model => .ok (some model)
    | .error f =>
      .error (rejected c warnings s!"Invalid penalty model: {f.message}" "InvalidPenaltyModel"
        s!"Constraint '{c.label}': {f.message}")

/-- What a failed rule is reported as: in its own words if it foresaw the trouble. -/
def ruleTrouble (c : Constraint) (rule : String) : Fault → Trouble
  | .trouble ⟨.ruleExecution, message, source, action⟩ => ⟨.ruleExecution, message, source, action⟩
  | f =>
    ⟨.ruleExecution,
      s!"Rule '{rule}' failed on constraint '{c.label}': {f.category}: {f.message}", rule, none⟩

/-- The evaluation that the outcome of a rule leads to. -/
def absorb (c : Constraint) (rule : Rule) (model : Option PenaltyModel) (warnings : List Entry)
    (scope : Index) (returned : Returned) : Except Fault Evaluation := do
  let r ← Reading.ofReturned returned
  let status := if r.violations.isEmpty && r.count = 0 then Status.ok else .violated
  let ev : Evaluation :=
    { constraint := c, status, violations := r.violations, count := r.count
      explanation := r.explanation, extra := r.extra, warnings
      timed := if rule.usesTime then some (scope.fixtures.ids.mergeSort (· ≤ ·)) else none }
  match model with
  | none => .ok ev
  | some model =>
    let amount ← r.amountFor rule.kind
    .ok { ev with amount, penalty := ← r.priceFor model amount }

/-- Runs the rule of a constraint on the scoped index. -/
def runRule (c : Constraint) (ruleId : String) (rule : Rule) (model : Option PenaltyModel)
    (warnings : List Entry) (scope : Index) : Except Fault Evaluation :=
  let run := rule.run ⟨if c.params.isObject then c.params else .obj [], scope⟩
  let warnings := warnings ++ run.warnings.map (entry c "RuleWarning")
  match run.result with
  | .ok returned => absorb c rule model warnings scope returned
  | .error .silence => .error .silence
  | .error f => .ok (faulty c warnings (ruleTrouble c ruleId f))

/-- Evaluates a constraint that can be read. -/
def evaluateRead (engine : Engine) (c : Constraint) (index : Index) : Except Fault Evaluation :=
  match c.ruleId with
  | none => .ok (withoutRule c)
  | some ruleId => do
    let warnings := engine.registryWarnings c ruleId
    let problems ← engine.contractProblems c ruleId
    if !problems.isEmpty then
      let message := contractMessage ruleId problems
      .ok (rejected c warnings message "InvalidParams" message)
    else
      match engine.catalog.get? ruleId with
      | none => .ok (engine.withoutImplementation c warnings ruleId)
      | some rule =>
        match Selector.read c.selector with
        | .error f =>
          .ok (rejected c warnings s!"Invalid selector: {f.message}" "InvalidSelector"
            s!"Constraint '{c.label}': {f.message}")
        | .ok selector => do
          let scope ← index.scope selector
          match modelOf c warnings with
          | .error ev => .ok ev
          | .ok model => runRule c ruleId rule model warnings scope

/-- The evaluation of a constraint that cannot be read. -/
def malformed (doc : Json) (m : Misfit) : Evaluation :=
  let c := Constraint.malformed doc
  rejected c [] "Malformed constraint: 1 field error(s)" "InvalidConstraint"
    s!"Constraint '{c.label}' is malformed: {Constraint.misfitText m}"

/-- Evaluates one constraint document. -/
def evaluate (engine : Engine) (index : Index) (doc : Json) : Except Fault Evaluation :=
  match Constraint.read doc with
  | .ok c => engine.evaluateRead c index
  | .error m => .ok (malformed doc m)

/-- Several constraints are waited for only so long when several workers run. -/
def waitsFor? (engine : Engine) (docs : List Json) : Option Float :=
  if engine.workers ≤ 1 || docs.length < 2 then none else engine.timeout

/-- The evaluation of a constraint whose rule did not return in time. -/
def timedOut (seconds : Float) (doc : Json) : Evaluation :=
  let c :=
    match Constraint.read doc with
    | .ok c => c
    | .error _ => Constraint.malformed doc
  let rule := c.ruleId.getD "None"
  faulty c []
    ⟨.ruleExecution,
      s!"Rule '{rule}' timed out after {amountText seconds}s " ++ s!"on constraint '{c.label}'",
      c.ruleId.getD "",
      some "Raise rule_timeout_seconds or narrow the constraint selector."⟩

/-- Evaluates one of several constraints. -/
def evaluateAmong (engine : Engine) (index : Index) (docs : List Json) (doc : Json) :
    Except Fault Evaluation :=
  match engine.evaluate index doc, engine.waitsFor? docs with
  | .error .silence, some seconds => .ok (timedOut seconds doc)
  | result, _ => result

/-- Evaluates constraints in order. -/
def evaluateAll (engine : Engine) (index : Index) (docs : List Json) :
    Except Fault (List Evaluation) := docs.mapM (engine.evaluateAmong index docs)

/-- The evaluations before the first fault. -/
def evaluatedBefore (engine : Engine) (index : Index) (docs : List Json) : List Evaluation :=
  let results := docs.map (engine.evaluateAmong index docs)
  (results.takeWhile (·.isOk)).filterMap (·.toOption)

end Engine
end LeagueAudit
