import LeagueAudit.Schedule.Index

/-!
Rules: what a rule may read, and what it hands back. A rule lists violations; a soft one also says
by how much the schedule misses the goal.
-/
namespace LeagueAudit

/-- One finding of a rule, with the ids of the entities involved. -/
structure Violation where
  message : String
  entities : List String := []
  deriving DecidableEq, Repr

/-- Reads a finding: a text, an object with a message and entities, or any value by its text. -/
def Violation.ofJson (value : Json) : Except Fault Violation :=
  match value with
  | .str s => .ok ⟨s, []⟩
  | .obj _ => do
    let message := ((value.field "message").orElse value).text
    match value.field "entities" with
    | .str "" => .ok ⟨message, []⟩
    | .str s => .ok ⟨message, [s]⟩
    | entities => do .ok ⟨message, (← entities.listedOrNone).map Json.text⟩
  | v => .ok ⟨v.text, []⟩

def Violation.toJson (v : Violation) : Json :=
  .obj [("message", .str v.message), ("entities", .arr (v.entities.map Json.str))]

/-- What a rule finds. -/
structure Outcome where
  violations : List Violation := []
  /-- By how much a goal is missed, before pricing. -/
  amount : Float := 0.0
  /-- How often it is missed; none means once for each violation. -/
  count : Option Nat := none
  explanation : Option String := none

/-- What a rule hands back: an outcome, the fields of one, or any other value. -/
inductive Returned where
  | outcome (o : Outcome)
  | fields (members : List (String × Json))
  | value (v : Json)

/-- What a rule reads: its parameters and the index limited to what its constraint is about. -/
structure RuleContext where
  params : Json
  index : Index

namespace RuleContext

/-- A parameter; null is as good as absent. -/
def param? (ctx : RuleContext) (name : String) : Option Json := (ctx.params.field name).notNull?

/-- A numeric parameter; anything else, or a number without digits, gives the default. -/
def number (ctx : RuleContext) (name : String) (default : Float) : Except Fault Float :=
  match ctx.params.field name with
  | .int n => intToFloat n
  | .float x => .ok (if x.isFinite then x else default)
  | _ => .ok default

end RuleContext

/-- One run of a rule: the warnings it gave, and what it handed back or why it failed. -/
structure RuleRun where
  warnings : List String := []
  result : Except Fault Returned

/-- A run without warnings. -/
def RuleRun.silent (result : Except Fault Outcome) : RuleRun := ⟨[], result.map .outcome⟩

/-- Hard rules count violations, soft ones measure; other kinds are counted too. -/
inductive RuleKind where
  | hard | soft
  | other (name : String)
  deriving DecidableEq, Repr

def RuleKind.name : RuleKind → String
  | hard => "hard"
  | soft => "soft"
  | other name => name

def RuleKind.ofName (name : String) : RuleKind :=
  if name == "hard" then hard else if name == "soft" then soft else other name

/-- A rule. -/
structure Rule where
  id : String
  kind : RuleKind := .hard
  description : String := ""
  /-- Whether the rule reads the times of assignments. -/
  usesTime : Bool := true
  /-- What implements the rule. -/
  maker : String := "Rule"
  run : RuleContext → RuleRun

end LeagueAudit
