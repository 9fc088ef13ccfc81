import LeagueAudit.Record.Misfit
import LeagueAudit.Text.Case

/-!
Constraints as an instance declares them. They are read generously: only tags that are neither a
text nor a list make a constraint malformed, and a constraint may lack its rule.
-/
namespace LeagueAudit

/-- A declared constraint. -/
structure Constraint where
  id : Option String
  ruleId : Option String
  /-- A soft constraint costs points, a hard one must hold. -/
  soft : Bool
  selector : Json
  params : Json
  penalty : Json
  priority : Json
  tags : List String

namespace Constraint

/-- What stands for a constraint without any name. -/
def unnamed : String := "<unnamed>"

/-- The name of a constraint in messages: its id, else the rule. -/
def labelOf (id ruleId : Option String) : String :=
  match id.filter (!·.isEmpty), ruleId.filter (!·.isEmpty) with
  | some id, _ => id
  | none, some rule => rule
  | none, none => unnamed

def label (c : Constraint) : String := labelOf c.id c.ruleId

/-- The word for the severity. -/
def severity (c : Constraint) : String := if c.soft then "soft" else "hard"

/-- A name as text without the blanks around it; a blank one is none. -/
def nameOf (value : Json) : Option String :=
  (value.notNull?.map fun v => Text.strip v.text).filter (!·.isEmpty)

/-- Only the word soft, in any case, makes a constraint soft. -/
def isSoft (value : Json) : Bool :=
  let word := if value.truthy then value.text else "hard"
  Text.lower word == "soft"

/-- Tags are a text or a list; null is no tag. -/
def readTags (value : Json) : Except Misfit (List String) :=
  match value with
  | .null => .ok []
  | .str s => .ok [s]
  | .arr items => .ok (items.map Json.text)
  | v =>
    let reason := s!"tags must be a string or a list, got {v.typeName}"
    .error ((Misfit.ofJson (.stated reason) v).below "tags")

/-- The names under which a constraint may declare its rule, the first one present counting. -/
def ruleNames : List String := ["ruleId", "rule", "rule_id"]

/-- Reads a constraint; what is no object reads as an empty one. -/
def read (doc : Json) : Except Misfit Constraint := do
  let tags ← readTags (doc.field "tags")
  .ok
    { id := nameOf (doc.field "id")
      ruleId := nameOf ((ruleNames.findSome? doc.find?).getD .null)
      soft := isSoft (doc.field "type")
      selector := doc.field "selector"
      params := doc.field "params"
      penalty := doc.field "penalty"
      priority := doc.field "priority"
      tags }

/-- What stands for a constraint that cannot be read: all that is known is its id. -/
def malformed (doc : Json) : Constraint :=
  { id := (doc.field "id").notNull?.map Json.text
    ruleId := none, soft := false
    selector := .null, params := .null, penalty := .null, priority := .null, tags := [] }

/-- Why a constraint cannot be read. -/
def misfitText (m : Misfit) : String := Misfit.report "ConstraintSpec" [m]

end Constraint
end LeagueAudit
