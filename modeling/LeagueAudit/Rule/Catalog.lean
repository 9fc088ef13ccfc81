import LeagueAudit.Rule.Basic
import LeagueAudit.Text.Order

/-!
The catalog of implemented rules. A rule is known by its id and by aliases, and no name is taken
twice.
-/
namespace LeagueAudit

/-- Rules by id, in the order of their registration, and aliases with the ids they stand for. -/
structure Catalog where
  rules : List (String × Rule) := []
  aliases : List (String × String) := []

/-- Why a rule cannot be registered. -/
inductive CatalogFault where
  | unnamed (maker : String)
  | taken (name : String)
  deriving DecidableEq, Repr

namespace CatalogFault

def message : CatalogFault → String
  | unnamed maker => s!"Rule {maker} has no rule_id"
  | taken name => s!"Duplicate rule registration for '{name}'"

def action : CatalogFault → Option String
  | unnamed _ => none
  | taken _ => some "Each ruleId may be implemented exactly once."

def trouble (f : CatalogFault) : Trouble :=
  ⟨.registry, f.message, "RuleCatalog.register", f.action⟩

end CatalogFault

/-- One call: a rule is to be known by its id and by aliases. -/
structure Registration where
  rule : Rule
  aliases : List String := []

/-- The names that a call asks for. -/
def Registration.names (call : Registration) : List String := call.rule.id :: call.aliases

namespace Catalog

/-- A name is an id or an alias already. -/
def isTaken (c : Catalog) (name : String) : Bool :=
  (c.rules.lookup name).isSome || (c.aliases.lookup name).isSome

/-- Changes of a catalog in place, which may be refused; what was written before stays. -/
abbrev Change := ExceptT CatalogFault (StateM Catalog)

/-- The outcome of a change, and the catalog behind it. -/
def Change.on {α : Type} (change : Change α) (c : Catalog) : Except CatalogFault α × Catalog :=
  change.run.run c

def refuseTaken (name : String) : Change Unit := do
  if (← get).isTaken name then throw (.taken name)

def setRule (rule : Rule) (c : Catalog) : Catalog :=
  { c with rules := Json.setMember rule.id rule c.rules }

/-- One more name for an id. -/
def setAlias (id name : String) (c : Catalog) : Catalog :=
  { c with aliases := Json.setMember name id c.aliases }

/-- Carries a call out: all of its names are checked before anything is written. -/
def enter (call : Registration) : Change Unit := do
  if call.rule.id.isEmpty then throw (.unnamed call.rule.maker)
  call.names.forM refuseTaken
  modify (setRule call.rule)
  call.aliases.forM fun name => modify (setAlias call.rule.id name)

/-- The catalog after a call, and why the call was refused. -/
def submit (c : Catalog) (call : Registration) : Catalog × Option CatalogFault :=
  match (enter call).on c with
  | (.ok (), after) => (after, none)
  | (.error f, after) => (after, some f)

/-- Registers a rule under its id and aliases, of which none may be taken. -/
def register (c : Catalog) (rule : Rule) (aliases : List String) : Except CatalogFault Catalog :=
  match c.submit { rule, aliases } with
  | (after, none) => .ok after
  | (_, some f) => .error f

/-- The id that a name stands for: of what it is an alias, or itself. -/
def idOf (c : Catalog) (name : String) : String := (c.aliases.lookup name).getD name

/-- The rule of a name. -/
def get? (c : Catalog) (name : String) : Option Rule :=
  if name.isEmpty then none else c.rules.lookup (c.idOf name)

def has (c : Catalog) (name : String) : Bool := (c.get? name).isSome

/-- The ids of the rules in order. -/
def ids (c : Catalog) : List String := Text.sorted (c.rules.map (·.1))

end Catalog
end LeagueAudit
