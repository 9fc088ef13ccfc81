import LeagueAudit.Fault
import LeagueAudit.Schema.Basic

/-!
The problems of a value, in the order in which they are found. Each is looked for only when it is
asked for, so a search that is content with the first one does not meet what comes after it.
-/
namespace LeagueAudit

/-- Problems in order, up to the end or to a fault that ends the search. -/
inductive Found where
  | clear
  | fault (f : Fault)
  | more (p : Problem) (rest : Unit → Found)

namespace Found

def one (p : Problem) : Found := more p fun _ => clear

/-- A single problem with a message, if a condition holds. -/
@[macro_inline] def when (bad : Bool) (message : String) : Found :=
  if bad then one { message } else clear

/-- The problems of one search and then those of another. -/
def andThen : Found → (Unit → Found) → Found
  | clear, next => next ()
  | fault f, _ => fault f
  | more p rest, next => more p fun _ => (rest ()).andThen next

/-- The problems of all items in turn. -/
def each {α : Type} (items : List α) (search : α → Found) : Found :=
  match items with
  | [] => clear
  | x :: rest => (search x).andThen fun _ => each rest search

/-- The problems of what may not be there. -/
def ofExcept {α : Type} (e : Except Fault α) (search : α → Found) : Found :=
  match e with
  | .ok x => search x
  | .error f => fault f

/-- The problems of a part, seen from the whole. -/
def inside (step : Step) : Found → Found
  | clear => clear
  | fault f => fault f
  | more p rest => more (p.inside step) fun _ => (rest ()).inside step

/-- All problems, unless a fault ends the search. -/
def all : Found → Except Fault (List Problem)
  | clear => .ok []
  | fault f => .error f
  | more p rest => (rest ()).all.map (p :: ·)

/-- The first problem. -/
def first? : Found → Except Fault (Option Problem)
  | clear => .ok none
  | fault f => .error f
  | more p _ => .ok (some p)

/-- There is no problem. -/
def isClear (found : Found) : Except Fault Bool := found.first?.map Option.isNone

end Found
end LeagueAudit
