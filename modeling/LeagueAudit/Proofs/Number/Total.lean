import LeagueAudit.Number.Nearest
import Mathlib.Data.List.Perm.Basic

/-!
Sums in exact arithmetic. The values of the terms are added without rounding, and the total is
rounded once; so neither the order of the terms nor the way they are grouped shows.
-/
namespace LeagueAudit

namespace Exact

/-- The sum of two values; infinities of both signs have none. -/
def add : Exact → Exact → Exact
  | finite a, finite b => finite (a + b)
  | finite _, infinite b => infinite b
  | infinite a, finite _ => infinite a
  | infinite a, infinite b => if a = b then infinite a else undefined
  | _, _ => undefined

theorem add_comm (a b : Exact) : a.add b = b.add a := by
  cases a <;> cases b <;> simp only [add, Int.add_comm]
  case infinite.infinite a b => cases a <;> cases b <;> rfl

theorem add_assoc (a b c : Exact) : (a.add b).add c = a.add (b.add c) := by
  rcases a with a | (_ | _) | _ <;> rcases b with b | (_ | _) | _ <;>
    rcases c with c | (_ | _) | _ <;> simp [add, Int.add_assoc]

/-- The double nearest to a value. -/
def nearest : Exact → Float
  | finite steps => stepsFloat steps
  | infinite negative => if negative then -1.0 / 0.0 else 1.0 / 0.0
  | undefined => 0.0 / 0.0

end Exact

/-- The terms added exactly, and rounded once. -/
def exactTotal (terms : List Float) : Float :=
  (terms.foldr (fun x total => (Exact.ofFloat x).add total) (.finite 0)).nearest

theorem exactTotal_eq_of_perm {terms terms' : List Float} (h : terms.Perm terms') :
    exactTotal terms = exactTotal terms' := by
  unfold exactTotal
  rw [h.foldr_eq' fun x _ y _ total => ?_]
  rw [← Exact.add_assoc, ← Exact.add_assoc, Exact.add_comm (.ofFloat x)]

end LeagueAudit
