import LeagueAudit.Fault
import LeagueAudit.Json.Basic
import LeagueAudit.Text.Order

/-!
The order of values: numbers by value, truth values counting as numbers, texts by characters and
arrays by the first items that differ. Other values have no order, and a list of them can be sorted
only if the sorting never has to compare two that have none.
-/
namespace LeagueAudit

namespace Json

/-- Why two values have no order. -/
def unordered (a b : Json) : Fault :=
  .notComparable
    s!"'<' not supported between instances of '{a.typeName}' and '{b.typeName}'"

mutual

/-- The first value stands before the second. -/
def before : Json → Json → Except Fault Bool
  | str a, str b => .ok (decide (a < b))
  | arr xs, arr ys => itemsBefore xs ys
  | a, b =>
    if a.asCount.isNumber && b.asCount.isNumber then
      .ok (compareNumbers a.asCount b.asCount == some .lt)
    else .error (unordered a b)

/-- The first items that differ decide; a list stands before those that it begins. -/
def itemsBefore : List Json → List Json → Except Fault Bool
  | [], ys => .ok !ys.isEmpty
  | _ :: _, [] => .ok false
  | x :: xs, y :: ys => if x.same y then itemsBefore xs ys else before x y

end

end Json

namespace Sorting

variable {α : Type} (before : α → α → Except Fault Bool)

/-- The length of the run that goes on: a rising one while no item stands before the one in front of
it, a falling one while every item does. -/
def runLength (falling : Bool) (previous : α) : List α → Except Fault Nat
  | [] => .ok 0
  | x :: rest => do
    if (← before x previous) == falling then .ok ((← runLength falling x rest) + 1) else .ok 0

/-- Whether the run at the front falls, and its length. -/
def firstRun : List α → Except Fault (Bool × Nat)
  | x :: y :: rest => do
    let falling ← before y x
    .ok (falling, (← runLength before falling y rest) + 2)
  | xs => .ok (false, xs.length)

/-- The place of an item among sorted ones, found by halving: after those that it does not stand
before. The place lies between `low` and `low + room`. -/
def placeOf (x : α) (sorted : Array α) (low room fuel : Nat) : Except Fault Nat := do
  match fuel with
  | 0 => .ok low
  | fuel + 1 =>
    if room = 0 then .ok low
    else
      let middle := low + room / 2
      match sorted[middle]? with
      | none => .ok low
      | some y =>
        if ← before x y then placeOf x sorted low (room / 2) fuel
        else placeOf x sorted (middle + 1) (room - room / 2 - 1) fuel

/-- Puts an item in its place among sorted ones. -/
def insert (sorted : Array α) (x : α) : Except Fault (Array α) := do
  let place ← placeOf before x sorted 0 sorted.size (sorted.size + 1)
  .ok (sorted.toList.take place ++ x :: sorted.toList.drop place).toArray

/-- Sorts items, those that are equal keeping their order. A comparison that fails ends it. -/
def sort (items : List α) : Except Fault (List α) := do
  let (falling, length) ← firstRun before items
  let run := items.take length
  let run := if falling then run.reverse else run
  .ok (← (items.drop length).foldlM (insert before) run.toArray).toList

end Sorting
end LeagueAudit
