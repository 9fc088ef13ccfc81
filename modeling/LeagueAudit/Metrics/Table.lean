import LeagueAudit.Json.Listing
import LeagueAudit.Metrics.Column

/-!
Tables: columns of the same height under names. They are made of rows that name their cells, of rows
in the order of the names, or of columns, which may be given by lists, by the names of rows, or by
one value for all rows.
-/
namespace LeagueAudit

/-- A table by the names of its columns. -/
abbrev Table := List (String × Column)

namespace Table

/-- The column of a name. -/
def column (t : Table) (name : String) : Column := (t.lookup name).getD ⟨.mixed, []⟩

/-- The cells of rows that name their cells. -/
def cellsOfRecords (names : List String) (rows : List (List (String × Json))) : List (List Json) :=
  names.map fun name => rows.map fun row => (row.lookup name).getD Column.missing

/-- A row that names its cells. -/
def recordOf : Json → Except Fault (List (String × Json))
  | .obj members => .ok members
  | row => do .ok (Json.setMembers [] ((← row.allPairs).filterMap fun
      | (.str k, v) => some (k, v)
      | _ => none))

/-- The cells of a row in the order of the names. -/
def lineOf (row : Json) : Except Fault (List Json) :=
  match row.listed with
  | .ok cells => .ok cells
  | .error _ => .error (.wrongType s!"object of type '{row.typeName}' has no len()")

/-- The cells of rows in the order of the names; the longest row has a cell for each name. -/
def cellsOfLines (names : List String) (rows : List (List Json)) :
    Except Fault (List (List Json)) :=
  let width := (rows.map List.length).foldl max 0
  if width != names.length then
    .error (.wrongValue s!"{names.length} columns passed, passed data had {width} columns")
  else .ok ((List.range width).map fun i => rows.map fun row => row.getD i .null)

/-- How many rows columns have, and by which names if they name them. -/
def heightOf (columns : List Json) : Except Fault (Nat × List String) :=
  let lengths := (columns.filter Json.isArray).map fun c => c.items.length
  let records := columns.filter Json.isObject
  let keys := (records.flatMap Json.members).foldl (fun acc (k, _) => Json.setMember k () acc) []
  match lengths, records with
  | [], [] =>
    if columns.isEmpty then .ok (0, [])
    else .error (.wrongValue "If using all scalar values, you must pass an index")
  | [], _ => .ok (keys.length, keys.map (·.1))
  | height :: rest, [] =>
    if rest.all (· == height) then .ok (height, [])
    else .error (.wrongValue "All arrays must be of the same length")
  | _, _ => .error (.wrongValue "Mixing dicts with non-Series may lead to ambiguous ordering.")

/-- The cells of a column. -/
def cellsOfColumn (height : Nat) (keys : List String) : Json → List Json
  | .arr items => items
  | .obj members => keys.map fun key => (members.lookup key).getD Column.missing
  | cell => List.replicate height cell

/-- The cells of columns by their names. -/
def cellsOfColumns (names : List String) (members : List (String × Json)) :
    Except Fault (List (List Json)) := do
  let columns := names.map fun name => (members.lookup name).getD Column.missing
  let (height, keys) ← heightOf (columns.filter fun c => !Column.isMissing c)
  .ok (columns.map (cellsOfColumn height keys))

/-- The cells of a document under some names. -/
def cellsOf (names : List String) : Json → Except Fault (List (List Json))
  | .obj members => cellsOfColumns names members
  | .arr (.obj first :: rest) => do
    .ok (cellsOfRecords names (← (.obj first :: rest).mapM recordOf))
  | .arr (.arr first :: rest) => do
    cellsOfLines names (← (.arr first :: rest).mapM lineOf)
  | .arr cells => do
    let _ ← Column.ofCells cells
    .error (.wrongValue s!"Shape of passed values is ({cells.length}, 1)")
  | _ => .error (.wrongValue "the document is no table")

/-- The table of a document. One that is not truthy has no rows. -/
def ofJson (names : List String) (doc : Json) : Except Fault Table := do
  let cells ← if doc.truthy then cellsOf names doc else .ok (names.map fun _ => [])
  .ok (names.zip (← cells.mapM Column.ofCells))

end Table
end LeagueAudit
