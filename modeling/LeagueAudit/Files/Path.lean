/-!
Paths: the steps from a starting folder. Empty steps and single dots say nothing and are dropped;
double dots are kept, since only the files tell where they lead.
-/
namespace LeagueAudit

/-- A path, from a root or from the working folder. -/
structure Path where
  /-- What stands before the steps: nothing, or the slash of the root. Two slashes are a root of
  their own, more of them are one. -/
  root : String
  parts : List String
  deriving DecidableEq, Repr, Inhabited

namespace Path

/-- The steps that a text names. -/
def partsOf (text : String) : List String :=
  ((text.toList.splitOn '/').map String.ofList).filter fun part => !part.isEmpty && part != "."

/-- The root that a text starts with. -/
def rootOf (text : String) : String :=
  match (text.toList.takeWhile (· == '/')).length with
  | 0 => ""
  | 2 => "//"
  | _ => "/"

/-- Reads a path. -/
def ofText (text : String) : Path := ⟨rootOf text, partsOf text⟩

/-- A path from a root. -/
def absolute (p : Path) : Bool := !p.root.isEmpty

/-- The text of a path; a dot stands for the working folder. -/
def text (p : Path) : String :=
  if !p.absolute && p.parts.isEmpty then "."
  else p.root ++ String.intercalate "/" p.parts

/-- The longest step, in bytes. -/
def stepLimit : Nat := 255

/-- A step is longer than the name of any file. -/
def isLongStep (part : String) : Bool := part.utf8ByteSize > stepLimit

/-- A path one step further. -/
def child (p : Path) (name : String) : Path := { p with parts := p.parts ++ [name] }

/-- The path of the folder that holds the last step. -/
def parent (p : Path) : Path := { p with parts := p.parts.dropLast }

/-- The paths of all folders on the way, and the path itself. -/
def stages (p : Path) : List Path :=
  (List.range p.parts.length).map fun i => { p with parts := p.parts.take (i + 1) }

/-- The path without the steps that a following double dot takes back. -/
def withoutDetours (p : Path) : Path :=
  { p with parts := (p.parts.foldl step []).reverse }
where
  step (back : List String) (part : String) : List String :=
    match back with
    | last :: rest => if part == ".." && last != ".." then rest else part :: back
    | [] => if part == ".." && p.absolute then [] else [part]

/-- The last step. -/
def name (p : Path) : String := p.parts.getLast?.getD ""

/-- The end of the name from its last dot on, unless the dot stands first or last. -/
def suffix (p : Path) : String :=
  let cs := p.name.toList
  let after := cs.reverse.takeWhile (· != '.')
  if after.isEmpty || after.length + 1 ≥ cs.length then ""
  else String.ofList ('.' :: after.reverse)

/-- The order of steps, one by one: what is inside a folder comes after the folder. -/
def stepsNotAfter : List String → List String → Bool
  | [], _ => true
  | _ :: _, [] => false
  | a :: as, b :: bs => a < b || (a == b && stepsNotAfter as bs)

end Path
end LeagueAudit
