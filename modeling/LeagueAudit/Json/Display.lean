import LeagueAudit.Json.Basic
import LeagueAudit.Text.Quoted

/-!
The text of a value inside messages. Values of a sealed document, which rules may read but not
change, show their arrays in parentheses and their objects behind the word for a read-only view.
-/
namespace LeagueAudit.Json

/-- Texts joined by commas. -/
def joined (parts : List String) : String := String.intercalate ", " parts

mutual

/-- The text of a value inside another one: texts are quoted. -/
def inspect (sealed : Bool) : Json → String
  | null => "None"
  | bool true => "True"
  | bool false => "False"
  | int n => toString n
  | float x => floatText x
  | str s => Text.quoted s
  | arr items =>
    let parts := inspectItems sealed items
    if sealed then
      match parts with
      | [one] => s!"({one},)"
      | _ => s!"({joined parts})"
    else s!"[{joined parts}]"
  | obj members =>
    let body := "\x7b" ++ joined (inspectMembers sealed members) ++ "\x7d"
    if sealed then s!"mappingproxy({body})" else body

def inspectItems (sealed : Bool) : List Json → List String
  | [] => []
  | x :: rest => inspect sealed x :: inspectItems sealed rest

def inspectMembers (sealed : Bool) : List (String × Json) → List String
  | [] => []
  | (k, v) :: rest => s!"{Text.quoted k}: {inspect sealed v}" :: inspectMembers sealed rest

end

/-- The text of a value: a text stands for itself. -/
def display (sealed : Bool) : Json → String
  | str s => s
  | j => inspect sealed j

/-- The text of a value of an open document. -/
def text (j : Json) : String := j.display false

/-- The text of a value of a sealed document. -/
def sealedText (j : Json) : String := j.display true

end LeagueAudit.Json
