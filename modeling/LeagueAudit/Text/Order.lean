/-!
Lists of texts in order of code points.
-/
namespace LeagueAudit.Text

/-- Texts in order. -/
def sorted (texts : List String) : List String := texts.mergeSort fun a b => decide (a ≤ b)

/-- Texts in order, each once. -/
def sortedSet (texts : List String) : List String := (sorted texts).eraseDups

/-- Texts joined by commas. -/
def commaJoined (texts : List String) : String := String.intercalate ", " texts

end LeagueAudit.Text
