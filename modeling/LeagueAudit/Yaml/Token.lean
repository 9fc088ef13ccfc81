/-!
The tokens of YAML documents: brackets and marks as they are written, blocks by where they start and
end, and the texts of scalars.
-/
namespace LeagueAudit.Yaml

/-- A token. -/
inductive Token where
  | blockSequence | blockMapping | blockEnd
  | openBracket | closeBracket | openBrace | closeBrace
  /-- The mark before an item of a block. -/
  | entry
  /-- The comma between brackets. -/
  | comma
  | key | value
  | mention (name : String)
  | anchor (name : String)
  /-- The type of a node: a short name for what its name begins with, and the rest of it. -/
  | tag (handle : Option String) (ending : String)
  | scalar (plain : Bool) (text : String)
  | documentStart | documentEnd
  /-- The number of the language's version. -/
  | version (major : Nat)
  /-- Declares a short name. -/
  | handle (name : String) (meaning : String)
  | directive
  deriving DecidableEq, Repr

/-- A token in its line. -/
structure Lexeme where
  line : Nat
  token : Token

end LeagueAudit.Yaml
