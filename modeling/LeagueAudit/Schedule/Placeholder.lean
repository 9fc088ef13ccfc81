import LeagueAudit.Text.Class

/-!
Participants that stand for a team decided later in the competition, such as a winner or a seed.
-/
namespace LeagueAudit

/-- The words that a placeholder starts with. -/
def placeholderWords : List String :=
  ["winner", "loser", "seed", "runnerup", "runner-up", "runner_up", "runner up", "tbd", "tba",
    "bye", "placeholder"]

/-- A character is a letter in any case: the letters that share a case with a Latin one count. -/
def sameLetter (letter c : Char) : Bool :=
  c.toLower == letter ||
    (letter == 'i' && (c.toNat == 0x130 || c.toNat == 0x131)) ||
    (letter == 's' && c.toNat == 0x17f) ||
    (letter == 'k' && c.toNat == 0x212a)

/-- What follows a word at the start of a text. -/
def afterWord? : List Char → List Char → Option (List Char)
  | [], rest => some rest
  | w :: word, c :: rest => if sameLetter w c then afterWord? word rest else none
  | _ :: _, [] => none

/-- No character of a word follows. -/
def atWordEnd : List Char → Bool
  | [] => true
  | c :: _ => !Text.isWord c

/-- A participant starts with one of the words. -/
def isPlaceholder (participant : String) : Bool :=
  placeholderWords.any fun word => (afterWord? word.toList participant.toList).any atWordEnd

end LeagueAudit
