import LeagueAudit.Number.Exact
import LeagueAudit.Text.Case
import LeagueAudit.Text.Class

/-!
Text patterns: sets of characters, places and their combinations. A character counts by its code, so
a pattern may name codes that no text holds.
-/
namespace LeagueAudit

/-- How letter case counts: as it is written, or not at all for the letters of ASCII or for all. -/
inductive Folding where
  | exact | ascii | full
  deriving DecidableEq, Repr

/-- The small letter of a character. -/
def Folding.lower : Folding → Char → Char
  | exact, c => c
  | ascii, c => c.toLower
  | full, c => Text.lowerOne c

/-- The characters that count as the given one. -/
def Folding.kin : Folding → Char → List Char
  | exact, c => [c]
  | ascii, c => if c.isAlpha then [c.toLower, c.toUpper] else [c]
  | full, c => Text.caseKin c

/-- A class of characters. -/
inductive CharClass where
  | digit | word | blank
  deriving DecidableEq, Repr

def isAsciiBlank (c : Char) : Bool := c == ' ' || (9 ≤ c.toNat && c.toNat ≤ 13)

/-- A character is in a class, or with `ascii` in its part within ASCII. -/
def CharClass.has (ascii : Bool) : CharClass → Char → Bool
  | digit, c => if ascii then c.isDigit else (Text.decimalValue? c).isSome
  | word, c => if ascii then c.isAlphanum || c == '_' else Text.isWord c
  | blank, c => if ascii then isAsciiBlank c else Text.isBlank c

/-- A part of a set of characters. -/
inductive CharItem where
  | range (first last : Nat)
  | ofClass (kind : CharClass) (ascii negated : Bool)
  deriving DecidableEq, Repr

/-- An item has a character, of which `kin` are the characters that count as it. -/
def CharItem.has (kin : List Char) (c : Char) : CharItem → Bool
  | range first last => kin.any fun d => first ≤ Text.codeOf d && Text.codeOf d ≤ last
  | ofClass kind ascii negated => kind.has ascii c != negated

/-- A set of characters. -/
structure CharSet where
  items : List CharItem
  negated : Bool := false
  folding : Folding := .exact
  deriving DecidableEq, Repr

def CharSet.has (s : CharSet) (c : Char) : Bool :=
  s.items.any (CharItem.has (s.folding.kin c) c) != s.negated

/-- Every character but the line feed. -/
def CharSet.line : CharSet := ⟨[.range 10 10], true, .exact⟩

/-- Every character. -/
def CharSet.all : CharSet := ⟨[], true, .exact⟩

/-- A place in a text. -/
inductive Place where
  | textStart
  | lineStart
  | textEnd
  /-- The end of the text or the place before a line feed that ends it. -/
  | lastLineEnd
  | lineEnd
  /-- Exactly one of the neighbours is a character of a word, or with `negated` both or none are;
  an empty text has no such place. -/
  | wordEdge (ascii negated : Bool)
  deriving DecidableEq, Repr

/-- How many characters a pattern takes, at least and at most. -/
structure Width where
  least : Nat
  most : Nat
  deriving DecidableEq, Repr

/-- Which number of repetitions is tried first, or that only the largest possible one counts. -/
inductive Manner where
  | manyFirst | fewFirst | possessive
  deriving DecidableEq, Repr

/-- A pattern. -/
inductive Pattern where
  | empty
  | one (set : CharSet)
  | cat (a b : Pattern)
  | alt (a b : Pattern)
  /-- What the pattern takes is remembered under a number. -/
  | group (number : Nat) (p : Pattern)
  /-- What a group took, once more. -/
  | again (number : Nat) (folding : Folding) (width : Width)
  /-- At least `least` and, if there is a bound, at most `most` times. -/
  | rep (p : Pattern) (least : Nat) (most : Option Nat) (manner : Manner)
  /-- The first match of a pattern, and no other one. -/
  | atomic (p : Pattern)
  | here (place : Place)
  /-- The pattern matches after or before a place, without taking anything. -/
  | look (behind negated : Bool) (p : Pattern)
  /-- One pattern if a group took something, else another. -/
  | ifGroup (number : Nat) (yes no : Pattern)
  deriving Repr

namespace Width

/-- Larger widths are not told apart. -/
def limit : Nat := twoTo 64

def exactly (n : Nat) : Width := ⟨n, n⟩

def bounded (w : Width) : Width := ⟨min w.least limit, min w.most limit⟩

def add (a b : Width) : Width := bounded ⟨a.least + b.least, a.most + b.most⟩

def either (a b : Width) : Width := ⟨min a.least b.least, max a.most b.most⟩

def times (w : Width) (least : Nat) (most : Option Nat) : Width :=
  let upper :=
    match most with
    | some m => w.most * m
    | none => if w.most = 0 then 0 else limit
  bounded ⟨w.least * least, upper⟩

end Width

namespace Pattern

/-- How many characters a pattern takes. -/
def width : Pattern → Width
  | empty => .exactly 0
  | one _ => .exactly 1
  | cat a b => a.width.add b.width
  | alt a b => a.width.either b.width
  | group _ p => p.width
  | again _ _ w => w
  | rep p least most _ => p.width.times least most
  | atomic p => p.width
  | here _ => .exactly 0
  | look _ _ _ => .exactly 0
  | ifGroup _ yes no => yes.width.either no.width

/-- The largest width of a pattern that is looked for before a place. -/
def widthLimit : Nat := twoTo 32 - 1

/-- Patterns that are looked for before a place take a fixed number of characters. -/
def fixedBehind : Pattern → Bool
  | cat a b => a.fixedBehind && b.fixedBehind
  | alt a b => a.fixedBehind && b.fixedBehind
  | group _ p => p.fixedBehind
  | rep p _ _ _ => p.fixedBehind
  | atomic p => p.fixedBehind
  | look behind _ p =>
    (!behind || (p.width.least == p.width.most && decide (p.width.least ≤ widthLimit))) &&
      p.fixedBehind
  | ifGroup _ yes no => yes.fixedBehind && no.fixedBehind
  | _ => true

/-- A pattern repeats a part. -/
def repeats : Pattern → Bool
  | cat a b => a.repeats || b.repeats
  | alt a b => a.repeats || b.repeats
  | group _ p => p.repeats
  | rep _ _ _ _ => true
  | atomic p => p.repeats
  | look _ _ p => p.repeats
  | ifGroup _ yes no => yes.repeats || no.repeats
  | _ => false

end Pattern
end LeagueAudit
