import LeagueAudit.Pattern.Basic

/-!
Where patterns match. A match is looked for from a place of the text on, and what follows the
pattern decides whether a way to match it is good; else the next way is tried. Of all the ways the
first good one counts.
-/
namespace LeagueAudit

/-- How far a match has come: the place in the text and what each group took last. -/
structure Spot where
  place : Nat
  taken : List (Nat × Nat × Nat) := []
  deriving DecidableEq, Repr

/-- What follows a pattern: where it ends from a spot, if it matches there. -/
abbrev Rest := Spot → Option Spot

namespace Spot

/-- Remembers what a group took from a place on. -/
def close (s : Spot) (number start : Nat) : Spot :=
  { s with taken := (number, start, s.place) :: s.taken }

/-- A spot some places further. -/
def moved (s : Spot) (count : Nat) : Spot := { s with place := s.place + count }

end Spot

namespace Place

def isWordAt (text : Array Char) (ascii : Bool) (place : Nat) : Bool :=
  (text[place]?).any (CharClass.word.has ascii)

/-- A word starts or ends at a place. -/
def isEdge (text : Array Char) (ascii : Bool) (place : Nat) : Bool :=
  (place > 0 && isWordAt text ascii (place - 1)) != isWordAt text ascii place

/-- A place of a text is of a kind. -/
def holds (text : Array Char) (place : Nat) : Place → Bool
  | textStart => place == 0
  | lineStart => place == 0 || text[place - 1]? == some '\n'
  | textEnd => place == text.size
  | lastLineEnd =>
    place == text.size || (place + 1 == text.size && text[place]? == some '\n')
  | lineEnd => place == text.size || text[place]? == some '\n'
  | wordEdge ascii negated => isEdge text ascii place != negated && !text.isEmpty

end Place

namespace Pattern

/-- A pattern in a text, seen as a step before what follows. -/
abbrev Move := Spot → Rest → Option Spot

/-- The first of two ways that is good. -/
def orElse (a : Option Spot) (b : Unit → Option Spot) : Option Spot :=
  match a with
  | some s => some s
  | none => b ()

/-- Repeats a step. After the repetitions that are needed, one from the place `last` where the one
before began is not tried: it would take nothing again. -/
def repeated (step : Move) (manyFirst : Bool) (next : Rest) (fuel least : Nat)
    (most : Option Nat) (last : Option Nat) (s : Spot) : Option Spot :=
  match fuel, least with
  | 0, _ => none
  | fuel + 1, least + 1 =>
    step s (repeated step manyFirst next fuel least (most.map (· - 1)) last)
  | fuel + 1, 0 =>
    let more (_ : Unit) : Option Spot :=
      if most == some 0 || last == some s.place then none
      else step s (repeated step manyFirst next fuel 0 (most.map (· - 1)) (some s.place))
    if manyFirst then orElse (more ()) fun _ => next s else orElse (next s) more

/-- Repeats the first way of a step as often as possible. -/
def exhausted (step : Move) (fuel least : Nat) (most : Option Nat) (last : Option Nat)
    (s : Spot) : Option Spot :=
  match fuel, least with
  | 0, _ => some s
  | fuel + 1, least + 1 =>
    match step s some with
    | some t => exhausted step fuel least (most.map (· - 1)) last t
    | none => none
  | fuel + 1, 0 =>
    if most == some 0 || last == some s.place then some s
    else
      match step s some with
      | some t => exhausted step fuel 0 (most.map (· - 1)) (some s.place) t
      | none => some s

/-- The parts of a text from two places on are equal for `count` characters. -/
def sameParts (text : Array Char) (folding : Folding) (count first second : Nat) : Bool :=
  (List.range count).all fun i =>
    match text[first + i]?, text[second + i]? with
    | some a, some b => folding.lower a == folding.lower b
    | _, _ => false

/-- Where a look at a place begins. -/
def lookFrom (behind : Bool) (width : Nat) (s : Spot) : Option Spot :=
  if !behind then some s
  else if s.place < width then none
  else some { s with place := s.place - width }

/-- Matches a pattern and what follows it. -/
def run (text : Array Char) : Pattern → Move
  | empty, s, next => next s
  | one set, s, next => if (text[s.place]?).any set.has then next (s.moved 1) else none
  | cat a b, s, next => run text a s fun t => run text b t next
  | alt a b, s, next => orElse (run text a s next) fun _ => run text b s next
  | group number p, s, next => run text p s fun t => next (t.close number s.place)
  | again number folding _, s, next =>
    match s.taken.lookup number with
    | none => none
    | some (start, stop) =>
      if sameParts text folding (stop - start) start s.place then next (s.moved (stop - start))
      else none
  | rep p least most manner, s, next =>
    let fuel := least + text.size + 2
    match manner with
    | .possessive =>
      match exhausted (run text p) fuel least most none s with
      | some t => next t
      | none => none
    | manner => repeated (run text p) (manner == .manyFirst) next fuel least most none s
  | atomic p, s, next =>
    match run text p s some with
    | some t => next t
    | none => none
  | here place, s, next => if place.holds text s.place then next s else none
  | look behind negated p, s, next =>
    let found := (lookFrom behind p.width.least s).bind fun t => run text p t some
    match found with
    | some t => if negated then none else next { t with place := s.place }
    | none => if negated then next s else none
  | ifGroup number yes no, s, next =>
    if (s.taken.lookup number).isSome then run text yes s next else run text no s next

/-- A pattern matches somewhere in a text. -/
def occursIn (p : Pattern) (s : String) : Bool :=
  let text := s.toList.toArray
  (List.range (text.size + 1)).any fun place => (run text p ⟨place, []⟩ some).isSome

end Pattern
end LeagueAudit
