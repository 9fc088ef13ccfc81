/-!
Similar texts. Two texts share their longest common block, and on each side of it again the longest
one; the share of characters in such blocks is their similarity. In long texts, characters that are
very common do not start a block.
-/
namespace LeagueAudit.Text

/-- A common block: where it starts in each text, and its length. -/
structure Block where
  start : Nat
  start' : Nat
  size : Nat

/-- The lengths of the common blocks that end at `c` and at each character of `ys`; `above` holds
those that end at the character before `c`, one place later. -/
def blockLengths (common : Char → Bool) (c : Char) (above : List Nat) : List Char → List Nat
  | [] => []
  | y :: ys =>
    let size := if c == y && !common y then above.headD 0 + 1 else 0
    size :: blockLengths common c (above.drop 1) ys

/-- Takes a longer block that ends at a character of the first text; of equal ones the first
stays. -/
def longerBlock (position : Nat) (position' : Nat) (best : Block) : List Nat → Block
  | [] => best
  | size :: sizes =>
    let best :=
      if size > best.size then ⟨position + 1 - size, position' + 1 - size, size⟩ else best
    longerBlock position (position' + 1) best sizes

/-- The longest block of characters that are not common, row by row. -/
def longestFrom (common : Char → Bool) (position : Nat) (above : List Nat) (best : Block)
    (ys : List Char) : List Char → Block
  | [] => best
  | x :: xs =>
    let row := blockLengths common x (0 :: above) ys
    longestFrom common (position + 1) row (longerBlock position 0 best row) ys xs

/-- The length of the common start of two texts. -/
def commonStart : List Char → List Char → Nat
  | x :: xs, y :: ys => if x == y then commonStart xs ys + 1 else 0
  | _, _ => 0

/-- The longest block, extended by equal characters on both sides. -/
def longestBlock (common : Char → Bool) (xs ys : List Char) : Block :=
  let core := longestFrom common 0 [] ⟨0, 0, 0⟩ ys xs
  let before := commonStart (xs.take core.start).reverse (ys.take core.start').reverse
  let after := commonStart (xs.drop (core.start + core.size)) (ys.drop (core.start' + core.size))
  ⟨core.start - before, core.start' - before, before + core.size + after⟩

/-- The number of characters in common blocks. -/
def commonCount (common : Char → Bool) (fuel : Nat) (xs ys : List Char) : Nat :=
  match fuel with
  | 0 => 0
  | fuel + 1 =>
    let block := longestBlock common xs ys
    if block.size = 0 then 0
    else
      commonCount common fuel (xs.take block.start) (ys.take block.start') + block.size +
        commonCount common fuel (xs.drop (block.start + block.size))
          (ys.drop (block.start' + block.size))

/-- A character makes up more than a hundredth of a long text. -/
def isCommonIn (text : List Char) (c : Char) : Bool :=
  text.length ≥ 200 && text.count c > text.length / 100 + 1

/-- A text with the number of its characters that a word shares, and the length of both. -/
structure Likeness where
  text : String
  shared : Nat
  total : Nat

def Likeness.of (word text : String) : Likeness :=
  let xs := text.toList
  let ys := word.toList
  ⟨text, commonCount (isCommonIn ys) (xs.length + 1) xs ys, xs.length + ys.length⟩

/-- Twice the shared characters are at least three fifths of all. -/
def Likeness.isClose (c : Likeness) : Bool := 10 * c.shared ≥ 3 * c.total

/-- The more similar candidate comes first, of equal ones the greater text. -/
def Likeness.precedes (a b : Likeness) : Bool :=
  let left := a.shared * b.total
  let right := b.shared * a.total
  left > right || (left == right && decide (b.text ≤ a.text))

/-- At most `limit` texts that are close to a word, the closest first. -/
def similarTo (word : String) (limit : Nat) (texts : List String) : List String :=
  let close := (texts.map (Likeness.of word)).filter Likeness.isClose
  ((close.mergeSort Likeness.precedes).take limit).map (·.text)

end LeagueAudit.Text
