import LeagueAudit.Number.Reading
import LeagueAudit.Pattern.Basic

/-!
Reading patterns: alternatives of sequences of repeated atoms. Flags say how atoms are read and what
they stand for; those that stand first are for the whole pattern, others for one group.
-/
namespace LeagueAudit.Pattern

/-- Why a text is no pattern. -/
inductive Refusal where
  | malformed
  /-- A number of repetitions beyond all limits. -/
  | tooOften
  /-- A number with too many digits, or flags for the whole pattern that exclude each other. -/
  | unusable
  deriving DecidableEq, Repr

/-- A character, or a backslash with the one after it. -/
inductive Token where
  | plain (c : Char)
  | escape (c : Char)
  /-- A backslash with nothing after it. -/
  | stray
  deriving DecidableEq, Repr

def tokens : List Char → List Token
  | [] => []
  | '\\' :: [] => [.stray]
  | '\\' :: c :: rest => .escape c :: tokens rest
  | c :: rest => .plain c :: tokens rest

/-- How atoms are read, by the letters that switch it on. -/
structure Flags where
  /-- `i` -/
  ignoreCase : Bool := false
  /-- `m` -/
  lines : Bool := false
  /-- `s` -/
  dotAll : Bool := false
  /-- `x` -/
  verbose : Bool := false
  /-- `a` -/
  ascii : Bool := false
  /-- `u` -/
  unicode : Bool := false
  /-- `t` -/
  plain : Bool := false
  deriving DecidableEq, Repr

namespace Flags

def letters : List Char := ['i', 'L', 'm', 's', 'x', 'a', 't', 'u']

def set (on : Bool) (f : Flags) : Char → Flags
  | 'i' => { f with ignoreCase := on }
  | 'm' => { f with lines := on }
  | 's' => { f with dotAll := on }
  | 'x' => { f with verbose := on }
  | 'a' => { f with ascii := on }
  | 'u' => { f with unicode := on }
  | 't' => { f with plain := on }
  | _ => f

/-- The flags inside a group; of the two character classes the one that is switched on there
counts. -/
def within (f : Flags) (added removed : List Char) : Flags :=
  let kept :=
    if added.contains 'a' || added.contains 'u' then { f with ascii := false, unicode := false }
    else f
  removed.foldl (set false) (added.foldl (set true) kept)

def folding (f : Flags) : Folding :=
  if !f.ignoreCase then .exact else if f.ascii then .ascii else .full

end Flags

/-- What is still to be read, and what the part before it has declared. -/
structure Scanner where
  rest : List Token
  /-- The flags of the whole pattern. -/
  flags : Flags := {}
  /-- The number of groups so far. -/
  opened : Nat := 0
  names : List (String × Nat) := []
  /-- The groups that are complete, with their widths. -/
  closed : List (Nat × Width) := []
  /-- The first group inside the pattern that is looked for before a place. -/
  inner : Option Nat := none
  /-- The groups that conditions ask for. -/
  wanted : List Nat := []

abbrev Scan := StateT Scanner (Except Refusal)

namespace Scan

def refuse {α : Type} : Scan α := throw .malformed

/-- The next token, if there is one. -/
def peek : Scan (Option Token) := do
  match (← get).rest with
  | [] => pure none
  | .stray :: _ => refuse
  | t :: _ => pure (some t)

def skip : Scan Unit := modify fun s => { s with rest := s.rest.drop 1 }

/-- Takes the next token. -/
def take : Scan (Option Token) := do
  let t ← peek
  skip
  pure t

/-- Takes a token that must be there. -/
def need : Scan Token := do
  match ← take with
  | some t => pure t
  | none => refuse

/-- Takes a character if it is the next one. -/
def accept (c : Char) : Scan Bool := do
  if (← peek) == some (.plain c) then
    skip
    pure true
  else pure false

/-- Takes a character that must be the next one. -/
def expect (c : Char) : Scan Unit := do
  if !(← accept c) then refuse

/-- Takes at most `count` characters of a class. -/
def takeWhile (count : Nat) (has : Char → Bool) : Scan (List Char) := do
  match count with
  | 0 => pure []
  | count + 1 =>
    match ← peek with
    | some (.plain c) =>
      if has c then
        skip
        pure (c :: (← takeWhile count has))
      else pure []
    | _ => pure []

/-- The number of tokens that are left. -/
def left : Scan Nat := do pure (← get).rest.length

/-- Takes the text up to a mark, which may not be empty. -/
def takeName (fuel : Nat) (mark : Char) (read : List Char) : Scan String := do
  match fuel with
  | 0 => refuse
  | fuel + 1 =>
    match ← need with
    | .plain c =>
      if c != mark then takeName fuel mark (c :: read)
      else if read.isEmpty then refuse
      else pure (String.ofList read.reverse)
    | .escape c => takeName fuel mark (c :: '\\' :: read)
    | .stray => refuse

end Scan

open Scan

def isOctal (c : Char) : Bool := '0' ≤ c && c ≤ '7'

/-- The value of a hexadecimal digit. -/
def hexDigit? (c : Char) : Option Nat :=
  if c.isDigit then some (c.toNat - '0'.toNat)
  else if 'a' ≤ c && c ≤ 'f' then some (c.toNat - 'a'.toNat + 10)
  else if 'A' ≤ c && c ≤ 'F' then some (c.toNat - 'A'.toNat + 10)
  else none

/-- The value of digits in a base. -/
def valueIn (base : Nat) (cs : List Char) : Nat :=
  cs.foldl (fun n c => n * base + (hexDigit? c).getD 0) 0

/-- Takes a code of exactly `count` hexadecimal digits. -/
def scanHex (count : Nat) : Scan Nat := do
  let digits ← Scan.takeWhile count fun c => (hexDigit? c).isSome
  let code := valueIn 16 digits
  if digits.length < count || code > 0x10ffff then refuse else pure code

/-- Takes at most two more octal digits. -/
def scanOctal (first : Char) : Scan Nat := do
  let code := valueIn 8 (first :: (← Scan.takeWhile 2 isOctal))
  if code > 0xff then refuse else pure code

/-- The characters that letters after a backslash stand for. -/
def letterCodes : List (Char × Nat) :=
  [('a', 7), ('f', 12), ('n', 10), ('r', 13), ('t', 9), ('v', 11)]

/-- The character of an escape that is no class, place or group. -/
def scanEscapedCode (c : Char) : Scan Nat := do
  match letterCodes.lookup c with
  | some code => pure code
  | none =>
    if c = 'x' then scanHex 2
    else if c = 'u' then scanHex 4
    else if c = 'U' then scanHex 8
    else if c.isAlphanum then refuse
    else pure (Text.codeOf c)

def classOf? (ascii : Bool) : Char → Option CharItem
  | 'd' => some (.ofClass .digit ascii false)
  | 'D' => some (.ofClass .digit ascii true)
  | 'w' => some (.ofClass .word ascii false)
  | 'W' => some (.ofClass .word ascii true)
  | 's' => some (.ofClass .blank ascii false)
  | 'S' => some (.ofClass .blank ascii true)
  | _ => none

/-- The pattern of one character. -/
def literal (f : Flags) (code : Nat) : Pattern := .one ⟨[.range code code], false, f.folding⟩

/-- The item of a set that a token stands for. -/
def scanSetItem (f : Flags) : Token → Scan CharItem
  | .plain c => pure (.range (Text.codeOf c) (Text.codeOf c))
  | .stray => refuse
  | .escape c => do
    match classOf? f.ascii c with
    | some item => pure item
    | none =>
      let code ←
        if c = 'b' then pure 8 else if isOctal c then scanOctal c else scanEscapedCode c
      pure (.range code code)

/-- Reads the items of a set up to its end; a bracket in front stands for itself. -/
def scanSet (fuel : Nat) (f : Flags) (read : List CharItem) : Scan (List CharItem) := do
  match fuel with
  | 0 => refuse
  | fuel + 1 =>
    let t ← need
    if t == .plain ']' && !read.isEmpty then pure read.reverse
    else
      let item ← scanSetItem f t
      if !(← accept '-') then scanSet fuel f (item :: read)
      else
        let hyphen : CharItem := .range 45 45
        let u ← need
        if u == .plain ']' then pure (hyphen :: item :: read).reverse
        else
          match item, ← scanSetItem f u with
          | .range first _, .range last _ =>
            if last < first then refuse else scanSet fuel f (.range first last :: read)
          | _, _ => refuse

/-- How a piece of a sequence may be repeated. -/
inductive Role where
  | ofPlace | ofRepetition | ofAtom
  deriving DecidableEq, Repr

/-- A piece of a sequence. -/
structure Piece where
  pattern : Pattern
  role : Role := .ofAtom

/-- A group may be named once it is complete, and not where it is looked for before a place. -/
def checkClosed (number : Nat) : Scan Unit := do
  if ((← get).closed.lookup number).isNone then refuse

def checkInner (number : Nat) : Scan Unit := do
  match (← get).inner with
  | none => pure ()
  | some first =>
    checkClosed number
    if number ≥ first then refuse

/-- The pattern that repeats what a group took. -/
def scanAgain (f : Flags) (number : Nat) : Scan Pattern := do
  match (← get).closed.lookup number with
  | none => refuse
  | some w =>
    checkInner number
    pure (.again number f.folding w)

/-- Reads a group's number, or three octal digits that stand for a character. -/
def scanNumbered (f : Flags) (c : Char) : Scan Pattern := do
  match ← Scan.takeWhile 1 Char.isDigit with
  | d :: _ =>
    match ← (if isOctal c && isOctal d then Scan.takeWhile 1 isOctal else pure []) with
    | e :: _ =>
      let code := valueIn 8 [c, d, e]
      if code > 0xff then refuse else pure (literal f code)
    | [] => scanAgain f (valueIn 10 [c, d])
  | [] => scanAgain f (valueIn 10 [c])

/-- The place that an escape stands for. -/
def placeOf? (ascii : Bool) : Char → Option Place
  | 'A' => some .textStart
  | 'Z' => some .textEnd
  | 'b' => some (.wordEdge ascii false)
  | 'B' => some (.wordEdge ascii true)
  | _ => none

/-- The piece that an escape stands for. -/
def scanEscape (f : Flags) (c : Char) : Scan Piece := do
  match placeOf? f.ascii c, classOf? f.ascii c with
  | some place, _ => pure ⟨.here place, .ofPlace⟩
  | none, some item => pure ⟨.one ⟨[item], false, f.folding⟩, .ofAtom⟩
  | none, none =>
    if c = '0' then pure ⟨literal f (← scanOctal c), .ofAtom⟩
    else if c.isDigit then pure ⟨← scanNumbered f c, .ofAtom⟩
    else pure ⟨literal f (← scanEscapedCode c), .ofAtom⟩

/-- How often something is repeated. -/
structure Count where
  least : Nat
  most : Option Nat

/-- A number of repetitions; it is limited, and so are its digits. -/
def countOf (digits : List Char) : Scan Nat :=
  if digits.length > wholeDigitLimit then throw .unusable
  else
    let n := valueIn 10 digits
    if n ≥ twoTo 32 - 1 then throw .tooOften else pure n

/-- Reads a count in braces after the opening one; none when this is no count. -/
def scanBraces : Scan (Option Count) := do
  if (← peek) == some (.plain '\x7d') then pure none
  else
    let start ← get
    let low ← Scan.takeWhile start.rest.length Char.isDigit
    let high ← if ← accept ',' then
        (do pure (← Scan.takeWhile start.rest.length Char.isDigit))
      else pure low
    if !(← accept '\x7d') then
      set start
      pure none
    else
      let _ ← peek
      let least ← if low.isEmpty then pure 0 else countOf low
      if high.isEmpty then pure (some ⟨least, none⟩)
      else
        let most ← countOf high
        if most < least then refuse else pure (some ⟨least, some most⟩)

/-- The count that a repetition mark stands for. -/
def scanCount (mark : Char) : Scan (Option Count) :=
  if mark = '?' then pure (some ⟨0, some 1⟩)
  else if mark = '*' then pure (some ⟨0, none⟩)
  else if mark = '+' then pure (some ⟨1, none⟩)
  else scanBraces

def scanManner : Scan Manner := do
  if ← accept '?' then pure .fewFirst
  else if ← accept '+' then pure .possessive
  else pure .manyFirst

/-- Repeats the last piece. -/
def scanRepeated (f : Flags) (mark : Char) (read : List Piece) : Scan (List Piece) := do
  match ← scanCount mark with
  | none => pure (⟨literal f mark.toNat, .ofAtom⟩ :: read)
  | some count =>
    match read with
    | ⟨p, .ofAtom⟩ :: before =>
      pure (⟨.rep p count.least count.most (← scanManner), .ofRepetition⟩ :: before)
    | _ => refuse

/-- Skips a comment up to a mark. -/
def skipTo (fuel : Nat) (mark : Char) (required : Bool) : Scan Unit := do
  match fuel with
  | 0 => pure ()
  | fuel + 1 =>
    match ← take with
    | none => if required then refuse
    | some t => if t != .plain mark then skipTo fuel mark required

/-- Flags that are switched on, and the mark after them. -/
def scanAdded (fuel : Nat) (added : List Char) (c : Char) : Scan (List Char × Char) := do
  match fuel with
  | 0 => refuse
  | fuel + 1 =>
    let added := c :: added
    if c = 'L' || (added.contains 'a' && added.contains 'u') then refuse
    else
      match ← need with
      | .plain d =>
        if d = ')' || d = '-' || d = ':' then pure (added, d)
        else if Flags.letters.contains d then scanAdded fuel added d
        else refuse
      | _ => refuse

/-- Flags that are switched off, up to the colon. -/
def scanRemoved (fuel : Nat) (removed : List Char) : Scan (List Char) := do
  match fuel with
  | 0 => refuse
  | fuel + 1 =>
    match ← need with
    | .plain c =>
      if c = ':' && !removed.isEmpty then pure removed
      else if c = 'a' || c = 'u' || c = 'L' then refuse
      else if Flags.letters.contains c then scanRemoved fuel (c :: removed)
      else refuse
    | _ => refuse

/-- Reads flags. Those of the whole pattern are kept and give none; else what they switch on and off
in a group. -/
def scanFlags (first : Bool) (c : Char) : Scan (Option (List Char × List Char)) := do
  let fuel ← left
  let (added, mark) ← if c = '-' then pure ([], '-') else scanAdded (fuel + 1) [] c
  if mark = ')' then
    if !first then refuse
    else
      modify fun s => { s with flags := added.foldl (Flags.set true) s.flags }
      pure none
  else if added.contains 't' then refuse
  else
    let removed ← if mark = '-' then scanRemoved (fuel + 1) [] else pure []
    if removed.contains 't' || added.any removed.contains then refuse
    else pure (some (added, removed))

/-- A name of a group: a word that does not start with a digit. -/
def isGroupName (name : String) : Bool :=
  match name.toList with
  | [] => false
  | c :: rest =>
    let plain (d : Char) := Text.isWord d && (!Text.isDigit d || (Text.decimalValue? d).isSome)
    plain c && !Text.isDigit c && rest.all plain

def scanGroupName (mark : Char) : Scan String := do
  let name ← takeName ((← left) + 1) mark []
  if isGroupName name then pure name else refuse

/-- Opens a group. -/
def openGroup (name : Option String) : Scan Nat := do
  let s ← get
  let number := s.opened + 1
  match name with
  | none => set { s with opened := number }
  | some name =>
    if (s.names.lookup name).isSome then refuse
    else set { s with opened := number, names := (name, number) :: s.names }
  pure number

/-- The group that a condition asks for, by name or number. -/
def scanCondition : Scan Nat := do
  let name ← takeName ((← left) + 1) ')' []
  if isGroupName name then
    match (← get).names.lookup name with
    | some number => pure number
    | none => refuse
  else
    match readFreeInt? name with
    | some n =>
      if n < 1 || n ≥ twoTo 30 then refuse
      else
        modify fun s => { s with wanted := n.toNat :: s.wanted }
        pure n.toNat
    | none => refuse

/-- A sequence of pieces in reversed order. -/
def joined (read : List Piece) : Pattern :=
  match read with
  | [] => .empty
  | ⟨p, _⟩ :: before => before.foldl (fun q piece => .cat piece.pattern q) p

/-- Which part of the pattern is read: its first alternative, which may start with flags for the
whole pattern, a later one, or a part in brackets with flags of its own. -/
inductive Level where
  | first
  | outer
  | inner (f : Flags)

def Level.flags : Level → Scan Flags
  | .inner f => pure f
  | _ => do pure (← get).flags

mutual

/-- Reads alternatives up to a closing bracket or the end. -/
def scanAlternatives (fuel : Nat) (level : Level) : Scan Pattern := do
  match fuel with
  | 0 => refuse
  | fuel + 1 =>
    let a ← scanSequence fuel level []
    if ← accept '|' then
      let later :=
        match level with
        | .inner f => .inner f
        | _ => .outer
      pure (.alt a (← scanAlternatives fuel later))
    else pure a

/-- Reads a sequence after the pieces that are already read. -/
def scanSequence (fuel : Nat) (level : Level) (read : List Piece) : Scan Pattern := do
  match fuel with
  | 0 => refuse
  | fuel + 1 =>
    let f ← level.flags
    match ← peek with
    | none => pure (joined read)
    | some .stray => refuse
    | some (.escape c) =>
      skip
      let piece ← scanEscape f c
      scanSequence fuel level (piece :: read)
    | some (.plain c) =>
      if c = '|' || c = ')' then pure (joined read)
      else
        skip
        if f.verbose && isAsciiBlank c then scanSequence fuel level read
        else if f.verbose && c = '#' then
          skipTo ((← left) + 1) '\n' false
          scanSequence fuel level read
        else if c = '*' || c = '+' || c = '?' || c = '\x7b' then
          let read ← scanRepeated f c read
          scanSequence fuel level read
        else
          let pieces ← scanPiece fuel level read.isEmpty c
          scanSequence fuel level (pieces ++ read)

/-- Reads the piece that starts with a character; comments and flags are no piece. -/
def scanPiece (fuel : Nat) (level : Level) (atStart : Bool) (c : Char) : Scan (List Piece) := do
  match fuel with
  | 0 => refuse
  | fuel + 1 =>
    let f ← level.flags
    if c = '.' then pure [⟨.one (if f.dotAll then .all else .line), .ofAtom⟩]
    else if c = '^' then pure [⟨.here (if f.lines then .lineStart else .textStart), .ofPlace⟩]
    else if c = '$' then pure [⟨.here (if f.lines then .lineEnd else .lastLineEnd), .ofPlace⟩]
    else if c = '[' then
      let negated ← accept '^'
      let items ← scanSet ((← left) + 1) f []
      pure [⟨.one ⟨items, negated, f.folding⟩, .ofAtom⟩]
    else if c = '(' then scanBracket fuel level atStart f
    else pure [⟨literal f (Text.codeOf c), .ofAtom⟩]

/-- Reads what follows an opening bracket. -/
def scanBracket (fuel : Nat) (level : Level) (atStart : Bool) (f : Flags) :
    Scan (List Piece) := do
  match fuel with
  | 0 => refuse
  | fuel + 1 =>
    if !(← accept '?') then scanGroup fuel f none
    else
      match ← need with
      | .plain 'P' =>
        if ← accept '<' then
          let name ← scanGroupName '>'
          scanGroup fuel f (some name)
        else
          expect '='
          let name ← scanGroupName ')'
          match (← get).names.lookup name with
          | some number => pure [⟨← scanAgain f number, .ofAtom⟩]
          | none => refuse
      | .plain ':' => scanPart fuel f id
      | .plain '>' => scanPart fuel f .atomic
      | .plain '=' => scanPart fuel f (.look false false)
      | .plain '!' => scanPart fuel f (.look false true)
      | .plain '#' =>
        skipTo ((← left) + 1) ')' true
        pure []
      | .plain '<' =>
        let negated ← if ← accept '!' then pure true else (do expect '='; pure false)
        let outer := (← get).inner
        modify fun s => { s with inner := outer.orElse fun _ => some (s.opened + 1) }
        let p ← scanAlternatives fuel (.inner f)
        modify fun s => { s with inner := outer }
        expect ')'
        pure [⟨.look true negated p, .ofAtom⟩]
      | .plain '(' =>
        let number ← scanCondition
        checkInner number
        let yes ← scanSequence fuel (.inner f) []
        let no ← if ← accept '|' then scanSequence fuel (.inner f) [] else pure .empty
        expect ')'
        pure [⟨.ifGroup number yes no, .ofAtom⟩]
      | .plain c =>
        if c != '-' && !Flags.letters.contains c then refuse
        else
          let first :=
            match level with
            | .first => atStart
            | _ => false
          match ← scanFlags first c with
          | none => pure []
          | some (added, removed) => scanPart fuel (f.within added removed) id
      | _ => refuse

/-- Reads a group that is remembered, up to its closing bracket. -/
def scanGroup (fuel : Nat) (f : Flags) (name : Option String) : Scan (List Piece) := do
  match fuel with
  | 0 => refuse
  | fuel + 1 =>
    let number ← openGroup name
    let p ← scanAlternatives fuel (.inner f)
    expect ')'
    modify fun s => { s with closed := (number, p.width) :: s.closed }
    pure [⟨.group number p, .ofAtom⟩]

/-- Reads a part in brackets, up to the closing one. -/
def scanPart (fuel : Nat) (f : Flags) (make : Pattern → Pattern) : Scan (List Piece) := do
  match fuel with
  | 0 => refuse
  | fuel + 1 =>
    let p ← scanAlternatives fuel (.inner f)
    expect ')'
    pure [⟨make p, .ofAtom⟩]

end

/-- Reads a pattern. -/
def read (s : String) : Except Refusal Pattern := do
  let ts := tokens s.toList
  let (p, done) ← (scanAlternatives (8 * ts.length + 8) .first).run { rest := ts }
  if done.flags.ascii && done.flags.unicode then .error .unusable
  else if !done.rest.isEmpty || done.wanted.any (· > done.opened) then .error .malformed
  else if !p.fixedBehind || (done.flags.plain && p.repeats) then .error .malformed
  else .ok p

end LeagueAudit.Pattern
