import LeagueAudit.Number.Exact
import LeagueAudit.Text.Quoted

/-!
Reading bytes as UTF-8. A fault names the bytes that could not be read and the rule they break;
every proper beginning of a character is read as far as it can be completed.
-/
namespace LeagueAudit.Text

/-- The rule that a byte breaks. -/
inductive ByteRule where
  | start | continuation | ending
  deriving DecidableEq, Repr

/-- The first bytes that are no character. -/
structure ByteFault where
  rule : ByteRule
  /-- The first bad byte. -/
  byte : UInt8
  position : Nat
  count : Nat

def ByteRule.message : ByteRule → String
  | start => "invalid start byte"
  | continuation => "invalid continuation byte"
  | ending => "unexpected end of data"

def ByteFault.message (f : ByteFault) : String :=
  let place :=
    if f.count = 1 then
      s!"byte 0x{String.ofList (hexText 2 f.byte.toNat)} in position {f.position}"
    else s!"bytes in position {f.position}-{f.position + f.count - 1}"
  s!"'utf-8' codec can't decode {place}: {f.rule.message}"

/-- The least and the greatest second byte after a first byte. -/
def secondBounds (first : Nat) : Nat × Nat :=
  if first = 0xe0 then (0xa0, 0xbf)
  else if first = 0xed then (0x80, 0x9f)
  else if first = 0xf0 then (0x90, 0xbf)
  else if first = 0xf4 then (0x80, 0x8f)
  else (0x80, 0xbf)

/-- The number of bytes of a character that starts with a byte. -/
def characterWidth? (first : Nat) : Option Nat :=
  if first < 0x80 then some 1
  else if first < 0xc2 then none
  else if first < 0xe0 then some 2
  else if first < 0xf0 then some 3
  else if first < 0xf5 then some 4
  else none

/-- Reads the bytes that continue a character; `done` of them are read. -/
def continueCharacter (width : Nat) (bounds : Nat × Nat) (code done : Nat) :
    List UInt8 → Except (ByteRule × Nat) (Nat × List UInt8)
  | bytes =>
    match width, bytes with
    | 0, rest => .ok (code, rest)
    | _ + 1, [] => .error (.ending, done)
    | width + 1, b :: rest =>
      if bounds.1 ≤ b.toNat && b.toNat ≤ bounds.2 then
        continueCharacter width (0x80, 0xbf) (code * 64 + b.toNat % 64) (done + 1) rest
      else .error (.continuation, done)

/-- Reads one character. -/
def decodeCharacter (first : UInt8) (rest : List UInt8) :
    Except (ByteRule × Nat) (Char × List UInt8) :=
  match characterWidth? first.toNat with
  | none => .error (.start, 1)
  | some 1 => .ok (Char.ofNat first.toNat, rest)
  | some width => do
    let (code, rest) ← continueCharacter (width - 1) (secondBounds first.toNat)
      (first.toNat % twoTo (7 - width)) 1 rest
    .ok (Char.ofNat code, rest)

/-- Reads at most `fuel` characters; `read` is the reversed text so far. -/
def decodeUtf8From (fuel position : Nat) (read : List Char) (bytes : List UInt8) :
    Except ByteFault (List Char) :=
  match fuel, bytes with
  | _, [] => .ok read.reverse
  | 0, _ => .ok read.reverse
  | fuel + 1, b :: rest =>
    match decodeCharacter b rest with
    | .error (rule, count) => .error ⟨rule, b, position, count⟩
    | .ok (c, rest') => decodeUtf8From fuel (position + c.utf8Size) (c :: read) rest'

/-- Reads bytes as text. -/
def decodeUtf8 (bytes : List UInt8) : Except ByteFault (List Char) :=
  decodeUtf8From bytes.length 0 [] bytes

/-- Line ends of any kind become line feeds. -/
def unifyLineEnds : List Char → List Char
  | '\r' :: '\n' :: rest => '\n' :: unifyLineEnds rest
  | '\r' :: rest => '\n' :: unifyLineEnds rest
  | c :: rest => c :: unifyLineEnds rest
  | [] => []

end LeagueAudit.Text
