/-!
Bytes in base sixty-four: four characters stand for three bytes. Characters that are no digits are
passed over, and the signs that fill up the last four end the bytes.
-/
namespace LeagueAudit.Base64

/-- The value of a digit. -/
def digit? (c : Char) : Option Nat :=
  if 'A' ≤ c && c ≤ 'Z' then some (c.toNat - 'A'.toNat)
  else if 'a' ≤ c && c ≤ 'z' then some (c.toNat - 'a'.toNat + 26)
  else if '0' ≤ c && c ≤ '9' then some (c.toNat - '0'.toNat + 52)
  else if c = '+' then some 62
  else if c = '/' then some 63
  else none

/-- What is left of a group of four: how many digits were read, the bits that are not yet in a byte,
and how many filling signs followed. -/
structure Group where
  digits : Nat := 0
  bits : Nat := 0
  filling : Nat := 0

/-- Adds a digit to a group, which may complete a byte. -/
def Group.add (g : Group) (d : Nat) : Group × List UInt8 :=
  match g.digits with
  | 0 => (⟨1, d, 0⟩, [])
  | 1 => (⟨2, d % 16, 0⟩, [UInt8.ofNat (g.bits * 4 + d / 16)])
  | 2 => (⟨3, d % 4, 0⟩, [UInt8.ofNat (g.bits * 16 + d / 4)])
  | _ => ({}, [UInt8.ofNat (g.bits * 64 + d)])

/-- The bytes of digits after a group; none when the last group is not complete. -/
def decodeFrom? (g : Group) : List Char → Option (List UInt8)
  | [] => if g.digits = 0 then some [] else none
  | c :: rest =>
    if c = '=' then
      if g.digits ≥ 2 && g.digits + g.filling + 1 ≥ 4 then some []
      else decodeFrom? { g with filling := if g.digits ≥ 2 then g.filling + 1 else g.filling } rest
    else
      match digit? c with
      | none => decodeFrom? g rest
      | some d =>
        let (g, bytes) := g.add d
        (decodeFrom? g rest).map (bytes ++ ·)

/-- The bytes that a text stands for. -/
def decode? (cs : List Char) : Option (List UInt8) := decodeFrom? {} cs

end LeagueAudit.Base64
