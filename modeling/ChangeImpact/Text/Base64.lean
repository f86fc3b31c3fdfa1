import ChangeImpact.Number.Decimal
import ChangeImpact.Text.Quoted

/-!
# Base64

Decoding with the lenient reading of the format: characters outside the alphabet are skipped, and
decoding stops at padding that completes a group of four.
-/

namespace ChangeImpact.Text.Base64

/-- Why a text does not decode. -/
inductive Failure where
  | padding
  /-- A single character is left over; the count is that of all data characters. -/
  | leftOver (count : Nat)
  /-- Code points outside ASCII: the first of a run, where it starts and how long the run is. -/
  | notAscii (first position count : Nat)
deriving DecidableEq, Repr

def Failure.message : Failure → String
  | .padding => "Incorrect padding"
  | .leftOver count =>
    "Invalid base64-encoded string: number of data characters (" ++ natText count ++
      ") cannot be 1 more than a multiple of 4"
  | .notAscii first position count =>
    "'ascii' codec can't encode " ++
      (if count == 1 then
        "character " ++ String.ofList ('\'' :: escapeCode first ++ ['\'']) ++ " in position " ++
          natText position
      else
        "characters in position " ++ natText position ++ "-" ++ natText (position + count - 1)) ++
      ": ordinal not in range(128)"

/-- The six bits of a character of the alphabet. -/
def sextet? (c : Char) : Option Nat :=
  if 'A' ≤ c && c ≤ 'Z' then some (c.toNat - 65)
  else if 'a' ≤ c && c ≤ 'z' then some (c.toNat - 71)
  else if '0' ≤ c && c ≤ '9' then some (c.toNat + 4)
  else if c == '+' then some 62
  else if c == '/' then some 63
  else none

/-- The bytes of a group of sextets, last first, of which the last may be incomplete. -/
def groupBytes (group : List Nat) : List UInt8 :=
  match group with
  | [d, c, b, a] =>
    [UInt8.ofNat (c * 64 + d), UInt8.ofNat (b * 16 + c / 4), UInt8.ofNat (a * 4 + b / 16)]
  | [c, b, a] => [UInt8.ofNat (b * 16 + c / 4), UInt8.ofNat (a * 4 + b / 16)]
  | [b, a] => [UInt8.ofNat (a * 4 + b / 16)]
  | _ => []

/-- Decodes on; `group` holds the sextets of the group at hand and `read` the bytes before it, both
last first, and `pads` counts the padding since the last sextet. -/
def decodeFrom (group : List Nat) (pads : Nat) (read : List UInt8) :
    List Char → Except Failure (List UInt8)
  | [] =>
    match group.length with
    | 0 => .ok read.reverse
    | 1 => .error (.leftOver (read.length / 3 * 4 + 1))
    | _ => .error .padding
  | c :: cs =>
    if c == '=' then
      if 2 ≤ group.length && 4 ≤ group.length + (pads + 1) then
        .ok (groupBytes group ++ read).reverse
      else decodeFrom group (if 2 ≤ group.length then pads + 1 else pads) read cs
    else
      match sextet? c with
      | none => decodeFrom group pads read cs
      | some s =>
        if group.length == 3 then decodeFrom [] 0 (groupBytes (s :: group) ++ read) cs
        else decodeFrom (s :: group) 0 read cs

/-- The bytes that a text encodes. -/
def decode (cs : List Char) : Except Failure (List UInt8) :=
  let isAscii (p : Point) : Bool := p.code < 0x80
  let (before, rest) := (points cs).span isAscii
  match rest with
  | [] => decodeFrom [] 0 [] cs
  | first :: _ => .error (.notAscii first.code before.length (rest.takeWhile (!isAscii ·)).length)

end ChangeImpact.Text.Base64
