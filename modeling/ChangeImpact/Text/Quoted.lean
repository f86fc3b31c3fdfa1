import ChangeImpact.Text.Printable
import ChangeImpact.Text.Point

/-!
# Quoted text

How a text is shown inside a message. It stands in single quotes, or in double quotes when it holds
a single quote and no double quote. The backslash and the chosen quote are escaped, line feed,
carriage return and tab have short escapes, and every other character that is not printable, and
every half of a surrogate pair, is written by its code point with two, four or eight hexadecimal
digits.
-/

namespace ChangeImpact.Text

def hexDigit (n : Nat) : Char :=
  if n < 10 then Char.ofNat (0x30 + n) else Char.ofNat (0x61 + n - 10)

/-- A number in hexadecimal with exactly `width` digits, the high ones cut off. -/
def hex : (width n : Nat) → List Char
  | 0, _ => []
  | width + 1, n => hex width (n / 16) ++ [hexDigit (n % 16)]

/-- The quote a text is shown in. -/
def quoteFor (cs : List Char) : Char :=
  if cs.contains '\'' && !cs.contains '"' then '"' else '\''

/-- A character by its code point. -/
def escapeCode (n : Nat) : List Char :=
  if n < 0x100 then '\\' :: 'x' :: hex 2 n
  else if n < 0x10000 then '\\' :: 'u' :: hex 4 n
  else '\\' :: 'U' :: hex 8 n

/-- One character between quotes. -/
def escapeChar (quote c : Char) : List Char :=
  if c == quote || c == '\\' then ['\\', c]
  else if c == '\n' then ['\\', 'n']
  else if c == '\r' then ['\\', 'r']
  else if c == '\t' then ['\\', 't']
  else if isPrintable c then [c]
  else escapeCode c.toNat

/-- One code point between quotes. -/
def escapePoint (quote : Char) : Point → List Char
  | .char c => escapeChar quote c
  | .half n => escapeCode n

/-- A text in quotes. -/
def quoted (cs : List Char) : List Char :=
  let quote := quoteFor cs
  quote :: (points cs).flatMap (escapePoint quote) ++ [quote]

/-- One byte between quotes: only printable ASCII is shown as itself. -/
def escapeByte (quote : Char) (b : UInt8) : List Char :=
  let c := Char.ofNat b.toNat
  if 0x7f ≤ b.toNat then escapeCode b.toNat else escapeChar quote c

/-- A sequence of bytes in quotes, marked by a leading `b`. -/
def quotedBytes (bytes : List UInt8) : List Char :=
  let quote := quoteFor (bytes.map fun b => Char.ofNat b.toNat)
  'b' :: quote :: bytes.flatMap (escapeByte quote) ++ [quote]

end ChangeImpact.Text
