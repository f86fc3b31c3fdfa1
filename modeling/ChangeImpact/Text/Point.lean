/-!
# Code points of texts

A text is a sequence of code points. Most of them are characters and stand for themselves, but escapes
can also write halves of surrogate pairs, which are no characters. A text holds a half as two
characters, a shift and a stand-in for the half. The shift is a code point that is reserved forever;
where a text holds it for its own sake, it too is followed by a stand-in, so that different sequences
of code points are different texts. No code points write a shift that is followed by anything else; where
a text holds one, it counts with what follows as a half of its own, above all code points, so that
different texts also have different code points.

* `Point.text` writes a code point and `points` reads the code points of a text.
* `width` counts code points: everything but a shift counts.
* `le` and `lt` order texts by their code points.
-/

namespace ChangeImpact.Text

/-- The first half of a pair. -/
def isHighHalf (n : Nat) : Bool := 0xd800 ≤ n && n < 0xdc00

/-- The second half of a pair. -/
def isLowHalf (n : Nat) : Bool := 0xdc00 ≤ n && n < 0xe000

/-- A code point: a character, or half of a surrogate pair by its number. -/
inductive Point where
  | char (c : Char)
  | half (n : Nat)
deriving DecidableEq, Repr

/-- The character that gives the one after it another meaning. -/
def shift : Char := Char.ofNat 0xdffff

/-- After a shift, the character that stands for the shift itself. -/
def shiftStandIn : Char := Char.ofNat 0xde000

/-- The distance from a half to the character that stands for it after a shift. -/
def halfDistance : Nat := 0xd0000

/-- The first number above all code points. -/
def pointLimit : Nat := 0x110000

namespace Point

/-- The code point of a number. -/
def ofCode (n : Nat) : Point :=
  if isHighHalf n || isLowHalf n then .half n else .char (Char.ofNat n)

/-- The number of a code point. -/
def code : Point → Nat
  | .char c => c.toNat
  | .half n => n

def isHalf : Point → Bool
  | .char _ => false
  | .half _ => true

/-- The character of a code point, null for a half. -/
def toChar : Point → Char
  | .char c => c
  | .half _ => Char.ofNat 0

/-- The text of a code point. -/
def text : Point → List Char
  | .char c => if c == shift then [shift, shiftStandIn] else [c]
  | .half n => [shift, Char.ofNat (n + halfDistance)]

/-- What a character stands for after a shift. -/
def afterShift (c : Char) : Point :=
  let n := c.toNat - halfDistance
  if c == shiftStandIn then .char shift
  else if isHighHalf n || isLowHalf n then .half n
  else .half (pointLimit + 1 + c.toNat)

/-- What the last character of a text stands for. -/
def last (c : Char) : Point := if c == shift then .half pointLimit else .char c

end Point

/-- The code points of a text, after those that are read, the last one first. -/
def pointsFrom (read : List Point) : List Char → List Point
  | [] => read.reverse
  | [c] => (Point.last c :: read).reverse
  | c :: d :: cs =>
    if c == shift then pointsFrom (Point.afterShift d :: read) cs
    else pointsFrom (.char c :: read) (d :: cs)

/-- The code points of a text. -/
def points (cs : List Char) : List Point := pointsFrom [] cs

/-- The text of some code points. -/
def ofPoints (ps : List Point) : List Char := ps.flatMap Point.text

/-- The text that characters make. -/
def ofChars (cs : List Char) : List Char := cs.flatMap fun c => (Point.char c).text

/-- The number of code points of a text. -/
def width (cs : List Char) : Nat := (cs.filter (· != shift)).length

/-- A text ends with another one, which does not start behind a shift. -/
def endsWith (whole part : List Char) : Bool :=
  part.isSuffixOf whole && (whole.take (whole.length - part.length)).getLast? != some shift

/-- A text holds a half, so that no encoding has bytes for it. -/
def hasHalf (s : String) : Bool := (points s.toList).any Point.isHalf

/-- The bytes of a text in UTF-8, if it holds no half. -/
def bytes (s : String) : List UInt8 :=
  (String.ofList ((points s.toList).map Point.toChar)).toUTF8.toList

/-- The character that two halves write. -/
def pairChar (high low : Nat) : Char :=
  Char.ofNat (0x10000 + (high - 0xd800) * 0x400 + (low - 0xdc00))

/-- Code points with each two halves that form a pair replaced by their character. -/
def joinHalves : List Point → List Point
  | .half a :: .half b :: ps =>
    if isHighHalf a && isLowHalf b then .char (pairChar a b) :: joinHalves ps
    else .half a :: joinHalves (.half b :: ps)
  | p :: ps => p :: joinHalves ps
  | [] => []

/-- The numbers of the code points of a text. -/
def codes (s : String) : List Nat := (points s.toList).map Point.code

/-- The strict order of texts by code points. -/
def lt (a b : String) : Bool := decide (codes a < codes b)

/-- The order of texts by code points. -/
def le (a b : String) : Bool := !lt b a

end ChangeImpact.Text
