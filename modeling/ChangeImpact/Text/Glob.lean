import ChangeImpact.Text.Point

/-!
# File name patterns

In a pattern `*` stands for any text, `?` for any one character and `[…]` for one character of a
class. A class lists characters and ranges; it is negated by a leading `!`, a `]` at its start is a
member, and a range whose ends are in the wrong order is empty and counts as not written. A `[` that
is never closed stands for itself. A pattern matches a whole text, and letters match only
themselves.
-/

namespace ChangeImpact.Text

/-- One unit of a pattern. -/
inductive Glob.Item where
  /-- Any text. -/
  | any
  /-- Any one character. -/
  | one
  | literal (p : Point)
  /-- One character inside, or outside when negated, the closed ranges of code points. -/
  | among (negated : Bool) (ranges : List (Nat × Nat))
deriving DecidableEq

namespace Glob

/-- The members of a class, from the text between its brackets. A dash between two characters makes
a range; at either end it is a member. -/
def classRanges : List Point → List (Nat × Nat)
  | a :: .char '-' :: b :: rest =>
    if a.code ≤ b.code then (a.code, b.code) :: classRanges rest else classRanges rest
  | a :: rest => (a.code, a.code) :: classRanges rest
  | [] => []

/-- Splits the text after an opening bracket at the bracket that closes the class. The first
character, after a negation sign, never closes it. -/
def closeClass (ps : List Point) : Option (List Point × List Point) :=
  let (head, tail) : List Point × List Point := match ps with
    | .char '!' :: .char ']' :: rest => ([.char '!', .char ']'], rest)
    | .char '!' :: rest => ([.char '!'], rest)
    | .char ']' :: rest => ([.char ']'], rest)
    | _ => ([], ps)
  match tail.span (· != .char ']') with
  | (_, []) => none
  | (body, _ :: rest) => some (head ++ body, rest)

/-- Drops the empty ranges at the start of a class. -/
def dropEmptyRanges : List Point → List Point
  | a :: .char '-' :: b :: rest =>
    if a.code ≤ b.code then a :: .char '-' :: b :: rest else dropEmptyRanges rest
  | ps => ps

/-- The class written between two brackets. -/
def classItem : List Point → Item
  | .char '!' :: rest => .among true (classRanges rest)
  | body =>
    match dropEmptyRanges body with
    | .char '!' :: rest => .among true (classRanges rest)
    | body => .among false (classRanges body)

/-- Reads a pattern; `fuel` bounds the number of its units. -/
def readItems : (fuel : Nat) → List Point → List Item
  | 0, _ => []
  | _ + 1, [] => []
  | fuel + 1, .char '*' :: ps => .any :: readItems fuel ps
  | fuel + 1, .char '?' :: ps => .one :: readItems fuel ps
  | fuel + 1, .char '[' :: ps =>
    match closeClass ps with
    | some (body, rest) => classItem body :: readItems fuel rest
    | none => .literal (.char '[') :: readItems fuel ps
  | fuel + 1, p :: ps => .literal p :: readItems fuel ps

/-- A unit that stands for one character accepts it. -/
def Item.accepts (p : Point) : Item → Bool
  | .any => false
  | .one => true
  | .literal q => p == q
  | .among negated ranges => (ranges.any fun r => r.1 ≤ p.code && p.code ≤ r.2) != negated

/-- Which tails of the units match the empty text, the longest tail first. -/
def emptyRow : List Item → List Bool
  | [] => [true]
  | item :: items =>
    let row := emptyRow items
    (item == .any && row.headD false) :: row

/-- Which tails of the units match a text, from those that match it without its first character. -/
def extendRow (p : Point) : List Item → List Bool → List Bool
  | [], _ => [false]
  | .any :: items, row =>
    let next := extendRow p items row.tail
    (next.headD false || row.headD false) :: next
  | item :: items, row =>
    (item.accepts p && row.tail.headD false) :: extendRow p items row.tail

/-- The units match a whole text. The text is read from its end, one row for each character, so the
time is the product of both lengths. -/
def matchItems (items : List Item) (text : List Point) : Bool :=
  (text.foldr (fun p row => extendRow p items row) (emptyRow items)).headD false

end Glob

/-- A text matches a pattern. -/
def globMatches (pattern text : String) : Bool :=
  let ps := points pattern.toList
  Glob.matchItems (Glob.readItems (ps.length + 1) ps) (points text.toList)

end ChangeImpact.Text
