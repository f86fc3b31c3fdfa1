import ChangeImpact.Number.Binary64
import ChangeImpact.Text.Blank
import ChangeImpact.Text.Digit

/-!
# Reading numbers

The grammar of numbers in text. An integer is a sign and digits of any script; a floating-point
number has an optional fraction and exponent, or is one of the words for infinity and for a value
that is not a number. Single underscores may stand between digits, and blanks around the number are
ignored.
-/

namespace ChangeImpact.Numeral

/-- Blanks that may surround a number: all but the four information separators. -/
def isPadding (c : Char) : Bool :=
  Text.isBlank c && !(0x1c ≤ c.toNat && c.toNat ≤ 0x1f)

def trimPadding (cs : List Char) : List Char := Text.trimWhile isPadding cs

/-- A digit of a base up to 16; letters of both cases stand for the digits from ten on. -/
def digitOf? (base : Nat) (c : Char) : Option Nat :=
  let value := match Text.digitValue? c with
    | some d => some d
    | none =>
      if 'a' ≤ c && c ≤ 'f' then some (c.toNat - 'a'.toNat + 10)
      else if 'A' ≤ c && c ≤ 'F' then some (c.toNat - 'A'.toNat + 10)
      else none
  value.filter (· < base)

/-- Digits with single underscores between them; `value` is what has been read. -/
def digitsFrom (base value : Nat) : List Char → Option Nat
  | [] => some value
  | '_' :: c :: cs => do digitsFrom base (value * base + (← digitOf? base c)) cs
  | c :: cs => do digitsFrom base (value * base + (← digitOf? base c)) cs

/-- At least one digit, with single underscores between digits. -/
def digits? (base : Nat) : List Char → Option Nat
  | [] => none
  | c :: cs => do digitsFrom base (← digitOf? base c) cs

/-- Splits off a sign. -/
def splitSign : List Char → Bool × List Char
  | '-' :: cs => (true, cs)
  | '+' :: cs => (false, cs)
  | cs => (false, cs)

/-- Drops the letter mark of a base, and one underscore after it. -/
def dropBaseMark (base : Nat) (cs : List Char) : List Char :=
  let mark := match base with
    | 2 => some ('b', 'B')
    | 8 => some ('o', 'O')
    | 16 => some ('x', 'X')
    | _ => none
  match mark, cs with
  | some (small, capital), '0' :: c :: rest =>
    if c == small || c == capital then
      match rest with
      | '_' :: rest => rest
      | _ => rest
    else cs
  | _, _ => cs

/-- An integer written in a base. -/
def int? (base : Nat) (cs : List Char) : Option Int := do
  let (negative, body) := splitSign (trimPadding cs)
  let n ← digits? base (dropBaseMark base body)
  return if negative then -(n : Int) else n

/-- The most digits of an integer that is read in base ten. -/
def mostDigits : Nat := 4300

/-- Underscores stand one by one between other characters; `after` is set at the start and after an
underscore. -/
def isGrouped : (after : Bool) → List Char → Bool
  | after, [] => !after
  | after, c :: cs => !(after && c == '_') && isGrouped (c == '_') cs

/-- The number of digits in a text. -/
def countDigits (cs : List Char) : Nat := (cs.filter fun c => (Text.digitValue? c).isSome).length

/-- Digits of a number part: none, or digits with single underscores between them. -/
def part? (cs : List Char) : Option (Nat × Nat) :=
  if cs.isEmpty then some (0, 0) else (digits? 10 cs).map fun n => (n, countDigits cs)

/-- A run of digits and underscores, and what follows it. -/
def spanDigits (cs : List Char) : List Char × List Char :=
  cs.span fun c => (Text.digitValue? c).isSome || c == '_'

/-- The number of digits at the start of a text, after blanks and a sign, if underscores group them. -/
def leadingDigits (cs : List Char) : Nat :=
  let (run, _) := spanDigits (splitSign (cs.dropWhile isPadding)).2
  if isGrouped true run then countDigits run else 0

/-- The exponent of a number: none at the end of the text, else a mark, a sign and digits. -/
def exponent? : List Char → Option Int
  | [] => some 0
  | c :: cs =>
    if c == 'e' || c == 'E' then do
      let (negative, body) := splitSign cs
      let n ← digits? 10 body
      return if negative then -(n : Int) else n
    else none

def asciiLower (c : Char) : Char := if 'A' ≤ c && c ≤ 'Z' then Char.ofNat (c.toNat + 32) else c

/-- An unsigned floating-point number. -/
def magnitude? (negative : Bool) (cs : List Char) : Option Binary64 :=
  let word := String.ofList (cs.map asciiLower)
  if word == "inf" || word == "infinity" then some (.infinite negative)
  else if word == "nan" then some .nan
  else do
    let (whole, rest) := spanDigits cs
    let (fraction, rest) := match rest with
      | '.' :: rest => spanDigits rest
      | _ => ([], rest)
    if whole.isEmpty && fraction.isEmpty then none
    let (w, _) ← part? whole
    let (f, places) ← part? fraction
    let e ← exponent? rest
    return Binary64.ofDecimal negative (w * Nat.pow 10 places + f) (e - places)

/-- A floating-point number. -/
def float? (cs : List Char) : Option Binary64 :=
  let (negative, body) := splitSign (trimPadding cs)
  magnitude? negative body

end ChangeImpact.Numeral
