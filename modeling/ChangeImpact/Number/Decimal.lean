import ChangeImpact.Number.Binary64

/-!
# Decimal text of numbers

The shortest decimal of a number is the one with the fewest digits that reads back as the number,
and of those the nearest. `Binary64.text` lays it out: positionally while the decimal point falls
within `16` places after the first digit or `3` zeros before it, always with a point, and otherwise
with an exponent of at least two digits and a sign.

Fixed layouts round the exact value, a tie going to the even digit.
-/

namespace ChangeImpact

/-- The decimal digits of a natural, most significant first. -/
def natDigits (n : Nat) : List Char := Nat.toDigits 10 n

/-- The decimal text of a natural. -/
def natText (n : Nat) : String := String.ofList (natDigits n)

/-- The decimal text of an integer. -/
def intText (n : Int) : String :=
  if n < 0 then "-" ++ natText n.natAbs else natText n.natAbs

namespace Binary64

/-- A decimal `digits * 10 ^ power`. -/
structure Decimal where
  digits : Nat
  power : Int
deriving DecidableEq, Repr

/-- The power of ten of the first digit of `num / den`, which is positive. -/
def leadingPower (num den : Nat) : Int :=
  let p : Int := (natDigits num).length - (natDigits den).length
  let below := if 0 ≤ p then num < den * Nat.pow 10 p.toNat else num * Nat.pow 10 (-p).toNat < den
  if below then p - 1 else p

/-- The quotient `num / den` in units of `10 ^ power`, as a quotient of naturals. -/
def inTens (num den : Nat) (power : Int) : Nat × Nat :=
  if 0 ≤ power then (num, den * Nat.pow 10 power.toNat) else (num * Nat.pow 10 (-power).toNat, den)

/-- Of the two decimals of a grid around a number, the one that reads back as the number, the nearer
if both do. -/
def onGrid? (x : Binary64) (num den : Nat) (power : Int) : Option Decimal :=
  let (n, d) := inTens num den power
  let low := n / d
  let lowReads := ofDecimal false low power == x
  let highReads := ofDecimal false (low + 1) power == x
  if lowReads && (!highReads || roundDiv n d == low) then some ⟨low, power⟩
  else if highReads then some ⟨low + 1, power⟩
  else none

/-- Searches the grids of `count`, `count + 1`, … digits. -/
def searchGrids (x : Binary64) (num den : Nat) (lead : Int) : (fuel count : Nat) → Decimal
  | 0, count => ⟨roundDiv (inTens num den (lead - count + 1)).1 (inTens num den (lead - count + 1)).2,
      lead - count + 1⟩
  | fuel + 1, count =>
    match onGrid? x num den (lead - count + 1) with
    | some d => d
    | none => searchGrids x num den lead fuel (count + 1)

/-- The shortest decimal of the positive number `m * 2 ^ e`; 17 digits always suffice. -/
def shortest (m : Nat) (e : Int) : Decimal :=
  let (num, den) := ratio m e
  searchGrids (.finite false m e) num den (leadingPower num den) 17 1

/-- The digits of a decimal without the zeros at their end, and the power of the first digit. -/
def Decimal.scientific (d : Decimal) : List Char × Int :=
  let cs := natDigits d.digits
  let kept := (cs.reverse.dropWhile (· == '0')).reverse
  (if kept.isEmpty then ['0'] else kept, d.power + cs.length - 1)

/-- The exponent mark, a sign and at least two digits. -/
def exponentText (p : Int) : List Char :=
  let ds := natDigits p.natAbs
  'e' :: (if p < 0 then '-' else '+') :: (if ds.length < 2 then '0' :: ds else ds)

/-- Lays out the digits of a positive number whose first digit has the given power of ten. -/
def layout (digits : List Char) (lead : Int) : List Char :=
  if lead < -4 || 16 ≤ lead then
    let mantissa := match digits with
      | [d] => [d]
      | d :: ds => d :: '.' :: ds
      | [] => []
    mantissa ++ exponentText lead
  else if lead < 0 then
    '0' :: '.' :: List.replicate (-lead - 1).toNat '0' ++ digits
  else
    let whole := (lead + 1).toNat
    if digits.length ≤ whole then
      digits ++ List.replicate (whole - digits.length) '0' ++ ['.', '0']
    else digits.take whole ++ '.' :: digits.drop whole

/-- The decimal text of a number. -/
def text : Binary64 → String
  | .nan => "nan"
  | .infinite s => if s then "-inf" else "inf"
  | .finite s m e =>
    let body :=
      if m = 0 then ['0', '.', '0'] else
        let (digits, lead) := (shortest m e).scientific
        layout digits lead
    String.ofList (if s then '-' :: body else body)

/-- A finite number rounded to a number of decimal places; other numbers are kept. -/
def roundPlaces (places : Nat) : Binary64 → Binary64
  | .finite s m e =>
    let (n, d) := ratio m e
    ofDecimal s (roundDiv (n * Nat.pow 10 places) d) (-(places : Int))
  | x => x

/-- A number as a whole percentage: the number times one hundred, rounded to an integer. -/
def percent (x : Binary64) : String :=
  match x.mul (ofInt 100) with
  | .finite s m e =>
    let (n, d) := ratio m e
    (if s then "-" else "") ++ natText (roundDiv n d) ++ "%"
  | y => y.text ++ "%"

end Binary64

end ChangeImpact
