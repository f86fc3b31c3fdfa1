/-!
# Binary floating-point numbers

Numbers of the binary format with 53 significant bits, as exact values: a finite number is a sign, a
significand and a power of two. `Binary64.ofRatio` rounds a quotient of two naturals to the nearest
number, a tie going to the even significand, and every operation is that rounding applied to an
exact result, so all of them compute in `Nat` and `Int`.

A finite number is kept in one form: zero has exponent `0`, and otherwise the exponent is at least
`-1074`, the significand is below `2 ^ 53` and is at least `2 ^ 52` unless the exponent is `-1074`.
Two numbers in this form are the same datum exactly when they are equal.
-/

namespace ChangeImpact

/-- A number of the binary floating-point format with 53 significant bits. -/
inductive Binary64 where
  | nan
  | infinite (negative : Bool)
  /-- The number `significand * 2 ^ exponent`, or its opposite. -/
  | finite (negative : Bool) (significand : Nat) (exponent : Int)
deriving DecidableEq, Repr, Inhabited

/-- The integer nearest to `num / den`, a tie going to the even one. -/
def roundDiv (num den : Nat) : Nat :=
  let q := num / den
  let r := num % den
  if 2 * r < den then q else if den < 2 * r then q + 1 else if q % 2 = 0 then q else q + 1

namespace Binary64

/-- The least exponent of a finite number. -/
def minExponent : Int := -1074

/-- The greatest exponent of a finite number. -/
def maxExponent : Int := 971

/-- Zero, with a sign. -/
def zero (negative : Bool) : Binary64 := .finite negative 0 0

/-- The quotient `num / den` in units of `2 ^ e`, as a quotient of naturals. -/
def inUnits (num den : Nat) (e : Int) : Nat × Nat :=
  if 0 ≤ e then (num, den * Nat.pow 2 e.toNat) else (num * Nat.pow 2 (-e).toNat, den)

/-- The exponent at which `num / den` has a significand of 53 bits, or the least one. -/
def exponentFor (num den : Nat) : Int :=
  let e : Int := (num.log2 : Int) - den.log2 - 52
  let (n, d) := inUnits num den e
  max minExponent (if n < Nat.pow 2 52 * d then e - 1 else e)

/-- The number nearest to `num / den`, a tie going to the even significand. -/
def ofRatio (negative : Bool) (num den : Nat) : Binary64 :=
  if num = 0 || den = 0 then zero negative else
    let e := exponentFor num den
    let (n, d) := inUnits num den e
    let m := roundDiv n d
    let (m, e) := if m = Nat.pow 2 53 then (Nat.pow 2 52, e + 1) else (m, e)
    if m = 0 then zero negative
    else if maxExponent < e then .infinite negative
    else .finite negative m e

/-- The number nearest to `digits * 10 ^ power`. Powers far outside the range of the format are
decided without computing them. -/
def ofDecimal (negative : Bool) (digits : Nat) (power : Int) : Binary64 :=
  let size : Int := (digits.log2 : Int) * 30103 / 100000
  if digits = 0 then zero negative
  else if 400 < size + power then .infinite negative
  else if size + power < -400 then zero negative
  else if 0 ≤ power then ofRatio negative (digits * Nat.pow 10 power.toNat) 1
  else ofRatio negative digits (Nat.pow 10 (-power).toNat)

/-- The number nearest to an integer. -/
def ofInt (n : Int) : Binary64 := ofRatio (n < 0) n.natAbs 1

def one : Binary64 := ofInt 1

def isFinite : Binary64 → Bool
  | .finite .. => true
  | _ => false

/-- A significand with its sign. -/
def signed (negative : Bool) (m : Nat) : Int := if negative then -(m : Int) else m

/-- Two dyadic numbers `m * 2 ^ e` and `n * 2 ^ f` brought to one exponent. -/
def align (m e n f : Int) : Int × Int :=
  if e ≤ f then (m, n * Int.pow 2 (f - e).toNat) else (m * Int.pow 2 (e - f).toNat, n)

/-- Where a number lies among the dyadic numbers `m * 2 ^ e`; infinities are beyond all. -/
inductive Position where
  | below
  | at (m e : Int)
  | above

/-- The position of a number, none for a value that is not a number. -/
def position? : Binary64 → Option Position
  | .nan => none
  | .infinite true => some .below
  | .infinite false => some .above
  | .finite s m e => some (.at (signed s m) e)

def Position.compare : Position → Position → Ordering
  | .below, .below => .eq
  | .below, _ => .lt
  | .at .., .below => .gt
  | .at m e, .at n f => let (a, b) := align m e n f; Ord.compare a b
  | .at .., .above => .lt
  | .above, .above => .eq
  | .above, _ => .gt

/-- The position of an integer. -/
def Position.ofInt (n : Int) : Position := .at n 0

/-- Compares two numbers by value; none when either is not a number. -/
def compare? (x y : Binary64) : Option Ordering :=
  match x.position?, y.position? with
  | some a, some b => some (a.compare b)
  | _, _ => none

def lt (x y : Binary64) : Bool := compare? x y == some .lt

def le (x y : Binary64) : Bool :=
  match compare? x y with
  | some .lt | some .eq => true
  | _ => false

/-- Equality by value: the two zeros are equal. A value that is not a number equals itself. -/
def same (x y : Binary64) : Bool :=
  x == y || compare? x y == some .eq

def mulSign (a b : Bool) : Bool := a != b

/-- The product, rounded once. -/
def mul : Binary64 → Binary64 → Binary64
  | .nan, _ => .nan
  | _, .nan => .nan
  | .infinite s, .infinite t => .infinite (mulSign s t)
  | .infinite s, .finite t m _ => if m = 0 then .nan else .infinite (mulSign s t)
  | .finite s m _, .infinite t => if m = 0 then .nan else .infinite (mulSign s t)
  | .finite s m e, .finite t n f =>
    let p := e + f
    if 0 ≤ p then ofRatio (mulSign s t) (m * n * Nat.pow 2 p.toNat) 1
    else ofRatio (mulSign s t) (m * n) (Nat.pow 2 (-p).toNat)

/-- The sum, rounded once. An exact zero is positive unless both terms are negative zeros. -/
def add : Binary64 → Binary64 → Binary64
  | .nan, _ => .nan
  | _, .nan => .nan
  | .infinite s, .infinite t => if s = t then .infinite s else .nan
  | .infinite s, .finite .. => .infinite s
  | .finite .., .infinite t => .infinite t
  | .finite s m e, .finite t n f =>
    let (a, b) := align (signed s m) e (signed t n) f
    let v := a + b
    let p := min e f
    if v = 0 then zero (s && t && m = 0 && n = 0)
    else if 0 ≤ p then ofRatio (v < 0) (v.natAbs * Nat.pow 2 p.toNat) 1
    else ofRatio (v < 0) v.natAbs (Nat.pow 2 (-p).toNat)

/-- The opposite number. -/
def neg : Binary64 → Binary64
  | .nan => .nan
  | .infinite s => .infinite (!s)
  | .finite s m e => .finite (!s) m e

/-- A number without a negative zero. -/
def unsignedZero : Binary64 → Binary64
  | .finite _ 0 _ => zero false
  | x => x

/-- The magnitude of a finite number as a quotient of naturals. -/
def ratio (m : Nat) (e : Int) : Nat × Nat :=
  if 0 ≤ e then (m * Nat.pow 2 e.toNat, 1) else (m, Nat.pow 2 (-e).toNat)

/-- The integer part of a finite number, toward zero. -/
def truncate? : Binary64 → Option Int
  | .finite s m e =>
    let (n, d) := ratio m e
    let q : Int := (n / d : Nat)
    some (if s then -q else q)
  | _ => none

/-- A finite number without a fraction. -/
def isIntegral : Binary64 → Bool
  | .finite _ m e => let (n, d) := ratio m e; n % d = 0
  | _ => false

def isZero : Binary64 → Bool
  | .finite _ 0 _ => true
  | _ => false

end Binary64

end ChangeImpact
