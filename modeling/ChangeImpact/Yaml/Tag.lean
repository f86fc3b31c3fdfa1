import ChangeImpact.Yaml.Token.Label

/-!
# Tags of plain scalars

A scalar without a tag of its own is given one by its form: truth values, numbers, null, times, and
the two special keys. Everything else is text. A form may be followed by one line feed.
-/

namespace ChangeImpact.Yaml.Tag

/-- A tag of the standard set. -/
def standard (word : String) : String := "tag:yaml.org,2002:" ++ word

def null : String := standard "null"
def bool : String := standard "bool"
def int : String := standard "int"
def float : String := standard "float"
def binary : String := standard "binary"
def timestamp : String := standard "timestamp"
def omap : String := standard "omap"
def pairs : String := standard "pairs"
def set : String := standard "set"
def str : String := standard "str"
def seq : String := standard "seq"
def map : String := standard "map"
def merge : String := standard "merge"
def value : String := standard "value"
def yaml : String := standard "yaml"

def isDigit (c : Char) : Bool := '0' ≤ c && c ≤ '9'

def isDigitOrLow (c : Char) : Bool := isDigit c || c == '_'

/-- Drops a sign. -/
def unsigned : List Char → List Char
  | '+' :: cs => cs
  | '-' :: cs => cs
  | cs => cs

/-- The words for truth values. -/
def boolWords : List String :=
  ["yes", "Yes", "YES", "no", "No", "NO", "true", "True", "TRUE", "false", "False", "FALSE",
    "on", "On", "ON", "off", "Off", "OFF"]

/-- Parts of sixty after the first, each a colon with one or two digits. -/
def isSixties (cs : List Char) : Bool :=
  match cs with
  | ':' :: a :: b :: rest =>
    if isDigit b then ('0' ≤ a && a ≤ '5') && (rest.isEmpty || isSixties rest)
    else isDigit a && isSixties (b :: rest)
  | [':', a] => isDigit a
  | _ => false

/-- A digit and further digits or underscores, and what follows. -/
def leadingDigits (first : Char → Bool) (cs : List Char) : Option (List Char) :=
  match cs with
  | c :: rest => if first c then some (rest.dropWhile isDigitOrLow) else none
  | [] => none

/-- Characters of a class and nothing else, at least one. -/
def isAll (p : Char → Bool) (cs : List Char) : Bool := !cs.isEmpty && cs.all p

/-- The forms of integers: binary, octal, decimal, hexadecimal, and by parts of sixty. -/
def isInt (text : List Char) : Bool :=
  let cs := unsigned text
  let decimal := match leadingDigits (fun c => '1' ≤ c && c ≤ '9') cs with
    | some rest => rest.isEmpty || isSixties rest
    | none => false
  decimal || match cs with
    | ['0'] => true
    | '0' :: 'b' :: rest => isAll (fun c => c == '0' || c == '1' || c == '_') rest
    | '0' :: 'x' :: rest => isAll (fun c => Text.isHexDigit c || c == '_') rest
    | '0' :: rest => isAll (fun c => ('0' ≤ c && c ≤ '7') || c == '_') rest
    | _ => false

/-- An exponent with a sign, or nothing. -/
def isExponent : List Char → Bool
  | [] => true
  | e :: sign :: rest =>
    (e == 'e' || e == 'E') && (sign == '-' || sign == '+') && isAll isDigit rest
  | _ => false

/-- The forms of floating-point numbers. -/
def isFloat (text : List Char) : Bool :=
  let cs := unsigned text
  let pointed := match leadingDigits isDigit cs with
    | some ('.' :: rest) => isExponent (rest.dropWhile isDigitOrLow)
    | some (':' :: rest) =>
      let sixties := (':' :: rest).takeWhile (· != '.')
      match (':' :: rest).drop sixties.length with
      | '.' :: fraction => isSixties sixties && fraction.all isDigitOrLow
      | _ => false
    | _ => false
  let bare := match text with
    | '.' :: rest =>
      match leadingDigits isDigit rest with
      | some rest => isExponent rest
      | none => false
    | _ => false
  pointed || bare || [".inf", ".Inf", ".INF"].contains (String.ofList cs) ||
    [".nan", ".NaN", ".NAN"].contains (String.ofList text)

/-- Digits at the front, from `least` to `most` of them as far as they go, and what follows. -/
def digitsAhead (least most : Nat) (cs : List Char) : Option (List Char × List Char) :=
  let run := (cs.take most).takeWhile isDigit
  if least ≤ run.length then some (run, cs.drop run.length) else none

/-- One character at the front, and what follows. -/
def charAhead (c : Char) : List Char → Option (List Char)
  | d :: rest => if d == c then some rest else none
  | [] => none

/-- The parts of a time as written; a date alone has no clock. -/
structure Clock where
  hour : List Char
  minute : List Char
  second : List Char
  /-- The digits after the point. -/
  fraction : List Char
  /-- Nothing, universal time, or a signed distance in hours and minutes. -/
  zone : Option (Option (Bool × List Char × List Char))

structure Moment where
  year : List Char
  month : List Char
  day : List Char
  clock : Option Clock

/-- A zone at the end of a time. -/
def zone? (cs : List Char) : Option (Option (Option (Bool × List Char × List Char))) :=
  match cs.dropWhile fun c => c == ' ' || c == '\t' with
  | [] => if cs.isEmpty then some none else none
  | ['Z'] => some (some none)
  | sign :: rest =>
    if sign == '+' || sign == '-' then do
      let (hour, rest) ← digitsAhead 1 2 rest
      if rest.isEmpty then return some (some (sign == '-', hour, []))
      let (minute, rest) ← digitsAhead 2 2 (← charAhead ':' rest)
      if rest.isEmpty then return some (some (sign == '-', hour, minute)) else none
    else none

/-- A clock after a date: a letter or blanks, hours, minutes, seconds, a fraction and a zone. -/
def clock? (cs : List Char) : Option Clock := do
  let cs ← match cs with
    | 'T' :: rest => some rest
    | 't' :: rest => some rest
    | ' ' :: rest => some (rest.dropWhile fun c => c == ' ' || c == '\t')
    | '\t' :: rest => some (rest.dropWhile fun c => c == ' ' || c == '\t')
    | _ => none
  let (hour, cs) ← digitsAhead 1 2 cs
  let (minute, cs) ← digitsAhead 2 2 (← charAhead ':' cs)
  let (second, cs) ← digitsAhead 2 2 (← charAhead ':' cs)
  let (fraction, cs) := match cs with
    | '.' :: rest => rest.span isDigit
    | _ => ([], cs)
  let zone ← zone? cs
  return { hour, minute, second, fraction, zone }

/-- A date, or a date and a clock; months and days may have one digit. -/
def moment? (cs : List Char) : Option Moment := do
  let (year, cs) ← digitsAhead 4 4 cs
  let (month, cs) ← digitsAhead 1 2 (← charAhead '-' cs)
  let (day, cs) ← digitsAhead 1 2 (← charAhead '-' cs)
  if cs.isEmpty then return { year, month, day, clock := none }
  let clock ← clock? cs
  return { year, month, day, clock := some clock }

/-- The form of times: a date alone has two digits for month and day. -/
def isTimestamp (cs : List Char) : Bool :=
  match moment? cs with
  | some m => m.clock.isSome || (m.month.length == 2 && m.day.length == 2)
  | none => false

/-- A text without one line feed at its end. -/
def beforeBreak (cs : List Char) : List Char :=
  if cs.getLast? == some '\n' then cs.dropLast else cs

/-- The tag of a plain scalar. -/
def ofPlain (text : String) : String :=
  let cs := beforeBreak text.toList
  let word := String.ofList cs
  if boolWords.contains word then bool
  else if isFloat cs then float
  else if isInt cs then int
  else if word == "<<" then merge
  else if ["~", "null", "Null", "NULL"].contains word || text.isEmpty then null
  else if isTimestamp cs then timestamp
  else if word == "=" then value
  else if ["!", "&", "*"].contains word then yaml
  else str

end ChangeImpact.Yaml.Tag
