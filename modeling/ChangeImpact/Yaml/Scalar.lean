import ChangeImpact.Text.Casing
import ChangeImpact.Value.Convert
import ChangeImpact.Yaml.Tag

/-!
# Scalars

What the text of a scalar stands for, by its tag: integers in several bases, floating-point numbers,
truth values, dates and times. A text that its tag does not allow is a fault.
-/

namespace ChangeImpact.Yaml.Scalar

/-- The parts between colons. -/
def colonParts (cs : List Char) : List (List Char) := cs.splitOn ':'

/-- An integer; digits may be grouped with underscores and parts of sixty with colons. -/
def intOf (text : String) : Except Fault Int := do
  let cs := text.toList.filter (· != '_')
  let (negative, body) ← match cs with
    | [] => throw .index
    | '-' :: rest => pure (true, rest)
    | '+' :: rest => pure (false, rest)
    | _ => pure (false, cs)
  let read (base : Nat) (digits : List Char) : Except Fault Int :=
    Value.readInt base digits (quotedText (String.ofList digits))
  let n ← match body with
    | [] => throw .index
    | ['0'] => pure 0
    | '0' :: 'b' :: digits => read 2 digits
    | '0' :: 'x' :: digits => read 16 digits
    | '0' :: _ => read 8 body
    | _ =>
      if body.contains ':' then do
        let parts ← (colonParts body).mapM (read 10)
        pure (parts.foldl (fun n part => n * 60 + part) 0)
      else read 10 body
  return if negative then -n else n

/-- The sum of parts of sixty, the last of which counts single units, each step rounded. The unit of
every part must be a number of the format. -/
def sixtiesSum (parts : List Binary64) : Except Fault Binary64 := do
  let (sum, _) ← parts.reverse.foldlM (fun (sum, unit) part => do
      return (sum.add (part.mul (← (Value.int unit).toFloat)), unit * 60))
    (Binary64.zero false, (1 : Int))
  return sum

/-- The small letters and digits of a number, without underscores. -/
def numberChars (text : String) : List Char := Text.lower (text.toList.filter (· != '_'))

/-- The word for a value that is not a number. -/
def nanWord : List Char := ".nan".toList

/-- The text is the word for a value that is not a number; all such texts stand for one value. -/
def isNanWord (text : String) : Bool :=
  match numberChars text with
  | '-' :: rest | '+' :: rest => rest == nanWord
  | cs => cs == nanWord

/-- A floating-point number. -/
def floatOf (text : String) : Except Fault Binary64 := do
  let cs := numberChars text
  let (negative, body) ← match cs with
    | [] => throw .index
    | '-' :: rest => pure (true, rest)
    | '+' :: rest => pure (false, rest)
    | _ => pure (false, cs)
  let read (digits : List Char) : Except Fault Binary64 :=
    Value.readFloat digits (quotedText (String.ofList digits))
  let x ← match String.ofList body with
    | ".inf" => pure (Binary64.infinite false)
    | ".nan" => pure Binary64.nan
    | _ =>
      if body.contains ':' then do
        let parts ← (colonParts body).mapM read
        sixtiesSum parts
      else read body
  return if negative then x.neg else x

/-- A truth value. -/
def boolOf (text : String) : Except Fault Bool :=
  let word := String.ofList (Text.lower text.toList)
  match word with
  | "yes" | "true" | "on" => .ok true
  | "no" | "false" | "off" => .ok false
  | _ => .error (.key (quotedText word))

/-- The number that digits write. -/
def digitsOf (cs : List Char) : Nat := (Numeral.digits? 10 cs).getD 0

/-- Microseconds from the digits of a fraction; digits beyond the sixth are cut off. -/
def microseconds (fraction : List Char) : Nat :=
  digitsOf ((fraction ++ List.replicate 6 '0').take 6)

/-- A fault of the calendar. -/
def calendar {α : Type} : Except CalendarFault α → Except Fault α
  | .ok a => .ok a
  | .error f => .error (.value (.calendar f))

/-- A date or a time. -/
def momentOf (text : String) : Except Fault Value :=
  match Tag.moment? (Tag.beforeBreak text.toList) with
  | none => .error (.noMember "NoneType" "groupdict")
  | some m =>
    let year := digitsOf m.year
    let month := digitsOf m.month
    let day := digitsOf m.day
    match m.clock with
    | none => do return .date (← calendar (Calendar.date year month day))
    | some c => do
      let offset ← match c.zone with
        | none => pure none
        | some none => pure (some 0)
        | some (some (negative, hours, minutes)) => do
          let total : Int := (digitsOf hours * 60 + digitsOf minutes : Nat)
          let o ← calendar (Calendar.checkOffset (if negative then -total else total))
          pure (some o)
      return .datetime (← calendar (Calendar.dateTime year month day (digitsOf c.hour)
        (digitsOf c.minute) (digitsOf c.second) (microseconds c.fraction) offset))

end ChangeImpact.Yaml.Scalar
