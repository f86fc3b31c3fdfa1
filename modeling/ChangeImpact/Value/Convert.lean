import ChangeImpact.Fault
import ChangeImpact.Number.Numeral

/-!
# Converting values

Integers, floating-point numbers, mappings and sequences out of dynamic values, with the fault that
each refusal means. Texts and bytes are read as numbers; truth values count as zero and one.
-/

namespace ChangeImpact.Value

/-- The characters that a sequence of bytes stands for, one for each byte; a byte beyond the ASCII
range is no part of a number and no blank. -/
def bytesText (data : List UInt8) : List Char :=
  data.map fun b => Char.ofNat (if b.toNat < 0x80 then b.toNat else 0xfffd)

/-- Reads an integer of a base from text; `literal` shows the text in the fault. Digits are counted
before what follows them is looked at. -/
def readInt (base : Nat) (cs : List Char) (literal : String) : Except Fault Int :=
  let count := Numeral.leadingDigits cs
  if base == 10 && Numeral.mostDigits < count then .error (.value (.tooManyDigits count)) else
    match Numeral.int? base cs with
    | some n => .ok n
    | none => .error (.value (.notInt base literal))

/-- Reads a floating-point number from text; `literal` shows the text in the fault. -/
def readFloat (cs : List Char) (literal : String) : Except Fault Binary64 :=
  match Numeral.float? cs with
  | some x => .ok x
  | none => .error (.value (.notFloat literal))

/-- A value as an integer; a floating-point number loses its fraction. -/
def toInt (v : Value) : Except Fault Int :=
  match v.unfold with
  | .bool b => .ok (if b then 1 else 0)
  | .int n => .ok n
  | .float .nan => .error (.value .nanToInt)
  | .float x =>
    match x.truncate? with
    | some n => .ok n
    | none => .error (.overflow .infinityToInt)
  | .str s => readInt 10 s.toList v.literal
  | .bytes data => readInt 10 (bytesText data) v.literal
  | _ => .error (.type (.notInteger v.qualifiedTypeName))

/-- A value as a floating-point number. -/
def toFloat (v : Value) : Except Fault Binary64 :=
  match v.unfold with
  | .bool b => .ok (Binary64.ofInt (if b then 1 else 0))
  | .int n =>
    let x := Binary64.ofInt n
    if x.isFinite then .ok x else .error (.overflow .intToFloat)
  | .float x => .ok x
  | .str s => readFloat s.toList v.literal
  | .bytes data => readFloat (bytesText data) v.literal
  | _ => .error (.type (.notFloating v.qualifiedTypeName))

/-- The members of a collection in order: the characters of a text, the keys of a mapping. -/
def members? (v : Value) : Option (List Value) :=
  match v.unfold with
  | .list items => some items
  | .pair a b => some [a, b]
  | .set items => some items
  | .map entries => some (entries.map (·.1))
  | .str s => some ((Text.points s.toList).map fun p => .str (String.ofList p.text))
  | .bytes data => some (data.map fun b => .int b.toNat)
  | _ => none

/-- The members of a collection. -/
def toMembers (v : Value) : Except Fault (List Value) :=
  match v.members? with
  | some items => .ok items
  | none => .error (.type (.notIterable v.qualifiedTypeName))

/-- A value that can be the key of a mapping or a member of a set. -/
def requireKey (v : Value) : Except Fault Unit :=
  match v.unkeyedType? with
  | none => .ok ()
  | some typeName => .error (.type (.notKey typeName))

/-- One entry from a member with exactly two members of its own. -/
def toEntry (index : Nat) (v : Value) : Except Fault (Value × Value) :=
  match v.members? with
  | none => .error (.type (.entryNotSequence index))
  | some [k, x] => do
    k.requireKey
    return (k, x)
  | some items => .error (.value (.entryLength index items.length))

/-- Adds the entries that members stand for, the first of them with the given index. -/
def addEntries : Nat → Entries → List Value → Except Fault Entries
  | _, acc, [] => .ok acc
  | index, acc, v :: vs => do
    let (k, x) ← toEntry index v
    addEntries (index + 1) (Entries.put acc k x) vs

/-- A value as a mapping: a mapping itself, or a collection of two-member collections. -/
def toEntries (v : Value) : Except Fault Entries :=
  match v.unfold with
  | .map entries => .ok entries
  | _ => do addEntries 0 [] (← v.toMembers)

end ChangeImpact.Value
