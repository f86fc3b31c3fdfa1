import ChangeImpact.Text.Quoted
import ChangeImpact.Value.Basic

/-!
# Values in messages

`Value.literal` writes a value so that its type can be told: texts are quoted, lists stand in square
brackets, mappings in braces with a colon after each key. A collection inside itself is written as
three dots in its brackets. `Value.text` is the same except that a text on its own is bare.

An integer is written only up to a number of digits: `Value.isWritable` holds of the values without
a longer one.
-/

namespace ChangeImpact

/-- A text in quotes. -/
def quotedText (s : String) : String := String.ofList (Text.quoted s.toList)

namespace Value

/-- What stands for a collection inside itself. -/
def dots : Value → String
  | .pair .. => "(...)"
  | .map _ => "\x7b...\x7d"
  | .set _ => "set(...)"
  | _ => "[...]"

/-- Collections that are being written, by label, and what stands for them inside. -/
abbrev Open := List (Nat × String)

/-- What stands for a collection that is being written. -/
def Open.get? (around : Open) (label : Nat) : Option String :=
  (around.find? fun o => o.1 == label).map (·.2)

mutual

/-- A value as a literal inside others that are being written. -/
def literalIn (around : Open) : Value → String
  | .null => "None"
  | .bool b => if b then "True" else "False"
  | .int n => intText n
  | .float x => x.text
  | .str s => quotedText s
  | .list items => "[" ++ ", ".intercalate (literalsIn around items) ++ "]"
  | .pair a b => "(" ++ literalIn around a ++ ", " ++ literalIn around b ++ ")"
  | .map entries => "\x7b" ++ ", ".intercalate (entryLiteralsIn around entries) ++ "\x7d"
  | .set items =>
    if items.isEmpty then "set()"
    else "\x7b" ++ ", ".intercalate (literalsIn around items) ++ "\x7d"
  | .bytes data => String.ofList (Text.quotedBytes data)
  | .date d => d.literal
  | .datetime t => t.literal
  | .named label content =>
    match around.get? label with
    | some text => text
    | none => literalIn ((label, dots content) :: around) content
  | .again label => (around.get? label).getD "..."
termination_by structural v => v

/-- The literals of some values. -/
def literalsIn (around : Open) : List Value → List String
  | [] => []
  | v :: vs => literalIn around v :: literalsIn around vs
termination_by structural vs => vs

/-- An entry of a mapping as a literal. -/
def entryLiteralIn (around : Open) : Value × Value → String
  | (k, v) => literalIn around k ++ ": " ++ literalIn around v
termination_by structural e => e

/-- The literals of some entries. -/
def entryLiteralsIn (around : Open) : List (Value × Value) → List String
  | [] => []
  | e :: es => entryLiteralIn around e :: entryLiteralsIn around es
termination_by structural es => es

end

/-- A value as a literal. -/
def literal (v : Value) : String := literalIn [] v

/-- The first natural number that has too many digits to be written. -/
def writableBound : Nat := Nat.pow 10 4300

mutual

/-- A value without an integer of too many digits. -/
def isWritable : Value → Bool
  | .int n => n.natAbs < writableBound
  | .list items | .set items => allWritable items
  | .pair a b => isWritable a && isWritable b
  | .map entries => allEntriesWritable entries
  | .named _ content => isWritable content
  | _ => true
termination_by structural v => v

def allWritable : List Value → Bool
  | [] => true
  | v :: vs => isWritable v && allWritable vs
termination_by structural vs => vs

def entryWritable : Value × Value → Bool
  | (k, v) => isWritable k && isWritable v
termination_by structural e => e

def allEntriesWritable : List (Value × Value) → Bool
  | [] => true
  | e :: es => entryWritable e && allEntriesWritable es
termination_by structural es => es

end

/-- A value in running text. -/
def text : Value → String
  | .str s => s
  | .date d => d.text
  | .datetime t => t.textWith " "
  | v => v.literal

end Value

end ChangeImpact
