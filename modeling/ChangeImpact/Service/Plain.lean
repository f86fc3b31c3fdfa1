import ChangeImpact.Text.Utf8
import ChangeImpact.Value.Display

/-!
# Bodies of replies

A reply holds only what a document can hold: keys become texts, dates become texts, pairs and sets
become lists, bytes are the text they encode, and numbers without digits become null. Bytes that
encode no text cannot be sent, nor a text without bytes, nor a value that contains itself or is nested
too deep.
-/

namespace ChangeImpact.Service

/-- A date and time as it is sent; the zero offset is written `Z`. -/
def momentText (t : DateTime) : String :=
  if t.offset = some 0 then { t with offset := none }.textWith "T" ++ "Z" else t.textWith "T"

/-- The text that bytes encode. -/
def bytesText? (data : List UInt8) : Option String :=
  match Text.Utf8.decode data with
  | .ok cs => some (String.ofList cs)
  | .error _ => none

/-- The text that a key is sent as. -/
def keyText? : Value → Option String
  | .null => some "None"
  | .bool b => some (if b then "true" else "false")
  | .pair a b => do return (← keyText? a) ++ "," ++ (← keyText? b)
  | .bytes data => bytesText? data
  | .date d => some d.text
  | .datetime t => some (momentText t)
  | .named _ content => keyText? content
  | v => if v.isWritable then some v.text else none

mutual

/-- A value as it is sent. -/
def plain? : Value → Option Value
  | .null => some .null
  | .bool b => some (.bool b)
  | .int n => if (Value.int n).isWritable then some (.int n) else none
  | .float x => some (if x.isFinite then .float x else .null)
  | .str s => if Text.hasHalf s then none else some (.str s)
  | .list items => (plainItems? items).map .list
  | .pair a b => do return .list [← plain? a, ← plain? b]
  | .map entries => (plainEntries? entries).map fun es => .map (Entries.ofList es)
  | .set items => (plainItems? items).map .list
  | .bytes data => (bytesText? data).map .str
  | .date d => some (.str d.text)
  | .datetime t => some (.str (momentText t))
  | .named _ content => plain? content
  | .again _ => none
termination_by structural v => v

/-- Each of some values. -/
def plainItems? : List Value → Option (List Value)
  | [] => some []
  | v :: vs => do return (← plain? v) :: (← plainItems? vs)
termination_by structural vs => vs

/-- An entry. -/
def plainEntry? : Value × Value → Option (Value × Value)
  | (k, v) => do
    let key ← keyText? k
    if Text.hasHalf key then none
    return (.str key, ← plain? v)
termination_by structural e => e

/-- Each of some entries. -/
def plainEntries? : List (Value × Value) → Option (List (Value × Value))
  | [] => some []
  | e :: es => do return (← plainEntry? e) :: (← plainEntries? es)
termination_by structural es => es

end

mutual

/-- The number of values on the longest way down. -/
def depth : Value → Nat
  | .list items | .set items => depthItems items + 1
  | .pair a b => max (depth a) (depth b) + 1
  | .map entries => depthEntries entries + 1
  | .named _ content => depth content
  | _ => 1
termination_by structural v => v

def depthItems : List Value → Nat
  | [] => 0
  | v :: vs => max (depth v) (depthItems vs)
termination_by structural vs => vs

def depthEntry : Value × Value → Nat
  | (_, v) => depth v
termination_by structural e => e

def depthEntries : List (Value × Value) → Nat
  | [] => 0
  | e :: es => max (depthEntry e) (depthEntries es)
termination_by structural es => es

end

/-- The greatest depth of a body that can be sent. -/
def deepest : Nat := 255

/-- A body as it is sent, none if it cannot be. -/
def sendable? (body : Value) : Option Value :=
  if deepest < depth body then none else plain? body

end ChangeImpact.Service
