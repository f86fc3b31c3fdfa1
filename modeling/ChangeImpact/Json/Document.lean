import ChangeImpact.Fault
import ChangeImpact.Json.Reader
import ChangeImpact.Json.Writer

/-!
# Documents

What a value becomes when it is written as a document and read again. Pairs become lists and keys
become texts; of several keys with one text the last counts. Dates, bytes and sets cannot be written,
nor a collection that contains itself. A strict document, as it is sent, has finite numbers only, and
all its texts have an encoding.
-/

namespace ChangeImpact

namespace Json

/-- The text that stands for a key. -/
def keyText : Value → Except Fault String
  | .str s => .ok s
  | .null => .ok "null"
  | .bool b => .ok (if b then "true" else "false")
  | .int n => (Value.int n).toText
  | .float x => .ok (number x)
  | .named _ content => keyText content
  | v => .error (.type (.badDocumentKey v.typeName))

/-- A text as it is read back: two halves of a pair, written one after the other, become one
character. -/
def joined (s : String) : String :=
  if Text.hasHalf s then String.ofList (Text.ofPoints (Text.joinHalves (Text.points s.toList))) else s

mutual

/-- The value that is read back. -/
def reread : Value → Except Fault Value
  | .null => .ok .null
  | .bool b => .ok (.bool b)
  | .int n => if (Value.int n).isWritable then .ok (.int n) else .error (.value .unwritable)
  | .float x => .ok (.float x)
  | .str s => .ok (.str (joined s))
  | .list items => return .list (← rereadItems items)
  | .pair a b => return .list [← reread a, ← reread b]
  | .map entries => return .map (Entries.ofList (← rereadEntries entries))
  | .set items => .error (.type (.notEncodable (Value.set items).typeName))
  | .bytes data => .error (.type (.notEncodable (Value.bytes data).typeName))
  | .date d => .error (.type (.notEncodable (Value.date d).typeName))
  | .datetime t => .error (.type (.notEncodable (Value.datetime t).typeName))
  | .named _ content => reread content
  | .again _ => .error (.value .circular)
termination_by structural v => v

/-- Each of some values. -/
def rereadItems : List Value → Except Fault (List Value)
  | [] => .ok []
  | v :: vs => return (← reread v) :: (← rereadItems vs)
termination_by structural vs => vs

/-- An entry with its key as a text. -/
def rereadEntry : Value × Value → Except Fault (Value × Value)
  | (k, v) => return (.str (joined (← keyText k)), ← reread v)
termination_by structural e => e

/-- Each of some entries. -/
def rereadEntries : List (Value × Value) → Except Fault (List (Value × Value))
  | [] => .ok []
  | e :: es => return (← rereadEntry e) :: (← rereadEntries es)
termination_by structural es => es

end

/-- A value of the format as it arrives when it is sent. -/
def sent (v : Value) : Except Fault Value :=
  let infinite : Value → Bool
    | .float x => !x.isFinite
    | _ => false
  let halved : Value → Bool
    | .str s => Text.hasHalf s
    | _ => false
  if v.anyLeaf infinite then .error (.value .notFinite)
  else if v.anyLeaf halved then .error .unencodableText
  else .ok v

end Json

/-- A stored document: a value, or a text that cannot be read. -/
inductive Document where
  | value (v : Value)
  | unreadable (fault : Fault)
deriving Repr

namespace Document

/-- The document that a value is written as. -/
def ofValue (v : Value) : Except Fault Document := return .value (← Json.reread v)

/-- The document of a text. -/
def ofText (text : String) : Document :=
  match Json.read text.toList with
  | .ok v => .value v
  | .error ⟨.tooDeep, _⟩ => .unreadable .endless
  | .error failure => .unreadable (.value (.document (failure.message text.toList)))

/-- The value of a document. -/
def read : Document → Except Fault Value
  | .value v => .ok v
  | .unreadable fault => .error fault

end Document

end ChangeImpact
