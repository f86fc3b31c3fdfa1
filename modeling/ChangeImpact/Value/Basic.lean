import ChangeImpact.Calendar

/-!
# Dynamic values

The values that documents hold: scalars, sequences and mappings of any depth. A mapping keeps its
entries in the order in which their keys first appeared, and its keys may be any scalars.

A few values have an identity of their own, given by a label: a collection that contains itself, every
collection on the way from it back to it, and a value that is not a number. Inside a collection with
a label, `again` and the label stand for the collection itself; outside of it they mean nothing.

* `Value.unfold` opens a value with a label: wherever it contains itself it stands there whole.
* `Value.same` is equality by value: numbers of different kinds are equal when they denote the same
  number, truth values count as zero and one, and the order of a mapping's entries does not matter.
  Values with labels are equal when their labels are.
* `Value.isVacant` holds of null, false, zero and everything empty.
* `Value.unkeyedType?` is none for the values that can be the key of a mapping.
-/

namespace ChangeImpact

/-- A dynamic value. -/
inductive Value where
  | null
  | bool (b : Bool)
  | int (n : Int)
  | float (x : Binary64)
  | str (s : String)
  | list (items : List Value)
  /-- One entry of a list of pairs. -/
  | pair (first second : Value)
  | map (entries : List (Value × Value))
  | set (items : List Value)
  | bytes (data : List UInt8)
  | date (d : Date)
  | datetime (t : DateTime)
  /-- A value with an identity of its own. -/
  | named (label : Nat) (content : Value)
  /-- The value around this place that has the label. -/
  | again (label : Nat)
deriving Repr, Inhabited

/-- The entries of a mapping, in order. -/
abbrev Entries := List (Value × Value)

namespace Value

mutual

/-- Puts a value in all places that stand for the label. -/
def tie (label : Nat) (whole : Value) : Value → Value
  | .again l => if l == label then whole else .again l
  | .named l content => .named l (if l == label then content else tie label whole content)
  | .list items => .list (tieItems label whole items)
  | .pair a b => .pair (tie label whole a) (tie label whole b)
  | .map entries => .map (tieEntries label whole entries)
  | .set items => .set (tieItems label whole items)
  | v => v
termination_by structural v => v

def tieItems (label : Nat) (whole : Value) : List Value → List Value
  | [] => []
  | v :: vs => tie label whole v :: tieItems label whole vs
termination_by structural vs => vs

def tieEntry (label : Nat) (whole : Value) : Value × Value → Value × Value
  | (k, v) => (tie label whole k, tie label whole v)
termination_by structural e => e

def tieEntries (label : Nat) (whole : Value) : List (Value × Value) → List (Value × Value)
  | [] => []
  | e :: es => tieEntry label whole e :: tieEntries label whole es
termination_by structural es => es

end

/-- A value without a label of its own, in which the whole stands in its place. -/
def unfold : Value → Value
  | .named label content => tie label (.named label content) content
  | v => v

mutual

/-- Some part of a value that is no collection satisfies a predicate. -/
def anyLeaf (p : Value → Bool) : Value → Bool
  | .named _ content => anyLeaf p content
  | .list items | .set items => anyLeafOf p items
  | .pair a b => anyLeaf p a || anyLeaf p b
  | .map entries => anyLeafWithin p entries
  | v => p v
termination_by structural v => v

/-- Some part of some values. -/
def anyLeafOf (p : Value → Bool) : List Value → Bool
  | [] => false
  | v :: vs => anyLeaf p v || anyLeafOf p vs
termination_by structural vs => vs

/-- Some part of an entry. -/
def anyLeafIn (p : Value → Bool) : Value × Value → Bool
  | (k, v) => anyLeaf p k || anyLeaf p v
termination_by structural e => e

/-- Some part of some entries. -/
def anyLeafWithin (p : Value → Bool) : List (Value × Value) → Bool
  | [] => false
  | e :: es => anyLeafIn p e || anyLeafWithin p es
termination_by structural es => es

end

/-- A value that contains itself, or contains one that does. -/
def isEndless (v : Value) : Bool := v.anyLeaf fun
  | .again _ => true
  | _ => false

/-- The number a scalar stands for: truth values count as zero and one. -/
inductive Numeric where
  | int (n : Int)
  | float (x : Binary64)

/-- A scalar as a number. -/
def numeric? : Value → Option Numeric
  | .bool b => some (.int (if b then 1 else 0))
  | .int n => some (.int n)
  | .float x => some (.float x)
  | .named _ content => content.numeric?
  | _ => none

namespace Numeric

/-- Compares two numbers by value; none when either is not a number. -/
def compare? : Numeric → Numeric → Option Ordering
  | .int a, .int b => some (Ord.compare a b)
  | .int a, .float y => y.position?.map fun p => (Binary64.Position.ofInt a).compare p
  | .float x, .int b => x.position?.map fun p => p.compare (Binary64.Position.ofInt b)
  | .float x, .float y => x.compare? y

/-- Equality by value; a value that is not a number equals itself. -/
def same : Numeric → Numeric → Bool
  | .float x, .float y => x.same y
  | a, b => a.compare? b == some .eq

def isZero : Numeric → Bool
  | .int n => n == 0
  | .float x => x.isZero

end Numeric

/-- A value that is not a number. -/
def isNan : Value → Bool
  | .float .nan => true
  | .named _ content => content.isNan
  | _ => false

/-- A scalar denotes the given number. -/
def denotes (v : Value) (n : Numeric) : Bool :=
  match v, v.numeric? with
  | .named .., _ | _, none => false
  | _, some m => n.same m

mutual

/-- Equality by value. -/
def same : Value → Value → Bool
  | .null, .null => true
  | .bool a, v => v.denotes (.int (if a then 1 else 0))
  | .int a, v => v.denotes (.int a)
  | .float a, v => v.denotes (.float a)
  | .str a, .str b => a == b
  | .list xs, .list ys => sameItems xs ys
  | .pair a b, .pair c d => same a c && same b d
  | .map xs, .map ys => xs.length == ys.length && entriesWithin xs ys
  | .set xs, .set ys => xs.length == ys.length && itemsWithin xs ys
  | .bytes a, .bytes b => a == b
  | .date a, .date b => a == b
  | .datetime a, .datetime b => a.same b
  | .named a _, .named b _ => a == b
  | .again a, .again b => a == b
  | _, _ => false
termination_by structural v => v

/-- The items are equal one by one. -/
def sameItems : List Value → List Value → Bool
  | [], ys => ys.isEmpty
  | _ :: _, [] => false
  | x :: xs, y :: ys => same x y && sameItems xs ys
termination_by structural xs => xs

/-- Every item is among the others. -/
def itemsWithin : List Value → List Value → Bool
  | [], _ => true
  | x :: xs, ys => ys.any (fun y => same x y) && itemsWithin xs ys
termination_by structural xs => xs

/-- The entry is among the others. -/
def entryWithin : Value × Value → List (Value × Value) → Bool
  | (k, v), ys => ys.any fun e => same k e.1 && same v e.2
termination_by structural e => e

/-- Every entry is among the others. -/
def entriesWithin : List (Value × Value) → List (Value × Value) → Bool
  | [], _ => true
  | e :: xs, ys => entryWithin e ys && entriesWithin xs ys
termination_by structural xs => xs

end

/-- Null, false, zero, or an empty text or collection. -/
def isVacant : Value → Bool
  | .null => true
  | .bool b => !b
  | .int n => n == 0
  | .float x => x.isZero
  | .str s => s.isEmpty
  | .list xs => xs.isEmpty
  | .map es => es.isEmpty
  | .set xs => xs.isEmpty
  | .bytes b => b.isEmpty
  | .named _ content => content.isVacant
  | .pair .. | .date _ | .datetime _ | .again _ => false

/-- The name of a value's type. -/
def typeName : Value → String
  | .null => "NoneType"
  | .bool _ => "bool"
  | .int _ => "int"
  | .float _ => "float"
  | .str _ => "str"
  | .list _ => "list"
  | .pair .. => "tuple"
  | .map _ => "dict"
  | .set _ => "set"
  | .bytes _ => "bytes"
  | .date _ => "date"
  | .datetime _ => "datetime"
  | .named _ content => content.typeName
  | .again _ => "object"

/-- The type of the first collection that keeps a value from being the key of a mapping. -/
def unkeyedType? : Value → Option String
  | .pair a b => a.unkeyedType? <|> b.unkeyedType?
  | .named _ content => content.unkeyedType?
  | .list items => some (typeName (.list items))
  | .map entries => some (typeName (.map entries))
  | .set items => some (typeName (.set items))
  | _ => none

/-- The name of a value's type with the module it belongs to. -/
def qualifiedTypeName : Value → String
  | .date _ => "datetime.date"
  | .datetime _ => "datetime.datetime"
  | v => v.typeName

end Value

namespace Entries

/-- The value of a key. -/
def get? (entries : Entries) (key : Value) : Option Value :=
  (entries.find? fun e => e.1.same key).map (·.2)

/-- The value of a text key. -/
def lookup? (entries : Entries) (name : String) : Option Value := get? entries (.str name)

/-- The value of a text key, null when there is none. -/
def lookup (entries : Entries) (name : String) : Value := (lookup? entries name).getD .null

/-- The value of a text key, or a default when there is none. -/
def lookupD (entries : Entries) (name : String) (default : Value) : Value :=
  (lookup? entries name).getD default

def hasName (entries : Entries) (name : String) : Bool := (lookup? entries name).isSome

/-- Sets the value of a key: in place if the key is present, else at the end. -/
def put {α : Type} : List (Value × α) → Value → α → List (Value × α)
  | [], key, value => [(key, value)]
  | (k, v) :: rest, key, value =>
    if k.same key then (k, value) :: rest else (k, v) :: put rest key value

/-- Sets the value of a text key. -/
def putName (entries : Entries) (name : String) (value : Value) : Entries :=
  put entries (.str name) value

/-- The entries with the later of two equal keys winning and the earlier keeping its place. -/
def ofList {α : Type} (entries : List (Value × α)) : List (Value × α) :=
  entries.foldl (fun acc e => put acc e.1 e.2) []

end Entries

/-- A mapping with text keys, as given. -/
def Value.record (fields : List (String × Value)) : Value :=
  .map (fields.map fun f => (.str f.1, f.2))

/-- A list of texts. -/
def Value.texts (items : List String) : Value := .list (items.map .str)

/-- A natural number. -/
def Value.nat (n : Nat) : Value := .int n

/-- A text or null. -/
def Value.text? (s : Option String) : Value :=
  match s with
  | some s => .str s
  | none => .null

end ChangeImpact
