import ChangeImpact.Table
import ChangeImpact.Value.Display

/-!
# Schemas

A schema is a list of rules on a value. A rule on values of another type than its own says nothing,
so that only the rule on types refuses them. `Schema.violations` lists what a value breaks, in the
order of the rules.
-/

namespace ChangeImpact

/-- The types of document values. -/
inductive ValueType where
  | object
  | array
  | string
  | number
  | integer
  | boolean
  | null
deriving DecidableEq, Repr

namespace ValueType

def word : ValueType → String
  | .object => "object"
  | .array => "array"
  | .string => "string"
  | .number => "number"
  | .integer => "integer"
  | .boolean => "boolean"
  | .null => "null"

/-- A value has a type. Truth values are no numbers, and a number without a fraction is an
integer. -/
def holds : ValueType → Value → Bool
  | .object, .map _ | .array, .list _ | .string, .str _ | .boolean, .bool _ | .null, .null => true
  | .number, .int _ | .number, .float _ | .integer, .int _ => true
  | .integer, .float x => x.isIntegral
  | _, _ => false

end ValueType

/-- A rule on values. -/
inductive Rule where
  /-- The value has one of some types. -/
  | type (types : List ValueType)
  /-- The value is one of some. -/
  | oneOf (values : List Value)
  /-- The value is a given one. -/
  | equals (value : Value)
  /-- A number is not less. -/
  | atLeast (bound : Int)
  /-- A number is not greater. -/
  | atMost (bound : Int)
  /-- A text has a character. -/
  | someText
  /-- A list has an item. -/
  | someItems
  /-- Rules on the entries of a mapping, by name. -/
  | fields (rules : List (String × List Rule))
  /-- A mapping has some names. -/
  | required (names : List String)
  /-- A mapping has no other names. -/
  | only (names : List String)
  /-- Rules on all entries of a mapping. -/
  | values (rules : List Rule)
  /-- Rules on all items of a list. -/
  | items (rules : List Rule)

abbrev Schema := List Rule

/-- Where a value breaks a rule, and how. -/
structure Violation where
  path : List String
  message : String
deriving DecidableEq, Repr

/-- A violation as text. -/
def Violation.text (v : Violation) : String :=
  let place := "/".intercalate v.path
  (if place.isEmpty then "<root>" else place) ++ ": " ++ v.message

namespace Schema

/-- A violation at a path, if the condition holds. -/
def reportIf (broken : Bool) (path : List String) (message : String) : List Violation :=
  if broken then [⟨path, message⟩] else []

/-- A number stands to a bound in the given way; anything else does not. -/
def stands (v : Value) (bound : Int) (way : Ordering) : Bool :=
  match v with
  | .int _ | .float _ =>
    match v.numeric? with
    | some n => n.compare? (.int bound) == some way
    | none => false
  | _ => false

def quotedWords (words : List String) : String := ", ".intercalate (words.map quotedText)

/-- The names of a mapping that are not among some, in order. -/
def otherNames (names : List String) (entries : Entries) : List String :=
  sortTexts ((entries.map fun e => e.1.text).filter fun n => !names.contains n)

/-- The refusal of names. -/
def refusal (names : List String) : String :=
  "Additional properties are not allowed (" ++ quotedWords names ++
    (if names.length = 1 then " was" else " were") ++ " unexpected)"

mutual

/-- What a value breaks of a rule. -/
def ruleViolations (path : List String) : Rule → Value → List Violation
  | .type types, v =>
    reportIf (!types.any fun t => t.holds v) path
      (v.literal ++ " is not of type " ++ quotedWords (types.map ValueType.word))
  | .oneOf values, v =>
    reportIf (!values.any v.same) path (v.literal ++ " is not one of " ++ (Value.list values).literal)
  | .equals value, v => reportIf (!value.same v) path (value.literal ++ " was expected")
  | .atLeast bound, v =>
    reportIf (stands v bound .lt) path
      (v.literal ++ " is less than the minimum of " ++ intText bound)
  | .atMost bound, v =>
    reportIf (stands v bound .gt) path
      (v.literal ++ " is greater than the maximum of " ++ intText bound)
  | .someText, v =>
    match v with
    | .str s => reportIf s.isEmpty path (v.literal ++ " should be non-empty")
    | _ => []
  | .someItems, v =>
    match v with
    | .list vs => reportIf vs.isEmpty path (v.literal ++ " should be non-empty")
    | _ => []
  | .fields rules, v =>
    match v with
    | .map entries => fieldsViolations path rules entries
    | _ => []
  | .required names, v =>
    match v with
    | .map entries => names.flatMap fun n =>
      reportIf (!Entries.hasName entries n) path (quotedText n ++ " is a required property")
    | _ => []
  | .only names, v =>
    match v with
    | .map entries =>
      let others := otherNames names entries
      reportIf (!others.isEmpty) path (refusal others)
    | _ => []
  | .values rules, v =>
    match v with
    | .map entries => entries.flatMap fun e => violations (path ++ [e.1.text]) rules e.2
    | _ => []
  | .items rules, v =>
    match v with
    | .list vs => vs.zipIdx.flatMap fun x => violations (path ++ [natText x.2]) rules x.1
    | _ => []
termination_by structural r => r

/-- What a value breaks of some rules, in order. -/
def violations (path : List String) : List Rule → Value → List Violation
  | [], _ => []
  | r :: rs, v => ruleViolations path r v ++ violations path rs v
termination_by structural rs => rs

/-- What the entry of a name breaks. -/
def fieldViolations (path : List String) : String × List Rule → Entries → List Violation
  | (name, rules), entries =>
    match Entries.lookup? entries name with
    | some v => violations (path ++ [name]) rules v
    | none => []
termination_by structural f => f

/-- What the entries of some names break. -/
def fieldsViolations (path : List String) : List (String × List Rule) → Entries → List Violation
  | [], _ => []
  | f :: fs, entries => fieldViolations path f entries ++ fieldsViolations path fs entries
termination_by structural fs => fs

end

/-- All that a value breaks, as texts in the order of the places. -/
def check (schema : Schema) (v : Value) : List String :=
  (sortByRank Violation.path (violations [] schema v)).map Violation.text

def text : Schema := [.type [.string]]

def text? : Schema := [.type [.string, .null]]

def textList : Schema := [.type [.array], .items text]

/-- One of some words. -/
def word (words : List String) : Schema := [.type [.string], .oneOf (words.map .str)]

/-- An integer that is not less than a bound. -/
def count (bound : Int) : Schema := [.type [.integer], .atLeast bound]

/-- A number between zero and one. -/
def share : Schema := [.type [.number], .atLeast 0, .atMost 1]

def listOf (schema : Schema) : Schema := [.type [.array], .items schema]

/-- A mapping with some fields, of which some are required. -/
def object (fields : List (String × Schema)) (names : List String) : Schema :=
  [.type [.object], .fields fields, .required names]

/-- A mapping with some fields and no others. -/
def closedObject (fields : List (String × Schema)) (names : List String) : Schema :=
  object fields names ++ [.only (fields.map (·.1))]

/-- Any mapping. -/
def mapping : Schema := [.type [.object]]

end Schema

end ChangeImpact
