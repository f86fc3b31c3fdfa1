import ChangeImpact.Number.Numeral
import ChangeImpact.Text.Blank
import ChangeImpact.Text.Split
import ChangeImpact.Value.Display

/-!
# Reading requests

A request is read field by field. Every value that does not fit is a problem with its place, and all
problems of a request are reported together. Numbers and truth values may be written as texts.
-/

namespace ChangeImpact.Service

/-- Why a value of a request does not fit. -/
inductive ProblemKind where
  | missing
  | notMapping
  | notList
  | notText
  | notFlag
  | unreadableFlag
  | notInteger
  | unreadableInteger
  | longInteger
  | fractional
  | infinite
  | tooSmall
  | notMember
  | patternMismatch
  | notObject
deriving DecidableEq, Repr

def ProblemKind.word : ProblemKind → String
  | .missing => "missing"
  | .notMapping => "dict_type"
  | .notList => "list_type"
  | .notText => "string_type"
  | .notFlag => "bool_type"
  | .unreadableFlag => "bool_parsing"
  | .notInteger => "int_type"
  | .unreadableInteger => "int_parsing"
  | .longInteger => "int_parsing_size"
  | .fractional => "int_from_float"
  | .infinite => "finite_number"
  | .tooSmall => "greater_than_equal"
  | .notMember => "literal_error"
  | .patternMismatch => "string_pattern_mismatch"
  | .notObject => "model_attributes_type"

/-- One step to a place in a request. -/
inductive Step where
  | name (s : String)
  | index (n : Nat)
deriving DecidableEq, Repr

def Step.value : Step → Value
  | .name s => .str s
  | .index n => .nat n

abbrev Place := List Step

/-- A value that does not fit, and where it stands. -/
structure Problem where
  kind : ProblemKind
  place : Place
deriving DecidableEq, Repr

def Problem.toRecord (p : Problem) : Value :=
  .record [("type", .str p.kind.word), ("loc", .list (p.place.map Step.value))]

/-- What was read, or all problems. -/
abbrev Read (α : Type) := Except (List Problem) α

/-- Reads a value at a place. -/
abbrev Reader (α : Type) := Place → Value → Read α

namespace Read

variable {α β : Type}

def problem (kind : ProblemKind) (place : Place) : Read α := .error [⟨kind, place⟩]

/-- The problems of something read. -/
def problems : Read α → List Problem
  | .ok _ => []
  | .error ps => ps

/-- Two things read, with the problems of both. -/
def both (a : Read α) (b : Read β) : Read (α × β) :=
  match a, b with
  | .ok x, .ok y => .ok (x, y)
  | a, b => .error (a.problems ++ b.problems)

/-- Several things read, with the problems of all. -/
def all : List (Read α) → Read (List α)
  | [] => .ok []
  | a :: as => (both a (all as)).map fun p => p.1 :: p.2

end Read

/-- A text. -/
def text : Reader String := fun place v =>
  match v with
  | .str s => .ok s
  | _ => .problem .notText place

/-- One of some words. -/
def member (words : List String) : Reader String := fun place v =>
  match v with
  | .str s => if words.contains s then .ok s else .problem .notMember place
  | _ => .problem .notMember place

/-- Null or what another reader reads. -/
def optional {α : Type} (reader : Reader α) : Reader (Option α) := fun place v =>
  match v with
  | .null => .ok none
  | _ => (reader place v).map some

/-- A list of what another reader reads. -/
def listOf {α : Type} (reader : Reader α) : Reader (List α) := fun place v =>
  match v with
  | .list items => .all (items.zipIdx.map fun x => reader (place ++ [.index x.2]) x.1)
  | _ => .problem .notList place

/-- A mapping to what another reader reads. -/
def mappingOf {α : Type} (reader : Reader α) : Reader (List (String × α)) := fun place v =>
  match v with
  | .map entries => .all (entries.map fun e =>
      (reader (place ++ [.name e.1.text]) e.2).map fun x => (e.1.text, x))
  | _ => .problem .notMapping place

/-- The truth value that a word stands for, in any case. -/
def flagWord? (s : String) : Option Bool :=
  let word := String.ofList (s.toList.map Char.toLower)
  if ["1", "on", "t", "true", "y", "yes"].contains word then some true
  else if ["0", "off", "f", "false", "n", "no"].contains word then some false
  else none

/-- The integers of a machine word. -/
def isWord (n : Int) : Bool := -Int.pow 2 63 ≤ n && n < Int.pow 2 63

/-- The truth value that an integer stands for. -/
def flagInteger? (n : Int) : Option Bool :=
  if n = 0 then some false else if n = 1 then some true else none

/-- A truth value, also as a word or as zero or one. A number that is no machine word is not looked
at. -/
def flag : Reader Bool := fun place v =>
  let read (b : Option Bool) : Read Bool := match b with
    | some b => .ok b
    | none => .problem .unreadableFlag place
  match v with
  | .bool b => .ok b
  | .str s => read (flagWord? s)
  | .int n => if isWord n then read (flagInteger? n) else .problem .notFlag place
  | .float x =>
    match x.truncate? with
    | some n =>
      if x.isIntegral && isWord n && n != -Int.pow 2 63 then read (flagInteger? n)
      else .problem .notFlag place
    | none => .problem .notFlag place
  | _ => .problem .notFlag place

/-- A blank at the end of a number. -/
def isNumberBlank (c : Char) : Bool := Text.isBlank c && !(0x1c ≤ c.toNat && c.toNat ≤ 0x1f)

/-- The most digits of an integer's literal. -/
def longestLiteral : Nat := 4300

/-- The integer that a literal denotes: digits without needless zeros, and maybe a minus sign. -/
def literalInteger (cs : List Char) : Except ProblemKind Int :=
  let negative := cs.head? == some '-'
  let digits := if negative then cs.tail else cs
  let run := digits.takeWhile Char.isDigit
  if run.isEmpty then .error .unreadableInteger
  else if run.head? == some '0' then
    if digits == ['0'] then .ok 0 else .error .unreadableInteger
  else if longestLiteral < run.length then .error .longInteger
  else if run.length < digits.length then .error .unreadableInteger
  else
    let n : Nat := run.foldl (fun n c => 10 * n + (c.toNat - '0'.toNat)) 0
    .ok (if negative then -(n : Int) else n)

/-- Drops zeros and underscores up to the first digit that counts or a minus sign. The last of them
stays at the end of the text and in front of a decimal point. -/
def dropZeros : (last : Char) → List Char → Option (List Char)
  | last, [] => some [last]
  | last, c :: cs =>
    if c == '0' || c == '_' then dropZeros c cs
    else if c == '-' || c.isDigit then some (c :: cs)
    else if c == '.' then some (last :: c :: cs)
    else none

/-- Drops the zeros in front of a number, which starts with a digit or a minus sign. -/
def dropLeadingZeros : List Char → Option (List Char)
  | [] => none
  | c :: cs =>
    if c == '0' then dropZeros c cs
    else if c == '-' || c.isDigit then some (c :: cs)
    else none

/-- Drops a plus sign in front, which no minus sign may follow. -/
def dropPlus : List Char → Option (List Char)
  | '+' :: '-' :: _ => none
  | '+' :: cs => some cs
  | cs => some cs

/-- Drops a decimal point with zeros only after it. -/
def dropZeroFraction (cs : List Char) : List Char :=
  let fraction := Text.afterFirst '.' cs
  if !fraction.isEmpty && fraction.all (· == '0') then Text.beforeFirst '.' cs else cs

/-- Drops underscores that stand apart between other characters. -/
def dropUnderscores (cs : List Char) : List Char :=
  if Numeral.isGrouped true cs then cs.filter (· != '_') else cs

/-- Drops the zeros in front of a number, behind a minus sign if it has one. -/
def dropNeedlessZeros : List Char → Option (List Char)
  | '-' :: cs => (dropLeadingZeros cs).map ('-' :: ·)
  | cs => dropLeadingZeros cs

/-- The literal that a text with blanks, a plus sign, needless zeros or underscores stands for. -/
def plainLiteral? (cs : List Char) : Option (List Char) := do
  let unsigned ← dropPlus (Text.trimWhile isNumberBlank cs)
  let significant ← dropNeedlessZeros unsigned
  return dropUnderscores (dropZeroFraction significant)

/-- The integer that a text stands for. Only a text that is a literal as it stands can be too long. -/
def integerText (s : String) : Except ProblemKind Int :=
  match literalInteger s.toList with
  | .error .unreadableInteger =>
    match (plainLiteral? s.toList).map literalInteger with
    | some (.ok n) => .ok n
    | _ => .error .unreadableInteger
  | result => result

/-- An integer, also as a text or as a number without a fraction. -/
def integer : Reader Int := fun place v =>
  match v with
  | .int n => .ok n
  | .bool b => .ok (if b then 1 else 0)
  | .float x =>
    match x.truncate? with
    | some n =>
      if !x.isIntegral then .problem .fractional place
      else if isWord n && n != -Int.pow 2 63 then .ok n
      else .problem .longInteger place
    | none => .problem .infinite place
  | .str s => (integerText s).mapError fun kind => [⟨kind, place⟩]
  | _ => .problem .notInteger place

/-- An integer that is not less than a bound. -/
def integerFrom (bound : Int) : Reader Int := fun place v =>
  match integer place v with
  | .ok n => if n < bound then .problem .tooSmall place else .ok n
  | .error ps => .error ps

/-- A field that must be there. -/
def required {α : Type} (entries : Entries) (place : Place) (name : String) (reader : Reader α) :
    Read α :=
  match Entries.lookup? entries name with
  | some v => reader (place ++ [.name name]) v
  | none => .problem .missing (place ++ [.name name])

/-- A field with a default. -/
def field {α : Type} (entries : Entries) (place : Place) (name : String) (default : α)
    (reader : Reader α) : Read α :=
  match Entries.lookup? entries name with
  | some v => reader (place ++ [.name name]) v
  | none => .ok default

end ChangeImpact.Service
