import ChangeImpact.Value.Display

/-!
# Closed vocabularies

The words a record may use: kinds of entities, dimensions and directions of edges, application
layers, kinds of changes, and whether a run was completed. Each is a type with finitely many members
that carry their written names.
-/

namespace ChangeImpact

/-- A finite vocabulary: its members in order, the word for each, and its title in messages. -/
class Vocabulary (α : Type) where
  title : String
  members : List α
  word : α → String

namespace Vocabulary

/-- The member written as a word. -/
def ofWord? (α : Type) [Vocabulary α] (s : String) : Option α :=
  (members : List α).find? fun m => word m == s

/-- The member a value stands for. -/
def ofValue? (α : Type) [Vocabulary α] : Value → Option α
  | .str s => ofWord? α s
  | _ => none

/-- All words of a vocabulary, separated by commas. -/
def listing (α : Type) [Vocabulary α] : String :=
  ", ".intercalate ((members : List α).map word)

end Vocabulary

/-- What a tracked artifact is. -/
inductive EntityKind where
  | function
  | type
  | apiRoute
  | configKey
  | test
  | dataSink
deriving DecidableEq, Repr, Inhabited

def EntityKind.word : EntityKind → String
  | .function => "Function"
  | .type => "Type"
  | .apiRoute => "ApiRoute"
  | .configKey => "ConfigKey"
  | .test => "Test"
  | .dataSink => "DataSink"

instance : Vocabulary EntityKind where
  title := "EntityKind"
  members := [.function, .type, .apiRoute, .configKey, .test, .dataSink]
  word := EntityKind.word

/-- Only types and routes carry a shape. -/
def EntityKind.mayHaveShape : EntityKind → Bool
  | .type | .apiRoute => true
  | _ => false

/-- What a dependency is about. -/
inductive Dimension where
  | reference
  | dataFlow
  | contract
  | config
  | consistency
deriving DecidableEq, Repr, Inhabited

def Dimension.word : Dimension → String
  | .reference => "Reference"
  | .dataFlow => "DataFlow"
  | .contract => "Contract"
  | .config => "Config"
  | .consistency => "Consistency"

instance : Vocabulary Dimension where
  title := "Dimension"
  members := [.reference, .dataFlow, .contract, .config, .consistency]
  word := Dimension.word

/-- The order of dimensions when several reach the same entity. -/
def Dimension.precedence : Dimension → Nat
  | .contract => 0
  | .consistency => 1
  | .dataFlow => 2
  | .reference => 3
  | .config => 4

/-- All dimensions in order of precedence. -/
def Dimension.byPrecedence : List Dimension :=
  [.contract, .consistency, .dataFlow, .reference, .config]

/-- How a change moves along an edge: forward from source to target, backward from target to
source. -/
inductive Direction where
  | forward
  | backward
deriving DecidableEq, Repr, Inhabited

def Direction.word : Direction → String
  | .forward => "forward"
  | .backward => "backward"

instance : Vocabulary Direction where
  title := "Direction"
  members := [.forward, .backward]
  word := Direction.word

/-- The part of an application an entity belongs to. -/
inductive Layer where
  | frontend
  | backend
  | shared
deriving DecidableEq, Repr, Inhabited

def Layer.word : Layer → String
  | .frontend => "frontend"
  | .backend => "backend"
  | .shared => "shared"

instance : Vocabulary Layer where
  title := "Layer"
  members := [.frontend, .backend, .shared]
  word := Layer.word

/-- What happened to a changed entity. -/
inductive ChangeKind where
  | added
  | removed
  | modified
deriving DecidableEq, Repr, Inhabited

def ChangeKind.word : ChangeKind → String
  | .added => "Added"
  | .removed => "Removed"
  | .modified => "Modified"

instance : Vocabulary ChangeKind where
  title := "ChangeKind"
  members := [.added, .removed, .modified]
  word := ChangeKind.word

/-- How a scan, a traversal or a report ended. -/
inductive Status where
  | completed
  | cancelled
deriving DecidableEq, Repr, Inhabited

def Status.word : Status → String
  | .completed => "completed"
  | .cancelled => "cancelled"

instance : Vocabulary Status where
  title := "ScanStatus"
  members := [.completed, .cancelled]
  word := Status.word

end ChangeImpact
