import ChangeImpact.Yaml.Node
import Std.Data.TreeMap

/-!
# Nodes by number

The nodes of a document, each of them once, with the numbers of their items and entries in place of
the items and entries themselves. What is done to a node here is seen wherever the node occurs.
-/

namespace ChangeImpact.Yaml

/-- The form of a node. -/
inductive CellForm where
  | scalar (text : String)
  | sequence (items : List Nat)
  | mapping (entries : List (Nat × Nat))
deriving DecidableEq, Repr, Inhabited

/-- The word for a form in messages. -/
def CellForm.word : CellForm → String
  | .scalar _ => "scalar"
  | .sequence _ => "sequence"
  | .mapping _ => "mapping"

/-- A node by itself. -/
structure Cell where
  tag : String
  start : Mark
  form : CellForm
deriving DecidableEq, Repr, Inhabited

abbrev NodeTable := Std.TreeMap Nat Cell

namespace NodeTable

/-- The node with a number. -/
def cell (t : NodeTable) (number : Nat) : Cell := t.getD number default

/-- The entries of a mapping. -/
def entries (t : NodeTable) (number : Nat) : List (Nat × Nat) :=
  match (t.cell number).form with
  | .mapping es => es
  | _ => []

/-- Sets the entries of a mapping. -/
def setEntries (t : NodeTable) (number : Nat) (entries : List (Nat × Nat)) : NodeTable :=
  t.insert number { t.cell number with form := .mapping entries }

/-- Sets the tag of a node. -/
def setTag (t : NodeTable) (number : Nat) (tag : String) : NodeTable :=
  t.insert number { t.cell number with tag }

/-- The number of entries of all mappings. -/
def entryCount (t : NodeTable) : Nat :=
  t.foldl (fun n _ c => n + match c.form with
    | .mapping es => es.length
    | _ => 0) 0

mutual

/-- Adds a node and those below it, unless it is there. -/
def add : Node → NodeTable → NodeTable
  | .scalar info text, t =>
    if t.contains info.number then t
    else t.insert info.number { tag := info.tag, start := info.start, form := .scalar text }
  | .sequence info items, t =>
    if t.contains info.number then t
    else
      let form := CellForm.sequence (items.map Node.number)
      addItems items (t.insert info.number { tag := info.tag, start := info.start, form })
  | .mapping info entries, t =>
    if t.contains info.number then t
    else
      let form := CellForm.mapping (entries.map fun e => (e.1.number, e.2.number))
      addEntries entries (t.insert info.number { tag := info.tag, start := info.start, form })
  | .around .., t => t
termination_by structural n => n

def addItems : List Node → NodeTable → NodeTable
  | [], t => t
  | n :: ns, t => addItems ns (add n t)
termination_by structural ns => ns

def addEntry : Node × Node → NodeTable → NodeTable
  | (k, v), t => add v (add k t)
termination_by structural e => e

def addEntries : List (Node × Node) → NodeTable → NodeTable
  | [], t => t
  | e :: es, t => addEntries es (addEntry e t)
termination_by structural es => es

end

/-- The nodes of a document. -/
def ofNode (root : Node) : NodeTable := add root {}

end NodeTable

end ChangeImpact.Yaml
