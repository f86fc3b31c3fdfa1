import ChangeImpact.Yaml.Tag
import ChangeImpact.Yaml.Token.Stream

/-!
# Nodes

A document is a tree of nodes with tags and marks. Every node has a number, and an alias stands for
the very node that its anchor names: the subtree occurs again, with its numbers and marks. An alias
inside the collection that its anchor names is a leaf that points back to it.
-/

namespace ChangeImpact.Yaml

/-- What every node has. -/
structure NodeInfo where
  /-- Nodes with one number are one node. -/
  number : Nat
  tag : String
  start : Mark
  stop : Mark
deriving DecidableEq, Repr, Inhabited

/-- A node of a document. -/
inductive Node where
  | scalar (info : NodeInfo) (text : String)
  | sequence (info : NodeInfo) (items : List Node)
  | mapping (info : NodeInfo) (entries : List (Node × Node))
  /-- The collection around this place with that number, which starts at the mark. -/
  | around (number : Nat) (start : Mark)
deriving Repr, Inhabited

namespace Node

def info : Node → NodeInfo
  | .scalar info _ | .sequence info _ | .mapping info _ => info
  | .around number start => { number, tag := Tag.map, start, stop := start }

def number (n : Node) : Nat := n.info.number

def tag (n : Node) : String := n.info.tag

def start (n : Node) : Mark := n.info.start

def stop (n : Node) : Mark := n.info.stop

end Node

end ChangeImpact.Yaml
