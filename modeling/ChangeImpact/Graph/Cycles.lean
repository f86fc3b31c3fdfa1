import ChangeImpact.Graph.Snapshot

/-!
# Reachability, cycles and critical entities

`Reach.closure` are the nodes that can be reached from some nodes. A cycle is a set of more than one
entity each of which a change at any other one reaches; an entity is critical when many others depend
on it.
-/

namespace ChangeImpact

namespace Reach

/-- Adds what can be reached in at most `fuel` steps from the frontier. -/
def closeFrom (next : String → List String) :
    (fuel : Nat) → (seen frontier : List String) → List String
  | 0, seen, _ => seen
  | fuel + 1, seen, frontier =>
    let new := keepFirst (· == ·) ((frontier.flatMap next).filter fun x => !seen.contains x)
    if new.isEmpty then seen else closeFrom next fuel (seen ++ new) new

/-- All nodes that can be reached from a node of a graph with `size` nodes, itself included. -/
def closure (size : Nat) (next : String → List String) (start : String) : List String :=
  closeFrom next size [start] [start]

end Reach

namespace Snapshot

/-- The entities of the graph that a change at an entity reaches over one edge, in order. -/
def successors (s : Snapshot) (id : String) : List String := (s.dependents id).filter s.has

/-- The entities that a change at an entity reaches over any number of edges, itself included. -/
def reachable (s : Snapshot) (id : String) : List String :=
  Reach.closure s.entities.length s.successors id

/-- For each entity, in order, the entities of its cycle. -/
def components (s : Snapshot) : List (String × List String) :=
  let reach := s.ids.map fun id => (id, s.reachable id)
  reach.map fun x => (x.1, (reach.filter fun y => x.2.contains y.1 && y.2.contains x.1).map (·.1))

/-- The sets of more than one entity that reach each other, each in order, by their first
members. -/
def cycles (s : Snapshot) : List (List String) :=
  (s.components.filter fun c => c.2.length > 1 && c.2.head? == some c.1).map (·.2)

/-- How much depends on an entity, in words. -/
def riskLevel (dependents : Nat) : String :=
  if dependents > 20 then "critical"
  else if dependents > 10 then "high"
  else if dependents > 5 then "medium"
  else "low"

/-- An entity with its dependents. -/
structure Critical where
  id : String
  dependents : List String
deriving DecidableEq, Repr

def Critical.toRecord (c : Critical) : Value :=
  .record [("entity_id", .str c.id), ("dependent_count", .nat c.dependents.length),
    ("dependents", .texts c.dependents), ("risk_level", .str (riskLevel c.dependents.length))]

/-- A count reaches a threshold, which must be a number. -/
def reaches (threshold : Value) (count : Nat) : Except Fault Bool :=
  match threshold.numeric? with
  | some t => .ok (match t.compare? (.int count) with
    | some .lt | some .eq => true
    | _ => false)
  | none => .error (.type (.notOrdered "int" threshold.typeName))

/-- The entities with at least as many dependents as a threshold says, most dependents first. -/
def critical (s : Snapshot) (threshold : Value) : Except Fault (List Critical) := do
  let all := s.ids.map fun id => { id, dependents := s.dependents id : Critical }
  let found ← all.filterM fun c => reaches threshold c.dependents.length
  return found.mergeSort fun a b =>
    b.dependents.length < a.dependents.length ||
      (b.dependents.length == a.dependents.length && Text.le a.id b.id)

end Snapshot

end ChangeImpact
