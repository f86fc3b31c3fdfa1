import ChangeImpact.Contract.Check
import ChangeImpact.Scan.Token

/-!
# Layered traversal

A breadth-first walk over a snapshot from some entities. The entities at distance `k` are layer `k`;
each is reached over the edge of lowest rank, first by the dimension's precedence, then by the entity
it comes from, then by the edge itself. A walk can be limited in depth and cancelled between layers.

* `Traversal.edgesFrom` are the edges that may be followed from an entity.
* `Traversal.nextHits` is one layer, `Traversal.walk` the whole walk.
-/

namespace ChangeImpact

/-- The edges that stand for contract pairs, one each way. -/
def ContractPair.edges (p : ContractPair) : List (Edge String) :=
  [⟨p.frontend, p.backend, .consistency, .forward, p.confidence⟩,
    ⟨p.backend, p.frontend, .consistency, .forward, p.confidence⟩]

/-- What a walk may follow. -/
structure Traversal where
  snapshot : Snapshot
  /-- Edges in addition to those of the snapshot, followed from their sources only. -/
  derived : List (Edge String)
  dimensions : List Dimension
  direction : Option Direction
  /-- The least confidence of an edge of each dimension. -/
  threshold : Dimension → Binary64

/-- An entity of a layer with the way it was reached. -/
structure Reached where
  id : String
  /-- Where the walk to it starts. -/
  root : String
  chain : List (Edge String)
deriving DecidableEq, Repr

/-- A way to an entity of the next layer. -/
structure Hit where
  id : String
  parent : Reached
  edge : Edge String
deriving DecidableEq, Repr

namespace Hit

/-- The rank of a hit among those of one dimension. -/
def rank (h : Hit) : List String :=
  [h.parent.id, h.edge.source, h.edge.target, h.edge.dimension.word, h.edge.direction.word]

/-- Of lower rank than another hit. -/
def precedes (a b : Hit) : Bool :=
  a.edge.dimension.precedence < b.edge.dimension.precedence ||
    (a.edge.dimension.precedence == b.edge.dimension.precedence && rankLt a.rank b.rank)

/-- What is reached by a hit. -/
def reached (h : Hit) : Reached := ⟨h.id, h.parent.root, h.parent.chain ++ [h.edge]⟩

/-- Keeps for each entity the hit of lowest rank, and of equal ones the first. -/
def keepLowest : List Hit → Hit → List Hit
  | [], h => [h]
  | g :: gs, h =>
    if g.id = h.id then (if h.precedes g then h else g) :: gs else g :: keepLowest gs h

end Hit

namespace Traversal

/-- The edge may be followed from an entity. -/
def mayFollow (t : Traversal) (x : String) (e : Edge String) : Bool :=
  t.dimensions.contains e.dimension && !e.confidence.lt (t.threshold e.dimension) &&
    match t.direction with
    | none => true
    | some .forward => e.propagatesFrom x
    | some .backward => !e.propagatesFrom x

/-- The edges that may be followed from an entity, in order. -/
def edgesFrom (t : Traversal) (x : String) : List (Edge String) :=
  (t.snapshot.neighbors x ++ t.derived.filter fun e => e.source == x).filter (t.mayFollow x)

/-- The ways from a reached entity to entities that were not visited. -/
def hitsFrom (t : Traversal) (visited : List String) (x : Reached) : List Hit :=
  ((t.edgesFrom x.id).map fun e => ⟨e.other x.id, x, e⟩).filter fun h =>
    h.id != x.id && !visited.contains h.id

/-- The next layer, one hit for each entity. -/
def nextHits (t : Traversal) (visited : List String) (frontier : List Reached) : List Hit :=
  (frontier.flatMap (t.hitsFrom visited)).foldl Hit.keepLowest []

/-- The layers of a walk, how it ended, and the token it leaves. -/
structure Walk where
  layers : List (List Hit)
  status : Status
  token : Token

/-- Walks on from a layer at a depth. -/
def walkFrom (t : Traversal) (limit : Option Nat) :
    (fuel depth : Nat) → Token → (visited : List String) → (frontier : List Reached) → Walk
  | 0, _, token, _, _ => ⟨[], .completed, token⟩
  | fuel + 1, depth, token, visited, frontier =>
    if frontier.isEmpty || limit.any (· ≤ depth) then ⟨[], .completed, token⟩
    else if token.stops then ⟨[], .cancelled, token.next⟩
    else
      let hits := t.nextHits visited frontier
      let rest := walkFrom t limit fuel (depth + 1) token.next (visited ++ hits.map Hit.id)
        (sortByRank (fun x => [x.id]) (hits.map Hit.reached))
      { rest with layers := hits :: rest.layers }

/-- The number of entities and of ends of edges, which may be no entities. -/
def size (t : Traversal) : Nat :=
  t.snapshot.entities.length + 2 * (t.snapshot.edges.length + t.derived.length)

/-- Walks from some entities of the snapshot. Every layer has an entity or an end of an edge that the ones
before it do not have. -/
def walk (t : Traversal) (limit : Option Nat) (token : Token) (roots : List String) : Walk :=
  t.walkFrom limit t.size 0 token roots (roots.map fun r => ⟨r, r, []⟩)

end Traversal

end ChangeImpact
