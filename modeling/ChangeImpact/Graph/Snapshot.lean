import ChangeImpact.ScanResult
import ChangeImpact.Table

/-!
# Snapshots

The graph at one version, assembled from what each file contributes. An entity that several files
declare has the definition of the first of them in path order. An edge is part of the snapshot only
if both of its ends are declared.

* `Snapshot.build` assembles a snapshot.
* `Snapshot.neighbors` are the edges at an entity; `dependents` and `dependencies` are the entities
  at their other ends, by the way a change moves.
-/

namespace ChangeImpact

/-- What one file contributes at one scan version. -/
structure Contribution where
  file : String
  version : Int
  entities : List Entity
  edges : List (Edge Value)
deriving Repr

/-- The graph at one version. -/
structure Snapshot where
  version : Nat
  /-- One definition for each declared id, in the order of the ids. -/
  entities : List Entity
  edges : List (Edge String)
  /-- Scan versions by file. -/
  files : Table Int
  /-- The files that declare an entity, by id. -/
  owners : Table (List String)
deriving Repr

/-- Equality of edges by value. -/
def Edge.same (a b : Edge String) : Bool := a.key == b.key && a.confidence.same b.confidence

namespace Snapshot

/-- All declarations of some contributions with the files they stand in. -/
def declarations (contributions : List Contribution) : List (Entity × String) :=
  contributions.flatMap fun c => c.entities.map fun e => (e, c.file)

/-- The first declaration of each id, in the order of the ids. -/
def definitions (declared : List (Entity × String)) : List Entity :=
  sortByRank (fun e => [e.id]) (keepFirst (fun a b => a.id == b.id) (declared.map (·.1)))

/-- The files of the declarations of an id. -/
def ownersOf (declared : List (Entity × String)) (id : String) : List String :=
  (declared.filter fun d => d.1.id == id).map (·.2)

/-- The declared id that a value is, if it is one; a value that cannot be looked up is a fault. -/
def declaredId? (ids : List String) (v : Value) : Except Fault (Option String) := do
  v.requireKey
  return match v with
    | .str s => if ids.contains s then some s else none
    | _ => none

/-- The edge between declared entities that an edge is, if it is one. The target is looked up only
when the source is declared. -/
def visible? (ids : List String) (e : Edge Value) : Except Fault (Option (Edge String)) := do
  match ← declaredId? ids e.source with
  | none => return none
  | some source =>
    return (← declaredId? ids e.target).map fun target =>
      ⟨source, target, e.dimension, e.direction, e.confidence⟩

/-- The edges between declared entities, in order. -/
def visibleEdges (ids : List String) (edges : List (Edge Value)) :
    Except Fault (List (Edge String)) := do
  return (← edges.mapM (visible? ids)).filterMap id

/-- The snapshot of contributions that are in path order. -/
def build (version : Nat) (contributions : List Contribution) : Except Fault Snapshot := do
  let declared := declarations contributions
  let entities := definitions declared
  let ids := entities.map Entity.id
  let edges ← visibleEdges ids (contributions.flatMap Contribution.edges)
  return {
    version, entities, edges
    files := contributions.map fun c => (c.file, c.version)
    owners := ids.map fun id => (id, ownersOf declared id) }

/-- The ids of all entities, in order. -/
def ids (s : Snapshot) : List String := s.entities.map Entity.id

def entity? (s : Snapshot) (id : String) : Option Entity := s.entities.find? fun e => e.id == id

def has (s : Snapshot) (id : String) : Bool := (s.entity? id).isSome

def ofKind (s : Snapshot) (kind : EntityKind) : List Entity :=
  s.entities.filter fun e => e.kind == kind

/-- The files that declare an entity. -/
def ownersOfId (s : Snapshot) (id : String) : List String := (s.owners.get? id).getD []

def inFile (s : Snapshot) (file : String) : List Entity :=
  s.entities.filter fun e => (s.ownersOfId e.id).contains file

/-- Adds to a list those edges that are not a loop equal to an edge before them. -/
def addOnce : (listed : List (Edge String)) → List (Edge String) → List (Edge String)
  | listed, [] => listed
  | listed, e :: es =>
    if e.source == e.target && listed.any e.same then addOnce listed es
    else addOnce (listed ++ [e]) es

/-- The edges that start at an entity. -/
def outgoing (s : Snapshot) (id : String) : List (Edge String) :=
  s.edges.filter fun e => e.source == id

/-- The edges that end at an entity. -/
def incoming (s : Snapshot) (id : String) : List (Edge String) :=
  s.edges.filter fun e => e.target == id

/-- The edges at an entity of some dimensions; all of them without a direction, outgoing ones
forward, and incoming ones backward. -/
def neighbors (s : Snapshot) (id : String) (dims : Option (List Dimension) := none)
    (direction : Option Direction := none) : List (Edge String) :=
  let wanted (e : Edge String) : Bool := match dims with
    | some ds => ds.contains e.dimension
    | none => true
  match direction with
  | none => addOnce [] ((s.outgoing id ++ s.incoming id).filter wanted)
  | some .forward => (s.outgoing id).filter wanted
  | some .backward => (s.incoming id).filter wanted

/-- The dimensions that a value names: null names no choice, a word one dimension, and a collection
some. -/
def dimensionsOf (v : Value) : Except Fault (Option (List Dimension)) :=
  match v with
  | .null => .ok none
  | .str _ => return some [← Vocabulary.decode Dimension v]
  | _ => return some (← (← v.toMembers).mapM (Vocabulary.decode Dimension))

/-- The direction that a value names, none for null. -/
def directionOf (v : Value) : Except Fault (Option Direction) :=
  match v with
  | .null => .ok none
  | _ => return some (← Vocabulary.decode Direction v)

/-- The entities that a change at `id` reaches over one edge, in order. -/
def dependents (s : Snapshot) (id : String) : List String :=
  distinctTexts (((s.neighbors id).filter fun e => e.propagatesFrom id).map fun e => e.other id)

/-- The entities whose change reaches `id` over one edge, in order. -/
def dependencies (s : Snapshot) (id : String) : List String :=
  distinctTexts (((s.neighbors id).filter fun e => !e.propagatesFrom id).map fun e => e.other id)

/-- How often each word occurs, in the order of the words. -/
def countWords (words : List String) : Value :=
  .record ((distinctTexts words).map fun w => (w, .nat (words.count w)))

/-- The size of the graph in numbers. -/
def stats (s : Snapshot) : Value :=
  .record [("version", .nat s.version), ("files", .nat s.files.length),
    ("entities", .nat s.entities.length), ("edges", .nat s.edges.length),
    ("entities_by_kind", countWords (s.entities.map fun e => e.kind.word)),
    ("edges_by_dimension", countWords (s.edges.map fun e => e.dimension.word))]

end Snapshot

end ChangeImpact
