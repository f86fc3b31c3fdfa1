import ChangeImpact.Impact.Changes
import ChangeImpact.Impact.Traversal

/-!
# Impact analysis

Which entities could break when some entities change. Every impacted entity keeps its layer, the
changed entity it was reached from, and the chain of edges in between.
-/

namespace ChangeImpact

/-- An entity reached from the changed ones. -/
structure ImpactItem where
  id : String
  /-- The number of edges from the nearest changed entity. -/
  layer : Int
  /-- The dimension of the last edge. -/
  dimension : Dimension
  /-- The changed entity that the chain starts from. -/
  root : String
  /-- The entity before the last edge. -/
  parent : String
  chain : List (Edge String)
  kind : Option EntityKind
deriving DecidableEq, Repr

namespace ImpactItem

/-- The product of the confidences of the chain. -/
def confidence (i : ImpactItem) : Binary64 :=
  i.chain.foldl (fun x e => x.mul e.confidence) .one

def toRecord (i : ImpactItem) : Value :=
  .record [("entity_id", .str i.id), ("layer", .int i.layer),
    ("dimension", .str i.dimension.word), ("root", .str i.root), ("parent", .str i.parent),
    ("kind", .text? (i.kind.map EntityKind.word)),
    ("confidence", .float (i.confidence.roundPlaces 6)),
    ("chain", .list (i.chain.map fun e => (e.map Value.str).toRecord))]

end ImpactItem

/-- The outcome of one analysis. -/
structure ImpactResult where
  changes : Changes
  impacted : List ImpactItem := []
  /-- Changed ids that the graph does not have. -/
  unknownIds : List String := []
  status : Status := .completed
  dimensions : List Dimension := Dimension.byPrecedence
  /-- The depth limit as it was given. -/
  maxDepth : Value := .null
  snapshotVersion : Nat := 0
deriving Repr

namespace ImpactResult

def ids (r : ImpactResult) : List String := r.impacted.map ImpactItem.id

def get? (r : ImpactResult) (id : String) : Option ImpactItem :=
  r.impacted.find? fun i => i.id == id

/-- The ids of the impacted entities for each dimension that reached some. -/
def byDimension (r : ImpactResult) : List (Dimension × List String) :=
  (keepFirst (· == ·) (r.impacted.map ImpactItem.dimension)).map fun d =>
    (d, (r.impacted.filter fun i => i.dimension == d).map ImpactItem.id)

def toRecord (r : ImpactResult) : Value :=
  .record [("changes", r.changes.toRecord), ("status", .str r.status.word),
    ("snapshot_version", .nat r.snapshotVersion),
    ("dimensions", .texts (r.dimensions.map Dimension.word)), ("max_depth", r.maxDepth),
    ("impacted", .list (r.impacted.map ImpactItem.toRecord)),
    ("by_dimension", .record (r.byDimension.map fun d => (d.1.word, .texts d.2))),
    ("unknown_ids", .texts r.unknownIds)]

end ImpactResult

namespace Impact

/-- What an analysis asks for, as it is given. -/
structure Request where
  changes : Value
  dimensions : Value := .null
  maxDepth : Value := .null
  direction : Value := .null

/-- The dimensions to follow, by precedence; all of them when the value is vacant. -/
def dimensionsOf (v : Value) : Except Fault (List Dimension) :=
  if v.isVacant then .ok Dimension.byPrecedence else do
    let wanted ← (← v.toMembers).mapM (Vocabulary.decode Dimension)
    return Dimension.byPrecedence.filter wanted.contains

/-- The number of layers below a number: the least integer that is not smaller. -/
def layersOf : Value.Numeric → Option Nat
  | .int n => some n.toNat
  | .float x =>
    match x.truncate? with
    | some n => some (if x.isIntegral then n.toNat else n.toNat + 1)
    | none => none

/-- The number of layers that a depth limit allows, if it is one; it must not be negative. -/
def limitOf (v : Value) : Except Fault (Option Nat) :=
  match v with
  | .null => .ok none
  | _ =>
    match v.numeric? with
    | none => .error (.type (.notOrdered v.typeName "int"))
    | some n =>
      if n.compare? (.int 0) == some .lt then .error (.value (.negativeDepth v.text))
      else .ok (layersOf n)

/-- The items of a layer, by precedence of their dimensions, then by id. -/
def itemsOf (s : Snapshot) (depth : Nat) (hits : List Hit) : List ImpactItem :=
  let items := hits.map fun h =>
    { id := h.id, layer := depth, dimension := h.edge.dimension, root := h.reached.root
      parent := h.parent.id, chain := h.reached.chain, kind := (s.entity? h.id).map Entity.kind }
  items.mergeSort fun a b =>
    a.dimension.precedence < b.dimension.precedence ||
      (a.dimension.precedence == b.dimension.precedence && Text.le a.id b.id)

/-- The items of some layers, the first of which has the given depth. -/
def itemsFrom (s : Snapshot) : (depth : Nat) → List (List Hit) → List ImpactItem
  | _, [] => []
  | depth, hits :: layers => itemsOf s depth hits ++ itemsFrom s (depth + 1) layers

/-- What an analysis may follow. -/
def traversalOf (config : Config) (s : Snapshot) (pairs : List ContractPair)
    (dimensions : List Dimension) (direction : Option Direction) : Traversal :=
  { snapshot := s
    derived := (pairs.flatMap ContractPair.edges).filter fun e => s.has e.source && s.has e.target
    dimensions, direction
    threshold := config.thresholdFor }

/-- Analyses the impact of changes. -/
def analyzeChanges (config : Config) (s : Snapshot) (pairs : List ContractPair) (changes : Changes)
    (dimensions : List Dimension) (direction : Option Direction) (limit : Option Nat)
    (token : Token) : ImpactResult × Token :=
  let roots := changes.keys.filter s.has
  let walk := (traversalOf config s pairs dimensions direction).walk limit token roots
  ({ changes
     impacted := itemsFrom s 1 walk.layers
     unknownIds := changes.keys.filter fun id => !s.has id
     status := walk.status
     dimensions
     snapshotVersion := s.version }, walk.token)

/-- Analyses the impact of what a request says was changed. -/
def analyze (config : Config) (s : Snapshot) (pairs : List ContractPair) (r : Request)
    (token : Token) : Except Fault (ImpactResult × Token) := do
  let changes ← Changes.ofValue r.changes
  let dimensions ← dimensionsOf r.dimensions
  let direction ← Snapshot.directionOf r.direction
  let limit ← limitOf r.maxDepth
  let (result, next) := analyzeChanges config s pairs changes dimensions direction limit token
  return ({ result with maxDepth := r.maxDepth }, next)

end Impact

end ChangeImpact
