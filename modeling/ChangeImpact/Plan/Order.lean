import ChangeImpact.Impact.Analysis

/-!
# The order of a plan

Impacted entities are put into sections, by the dimension that reached them; tests come last. A
configuration key reached over a configuration edge is placed right after the entity that reads it,
in that entity's section; keys that changed entities read open the reference section.
-/

namespace ChangeImpact

/-- The sections of a plan. -/
inductive PlanSection where
  | contract
  | dataFlow
  | reference
  | test
deriving DecidableEq, Repr

namespace PlanSection

def word : PlanSection → String
  | .contract => "Contract"
  | .dataFlow => "DataFlow"
  | .reference => "Reference"
  | .test => "Test"

/-- The section of what a dimension reached. -/
def ofDimension : Dimension → PlanSection
  | .contract | .consistency => .contract
  | .dataFlow => .dataFlow
  | .reference | .config => .reference

end PlanSection

/-- One entity to update. -/
structure PlanStep where
  id : String
  plannedIn : PlanSection
  layer : Int
  dimension : Dimension
  parent : String
  root : String
  /-- The reader after which a configuration key is placed. -/
  reader : Option String
deriving DecidableEq, Repr

def PlanStep.toRecord (s : PlanStep) : Value :=
  .record [("entity_id", .str s.id), ("section", .str s.plannedIn.word), ("layer", .int s.layer),
    ("dimension", .str s.dimension.word), ("parent", .str s.parent), ("root", .str s.root),
    ("config_reader", .text? s.reader)]

namespace PlanOrder

/-- A configuration key that is placed after its reader. -/
def isAnchored (i : ImpactItem) : Bool := i.kind == some .configKey && i.dimension == .config

/-- The section of an item that is not placed after a reader. -/
def sectionOf (i : ImpactItem) : PlanSection :=
  if i.kind = some .test then .test else .ofDimension i.dimension

/-- An item to be placed, after a reader or on its own. -/
structure Pending where
  item : ImpactItem
  reader : Option String
deriving DecidableEq, Repr

def Pending.step (s : PlanSection) (p : Pending) : PlanStep :=
  ⟨p.item.id, s, p.item.layer, p.item.dimension, p.item.parent, p.item.root, p.reader⟩

/-- The items that wait for a reader, by id. -/
def waitingFor (reader : String) (anchored : List ImpactItem) : List Pending :=
  (sortByRank (fun i => [i.id]) (anchored.filter fun i => i.parent == reader)).map
    fun i => ⟨i, some reader⟩

/-- The items that do not wait for a reader. -/
def others (reader : String) (anchored : List ImpactItem) : List ImpactItem :=
  anchored.filter fun i => i.parent != reader

/-- Places items in order, each followed by the items that wait for it; gives the steps and the items
that still wait. Each step takes one item, so the number of all items suffices as fuel. -/
def place (s : PlanSection) :
    (fuel : Nat) → (work : List Pending) → (anchored : List ImpactItem) →
      List PlanStep × List ImpactItem
  | 0, _, anchored => ([], anchored)
  | _, [], anchored => ([], anchored)
  | fuel + 1, p :: work, anchored =>
    let (steps, left) :=
      place s fuel (waitingFor p.item.id anchored ++ work) (others p.item.id anchored)
    (p.step s :: steps, left)

/-- Places all of some items. -/
def placeAll (s : PlanSection) (work : List Pending) (anchored : List ImpactItem) :
    List PlanStep × List ImpactItem :=
  place s (work.length + anchored.length) work anchored

/-- Places the items that wait for each of some readers, reader by reader. -/
def placeFor (s : PlanSection) : (readers : List String) → (anchored : List ImpactItem) →
    List PlanStep × List ImpactItem
  | [], anchored => ([], anchored)
  | reader :: readers, anchored =>
    let (steps, left) := placeAll s (waitingFor reader anchored) (others reader anchored)
    let (more, rest) := placeFor s readers left
    (steps ++ more, rest)

/-- The items of a section that wait for nothing, by layer and id. -/
def freeItems (s : PlanSection) (items : List ImpactItem) : List Pending :=
  let own := items.filter fun i => !isAnchored i && sectionOf i == s
  (own.mergeSort fun a b => a.layer < b.layer || (a.layer == b.layer && Text.le a.id b.id)).map
    (⟨·, none⟩)

/-- The steps of each section, in the order of the plan. -/
def sections (r : ImpactResult) : List (PlanSection × List PlanStep) :=
  let items := r.impacted
  let anchored := items.filter isAnchored
  let (contract, anchored) := placeAll .contract (freeItems .contract items) anchored
  let (dataFlow, anchored) := placeAll .dataFlow (freeItems .dataFlow items) anchored
  let (opening, anchored) := placeFor .reference r.changes.keys anchored
  let (reference, anchored) := placeAll .reference (freeItems .reference items) anchored
  let (test, anchored) := placeAll .test (freeItems .test items) anchored
  let (unread, _) := placeFor .reference (distinctTexts (anchored.map ImpactItem.parent)) anchored
  [(.contract, contract), (.dataFlow, dataFlow), (.reference, opening ++ reference ++ unread),
    (.test, test)]

end PlanOrder

end ChangeImpact
