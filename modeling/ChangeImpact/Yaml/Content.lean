import ChangeImpact.Yaml.Node.Reading
import ChangeImpact.Yaml.NodeTable
import ChangeImpact.Yaml.Scalar

/-!
# The value of a document

Tags say what a node stands for. Scalars have their value at once, and collections are filled in
waves: first the entries of the root, then those of the collections among them, and so on. So of
several problems the one nearest to the root is reported, and among those the first. A node that
occurs several times is filled once, and its occurrences are one value.

* `NodeTable.flatten` puts the entries that a mapping merges in before its own.
* `Filling.fill` fills one collection and meets the nodes in it; `Filling.fillAll` does so wave by
  wave.
* `Assembly.valueOf` puts the contents of all nodes together. A collection that contains itself gets
  its number as a label.
-/

namespace ChangeImpact.Yaml

namespace Cell

/-- A problem with a node itself. -/
def fail {α : Type} (c : Cell) (cause : Cause) : Except Failure α :=
  .error (.problem { cause, mark := c.start })

/-- A problem with a node inside another. -/
def failIn {α : Type} (c : Cell) (cause : Cause) (activity : Activity) (start : Mark) :
    Except Failure α :=
  .error (.problem { cause, mark := c.start, activity := some (activity, some start) })

end Cell

/-- A collection by its tag. -/
inductive Collection where
  | seq
  | map
  | set
  | omap
  | pairs
deriving DecidableEq, Repr

namespace Collection

def ofTag? (tag : String) : Option Collection :=
  if tag == Tag.seq then some .seq
  else if tag == Tag.map then some .map
  else if tag == Tag.set then some .set
  else if tag == Tag.omap then some .omap
  else if tag == Tag.pairs then some .pairs
  else none

/-- The activity of filling a list of pairs. -/
def activity : Collection → Activity
  | .omap => .orderedMap
  | .pairs => .pairs
  | _ => .mapping

end Collection

namespace NodeTable

/-- The text of a scalar; a mapping has the text of the value of its special key, if it has one. -/
def textFrom (t : NodeTable) : (fuel : Nat) → Nat → Except Failure String
  | 0, _ => .error (.fault .endless)
  | fuel + 1, number =>
    let c := t.cell number
    match c.form with
    | .scalar text => .ok text
    | .sequence _ => c.fail (.notScalar c.form.word)
    | .mapping entries =>
      match entries.find? fun e => (t.cell e.1).tag == Tag.value with
      | some e => t.textFrom fuel e.2
      | none => c.fail (.notScalar c.form.word)

/-- The text of a node that should be a scalar. -/
def text (t : NodeTable) (number : Nat) : Except Failure String := t.textFrom (t.size + 1) number

/-- A fault of a scalar's text. -/
def ofFault {α : Type} : Except Fault α → Except Failure α
  | .ok a => .ok a
  | .error f => .error (.fault f)

/-- A floating-point number. A value that is not a number is one of its own, unless it is written by
its word. -/
def floatValue (number : Nat) (text : String) : Except Fault Value := do
  let v := Value.float (← Scalar.floatOf text)
  return if v.isNan && !Scalar.isNanWord text then .named number v else v

/-- The bytes of a text in base 64. -/
def binaryValue (c : Cell) (text : String) : Except Failure Value :=
  match Text.Base64.decode text.toList with
  | .ok data => .ok (.bytes data)
  | .error f => c.fail (.badBase64 f)

/-- The value of a node that is no collection. -/
def scalarValue (t : NodeTable) (number : Nat) : Except Failure Value := do
  let c := t.cell number
  if c.tag == Tag.str then return .str (← t.text number)
  else if c.tag == Tag.null then
    let _ ← t.text number
    return .null
  else if c.tag == Tag.bool then return .bool (← ofFault (Scalar.boolOf (← t.text number)))
  else if c.tag == Tag.int then return .int (← ofFault (Scalar.intOf (← t.text number)))
  else if c.tag == Tag.float then ofFault (floatValue number (← t.text number))
  else if c.tag == Tag.binary then binaryValue c (← t.text number)
  else if c.tag == Tag.timestamp then
    let text ← t.text number
    match c.form with
    | .scalar _ => ofFault (Scalar.momentOf text)
    | _ => .error (.fault (.type (.notMatchable "list")))
  else c.fail (.unknownTag c.tag)

/-- Flattens each mapping of a list to merge, and gives their entries. -/
def flattenItems (flatten : Nat → NodeTable → Except Failure NodeTable) (start : Mark) :
    List Nat → NodeTable → Except Failure (List (List (Nat × Nat)) × NodeTable)
  | [], t => .ok ([], t)
  | item :: items, t => do
    let c := t.cell item
    match c.form with
    | .mapping _ =>
      let t ← flatten item t
      let own := t.entries item
      let (more, t) ← flattenItems flatten start items t
      return (own :: more, t)
    | _ => c.failIn (.badMergeItem c.form.word) .mapping start

/-- The entries that the value of a merge key brings: those of a mapping, or of a list of mappings
with the last one first. -/
def mergedEntries (flatten : Nat → NodeTable → Except Failure NodeTable) (start : Mark)
    (value : Nat) (t : NodeTable) : Except Failure (List (Nat × Nat) × NodeTable) := do
  let c := t.cell value
  match c.form with
  | .mapping _ =>
    let t ← flatten value t
    return (t.entries value, t)
  | .sequence items =>
    let (parts, t) ← flattenItems flatten start items t
    return (parts.reverse.flatten, t)
  | .scalar _ => c.failIn (.badMerge c.form.word) .mapping start

/-- Goes through the entries of a mapping: a merge key is taken out and what it brings is collected,
and a special key becomes text. A mapping that merges itself in is flattened on the way, and then
nothing is left to do. -/
def flattenEntries (flatten : Nat → NodeTable → Except Failure NodeTable) (number : Nat) :
    (kept merged : List (Nat × Nat)) → List (Nat × Nat) → NodeTable → Except Failure NodeTable
  | _, merged, [], t =>
    .ok (if merged.isEmpty then t else t.setEntries number (merged ++ t.entries number))
  | kept, merged, (k, v) :: rest, t =>
    let tag := (t.cell k).tag
    if tag == Tag.merge then do
      let own := kept.reverse ++ rest
      let (more, t) ← mergedEntries flatten (t.cell number).start v (t.setEntries number own)
      if t.entries number == own then flattenEntries flatten number kept (merged ++ more) rest t
      else return t.setEntries number (merged ++ more ++ t.entries number)
    else
      flattenEntries flatten number ((k, v) :: kept) merged rest
        (if tag == Tag.value then t.setTag k Tag.str else t)

/-- Puts the entries that a mapping merges in before its own, so that its own win. Each step down
takes out a merge key, so the number of entries bounds the depth. -/
def flatten : (depth : Nat) → Nat → NodeTable → Except Failure NodeTable
  | 0, _, _ => .error (.fault .endless)
  | depth + 1, number, t => flattenEntries (flatten depth) number [] [] (t.entries number) t

end NodeTable

/-- What a node stands for, with other nodes by number. -/
inductive Content where
  | scalar (v : Value)
  | list (items : List Nat)
  | map (entries : List (Value × Nat))
  | set (keys : List Value)
  /-- Pairs, each with a label, a first and a second node. -/
  | pairs (items : List (Nat × Nat × Nat))
deriving Inhabited

/-- The contents of a document while its collections are being filled. -/
structure Filling where
  table : NodeTable
  /-- The number of entries of all mappings at the start. -/
  entryCount : Nat
  /-- The label of the next pair. -/
  nextLabel : Nat
  contents : Std.TreeMap Nat Content := {}
  /-- The collections that are not filled yet, the last one first. -/
  waiting : List Nat := []

namespace Filling

abbrev FillM := StateT Filling (Except Failure)

def put (number : Nat) (c : Content) : FillM Unit :=
  modify fun s => { s with contents := s.contents.insert number c }

/-- The node with a number, as it is now. -/
def cell (number : Nat) : FillM Cell := do return (← get).table.cell number

/-- Meets a node: a scalar gets its value, and a collection waits to be filled. -/
def meet (number : Nat) : FillM Unit := do
  if (← get).contents.contains number then return
  match Collection.ofTag? (← cell number).tag with
  | some _ =>
    put number (.list [])
    modify fun s => { s with waiting := number :: s.waiting }
  | none => put number (.scalar (← (← get).table.scalarValue number))

/-- Meets a key, which must be a scalar. -/
def meetKey (start : Mark) (number : Nat) : FillM Value := do
  meet number
  match (← get).contents.getD number default with
  | .scalar v => return v
  | _ => (← cell number).failIn .badKey .mapping start

/-- The entries of a mapping with the values of their keys. -/
def keyedEntries (number : Nat) : FillM (List (Value × Nat)) := do
  let c ← cell number
  match c.form with
  | .mapping _ =>
    let depth := (← get).entryCount + 1
    let table ← modifyGet fun s => (s.table, { s with table := {} })
    let table ← table.flatten depth number
    let entries := table.entries number
    modify fun s => { s with table }
    entries.mapM fun e => do
      let key ← meetKey c.start e.1
      meet e.2
      return (key, e.2)
  | form => c.fail (.notMapping form.word)

/-- The pair of a mapping that has one entry only. -/
def pairOf (activity : Activity) (start : Mark) (number : Nat) : FillM (Nat × Nat × Nat) := do
  let c ← cell number
  match c.form with
  | .mapping [(k, v)] =>
    meet k
    meet v
    modifyGet fun s => ((s.nextLabel, k, v), { s with nextLabel := s.nextLabel + 1 })
  | .mapping entries => c.failIn (.notSingleItem entries.length) activity start
  | form => c.failIn (.notSingleMapping form.word) activity start

/-- Fills a collection and meets the nodes in it. -/
def fill (number : Nat) : FillM Unit := do
  let c ← cell number
  match Collection.ofTag? c.tag with
  | none => return
  | some .seq =>
    match c.form with
    | .sequence items =>
      items.forM meet
      put number (.list items)
    | form => c.fail (.notSequence form.word)
  | some .map => put number (.map (Entries.ofList (← keyedEntries number)))
  | some .set => put number (.set ((Entries.ofList (← keyedEntries number)).map (·.1)))
  | some sort =>
    match c.form with
    | .sequence items => put number (.pairs (← items.mapM (pairOf sort.activity c.start)))
    | form => c.failIn (.notList form.word) sort.activity c.start

/-- Fills the collections that wait, wave by wave. Every wave has a collection that no wave before it
had, so the number of nodes bounds the number of waves. -/
def fillAll : (waves : Nat) → FillM Unit
  | 0 => return
  | waves + 1 => do
    let wave := (← get).waiting.reverse
    if wave.isEmpty then return
    modify fun s => { s with waiting := [] }
    wave.forM fill
    fillAll waves

/-- The contents of all nodes that a root leads to. -/
def contentsOf (root : Nat) (t : NodeTable) : Except Failure (Std.TreeMap Nat Content) := do
  let start : Filling := { table := t, entryCount := t.entryCount, nextLabel := t.size }
  let (_, s) ← (do meet root; fillAll (t.size + 1) : FillM Unit).run start
  return s.contents

end Filling

namespace Assembly

/-- The values that were put together and contain no node around them. -/
abbrev AssemblyM := StateM (Std.TreeMap Nat Value)

/-- A value in progress, with the numbers of the nodes around it that it contains. -/
structure Part where
  value : Value
  inside : List Nat := []

/-- The numbers of nodes around some parts that these contain. -/
def insideOf (parts : List Part) : List Nat := (parts.flatMap Part.inside).eraseDups

/-- A collection from what is in it: one that contains itself or a node around it has a label. -/
def close (number : Nat) (value : Value) (inside : List Nat) : AssemblyM Part := do
  if inside.isEmpty then
    modify fun done => done.insert number value
    return { value }
  else return { value := .named number value, inside := inside.filter (· != number) }

/-- The value of a node inside others. On the way down no node occurs twice, so the number of nodes
bounds the depth. -/
def partOf (contents : Std.TreeMap Nat Content) :
    (depth : Nat) → (around : List Nat) → Nat → AssemblyM Part
  | 0, _, number => return { value := .again number, inside := [number] }
  | depth + 1, around, number => do
    if around.contains number then return { value := .again number, inside := [number] }
    if let some value := (← get)[number]? then return { value }
    let inner (n : Nat) : AssemblyM Part := partOf contents depth (number :: around) n
    match contents.getD number default with
    | .scalar value => return { value }
    | .set keys => return { value := .set keys }
    | .list items =>
      let parts ← items.mapM inner
      close number (.list (parts.map Part.value)) (insideOf parts)
    | .map entries =>
      let parts ← entries.mapM fun e => inner e.2
      let values := entries.zipWith (fun e p => (e.1, p.value)) parts
      close number (.map values) (insideOf parts)
    | .pairs items =>
      let parts ← items.mapM fun (label, k, v) => do
        let first ← inner k
        let second ← inner v
        let pair := Value.pair first.value second.value
        let inside := insideOf [first, second]
        return { value := if inside.isEmpty then pair else .named label pair, inside : Part }
      close number (.list (parts.map Part.value)) (insideOf parts)

/-- The value of a node. -/
def valueOf (contents : Std.TreeMap Nat Content) (number : Nat) : Value :=
  (Id.run ((partOf contents (contents.size + 1) [] number).run {})).1.value

end Assembly

/-- The value of a document. -/
def Node.value (root : Node) : Except Failure Value := do
  let contents ← Filling.contentsOf root.number (NodeTable.ofNode root)
  return Assembly.valueOf contents root.number

/-- The value of the only document of a text; null if the text holds no document. -/
def load (text : List Char) : Except Failure Value := do
  match ← Node.ofText? text with
  | some root => root.value
  | none => return .null

end ChangeImpact.Yaml
