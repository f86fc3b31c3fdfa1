import ChangeImpact.Entity

/-!
# Edges

An edge is a typed, directed relation between two entities. Decoded edges have arbitrary values as
ends (`Edge Value`), since only a graph knows which of them name entities; the edges of a graph have
ids as ends (`Edge String`).
-/

namespace ChangeImpact

/-- A typed, directed relation with ends of type `ι`. -/
structure Edge (ι : Type) where
  source : ι
  target : ι
  dimension : Dimension
  direction : Direction := .backward
  confidence : Binary64 := .one
deriving DecidableEq, Repr

/-- What identifies an edge among the edges of one file. -/
structure EdgeKey (ι : Type) where
  source : ι
  target : ι
  dimension : Dimension
  direction : Direction
deriving DecidableEq, BEq, Repr

namespace Edge

variable {ι : Type}

def key (e : Edge ι) : EdgeKey ι := ⟨e.source, e.target, e.dimension, e.direction⟩

/-- The end opposite to a given one. -/
def other [BEq ι] (e : Edge ι) (x : ι) : ι := if x == e.source then e.target else e.source

/-- A change at `x` moves across this edge. -/
def propagatesFrom [BEq ι] (e : Edge ι) (x : ι) : Bool :=
  match e.direction with
  | .forward => x == e.source
  | .backward => x == e.target

/-- The edge between the images of its ends. -/
def map {κ : Type} (f : ι → κ) (e : Edge ι) : Edge κ :=
  { e with source := f e.source, target := f e.target }

def toRecord (e : Edge Value) : Value :=
  .record [("from", e.source), ("to", e.target), ("dimension", .str e.dimension.word),
    ("direction", .str e.direction.word), ("confidence", .float e.confidence)]

/-- The dimension a value names. -/
def dimensionOf (v : Value) : Except Fault Dimension :=
  match Vocabulary.ofValue? Dimension v with
  | some d => .ok d
  | none => do .error (.edge (.badDimension (← v.toText)))

/-- The direction a value names. -/
def directionOf (v : Value) : Except Fault Direction :=
  match Vocabulary.ofValue? Direction v with
  | some d => .ok d
  | none => do .error (.edge (.badDirection (← v.toText)))

/-- A confidence; only a number too large for the format is not reported as a bad one. -/
def confidenceOf (v : Value) : Except Fault Binary64 :=
  match v.toFloat with
  | .ok x => .ok x
  | .error (.overflow c) => .error (.overflow c)
  | .error _ => do .error (.edge (.badConfidence (← v.toLiteral)))

/-- Between zero and one, both included. -/
def isConfidence (x : Binary64) : Bool := (Binary64.zero false).le x && x.le .one

/-- An edge from its parts: the ends are not vacant, the confidence lies between zero and one, and
that of a reference is one. -/
def ofParts (source target dimension direction confidence : Value) : Except Fault (Edge Value) := do
  if source.isVacant || target.isVacant then
    .error (.edge (.emptyEnd (← source.toLiteral) (← target.toLiteral)))
  let dim ← dimensionOf dimension
  let dir ← directionOf direction
  let c ← confidenceOf confidence
  if !isConfidence c then
    .error (.edge (.confidenceRange c.text (← source.toText) (← target.toText)))
  if dim == .reference && c != .one then
    .error (.edge (.referenceConfidence c.text (← source.toText) (← target.toText)))
  return ⟨source, target, dim, dir, c⟩

/-- Decodes an edge record; the ends have two names each. -/
def ofRecord (v : Value) : Except Fault (Edge Value) :=
  match v.unfold with
  | .map record =>
    match Entries.lookup? record "dimension" with
    | none => do .error (.edge (.missingDimension (← v.toLiteral)))
    | some dimension =>
      ofParts (Entries.lookupD record "from" (Entries.lookup record "source"))
        (Entries.lookupD record "to" (Entries.lookup record "target")) dimension
        (Entries.lookupD record "direction" (.str Direction.backward.word))
        (Entries.lookupD record "confidence" (.float .one))
  | _ => .error (.edge (.notMapping v.typeName))

end Edge

end ChangeImpact
