import ChangeImpact.Value.Convert

/-!
# Entities

An entity is a code, contract or configuration artifact with an id that is stable across scans.
`Entity.ofRecord` decodes a wire record with all its defaults and coercions and `Entity.toRecord`
writes one; `entityId` builds the canonical id from file, kind and name.
-/

namespace ChangeImpact

instance : BEq Value := ⟨Value.same⟩

/-- The canonical id `file::Kind::name`. -/
def entityId (file : String) (kind : EntityKind) (name : String) : String :=
  file ++ "::" ++ kind.word ++ "::" ++ name

/-- Where an entity is declared: a file and a range of lines. -/
structure Location where
  file : String
  startLine : Int := 0
  endLine : Int := 0
deriving DecidableEq, Repr, Inhabited

def Location.toRecord (l : Location) : Value :=
  .record [("file", .str l.file), ("start_line", .int l.startLine), ("end_line", .int l.endLine)]

/-- One field of the shape of a type or a route. -/
structure ShapeField where
  name : String
  type : String
  required : Bool := true
  /-- Where the field was declared. -/
  source : String := ""
deriving DecidableEq, Repr, Inhabited

namespace ShapeField

def toRecord (f : ShapeField) : Value :=
  .record [("name", .str f.name), ("type", .str f.type), ("required", .bool f.required),
    ("source", .str f.source)]

/-- Decodes a field record, which must be a mapping with a name that is not empty. -/
def ofRecord (v : Value) : Except Fault ShapeField :=
  match v.unfold with
  | .map entries => do
    let name := Entries.lookup entries "name"
    if name.isVacant then .error (.entity (.badField (← v.toLiteral)))
    return {
      name := ← name.toText
      type :=
        ← (Entries.lookupD entries "type" (Entries.lookupD entries "field_type" (.str "any"))).toText
      required := !(Entries.lookupD entries "required" (.bool true)).isVacant
      source := ← (Entries.lookupD entries "source" (.str "")).toText }
  | _ => do .error (.entity (.badField (← v.toLiteral)))

end ShapeField

/-- A uniquely identified artifact. -/
structure Entity where
  id : String
  kind : EntityKind
  language : String
  location : Location
  name : String
  layer : Option Layer
  /-- The ordered fields of a type or a route. -/
  shape : Option (List ShapeField)
  /-- Free-form details; routes have a path, a method and status codes, types may have a contract
  name. -/
  metadata : Entries
deriving Repr, Inhabited

namespace Entity

def file (e : Entity) : String := e.location.file

/-- The pair by which two declarations of one id must agree. -/
def identity (e : Entity) : Identity := ⟨e.kind, e.language⟩

/-- The fields of the shape, none if there is no shape. -/
def fields (e : Entity) : List ShapeField := e.shape.getD []

/-- The last field with a name. -/
def field? (e : Entity) (name : String) : Option ShapeField :=
  e.fields.reverse.find? fun f => f.name == name

/-- A metadata value, null when there is none. -/
def detail (e : Entity) (key : String) : Value := Entries.lookup e.metadata key

/-- Equality by value: metadata may differ in the order of their keys. -/
def same (a b : Entity) : Bool :=
  a.id == b.id && a.kind == b.kind && a.language == b.language && a.location == b.location &&
    a.name == b.name && a.layer == b.layer && a.shape == b.shape &&
    (Value.map a.metadata).same (.map b.metadata)

instance : BEq Entity := ⟨same⟩

def toRecord (e : Entity) : Value :=
  .record [("id", .str e.id), ("kind", .str e.kind.word), ("language", .str e.language),
    ("name", .str e.name), ("location", e.location.toRecord),
    ("layer", .text? (e.layer.map Layer.word)), ("metadata", .map e.metadata),
    ("shape", match e.shape with
      | some fields => .list (fields.map ShapeField.toRecord)
      | none => .null)]

/-- The kind a value names. -/
def kindOf (v : Value) : Except Fault EntityKind :=
  match Vocabulary.ofValue? EntityKind v with
  | some k => .ok k
  | none => do .error (.entity (.badKind (← v.toText)))

/-- The layer a value names; null names none. -/
def layerOf (v : Value) : Except Fault (Option Layer) :=
  match v with
  | .null => .ok none
  | _ =>
    match Vocabulary.ofValue? Layer v with
    | some l => .ok (some l)
    | none => do .error (.entity (.badLayer (← v.toText)))

/-- The raw parts of an entity, before its id, kind and layer are judged. -/
structure Draft where
  id : Value
  kind : Value
  language : String
  location : Location
  name : String
  layer : Value
  shape : Option (List ShapeField)
  metadata : Entries

/-- An entity from its parts: the id is a text that is not empty, kind and layer are words of their
vocabularies, only types and routes have a shape, and a missing name is the id. -/
def ofDraft (d : Draft) : Except Fault Entity := do
  let id ← match d.id with
    | .str s => if s.isEmpty then .error (.entity (.badId d.id.literal)) else .ok s
    | v => do .error (.entity (.badId (← v.toLiteral)))
  let kind ← kindOf d.kind
  let layer ← layerOf d.layer
  if d.shape.isSome && !kind.mayHaveShape then .error (.entity (.shapeForbidden id kind))
  return { id, kind, layer
           language := d.language
           location := d.location
           name := if d.name.isEmpty then id else d.name
           shape := d.shape
           metadata := d.metadata }

/-- A line number, where anything vacant counts as zero. -/
def lineOf (v : Value) : Except Fault Int :=
  if v.isVacant then .ok 0 else v.toInt

/-- The location of a record: its own mapping, with the file of the record as a default. -/
def locationOf (record : Entries) : Except Fault Location :=
  let own := Entries.lookup record "location"
  let entries : Except Fault Entries :=
    if own.isVacant then .ok [] else
      match own.unfold with
      | .map es => .ok es
      | v => .error (.noMember v.qualifiedTypeName "get")
  do
    let es ← entries
    let file ← (Entries.lookupD es "file" (Entries.lookupD record "file" (.str ""))).toText
    let startLine ← lineOf (Entries.lookupD es "start_line" (.int 0))
    let endLine ← lineOf (Entries.lookupD es "end_line" (.int 0))
    return { file, startLine, endLine }

/-- The shape of a record: null or a list of field records. -/
def shapeOf (id : Value) (v : Value) : Except Fault (Option (List ShapeField)) :=
  match v.unfold with
  | .null => .ok none
  | .list items => return some (← items.mapM ShapeField.ofRecord)
  | _ => do .error (.entity (.shapeNotList (← id.toText)))

/-- The metadata of a record: vacant or a mapping. -/
def metadataOf (id : Value) (v : Value) : Except Fault Entries :=
  if v.isVacant then .ok [] else
    match v.unfold with
    | .map entries => .ok entries
    | _ => do .error (.entity (.metadataNotMapping (← id.toText)))

/-- Decodes an entity record. -/
def ofRecord (v : Value) : Except Fault Entity :=
  match v.unfold with
  | .map record => do
    let (id, kind) ← match Entries.lookup? record "id", Entries.lookup? record "kind" with
      | some id, some kind => .ok (id, kind)
      | _, _ => do .error (.entity (.missingKeys (← v.toLiteral)))
    let location ← locationOf record
    let shape ← shapeOf id (Entries.lookup record "shape")
    let metadata ← metadataOf id (Entries.lookup record "metadata")
    ofDraft { id, kind, location, shape, metadata
              language := ← (Entries.lookupD record "language" (.str "unknown")).toText
              name := ← (Entries.lookupD record "name" (.str "")).toText
              layer := Entries.lookup record "layer" }
  | _ => .error (.entity (.notMapping v.typeName))

end Entity

end ChangeImpact
