import ChangeImpact.Extract.Registry
import ChangeImpact.Yaml.Content

/-!
# Manifests

A manifest lists entities and edges in the wire format with a few conveniences: defaults for
language and layer, a path as the file of entities that name none, route details beside the metadata,
and names of the manifest's own entities as ends of edges. A malformed entry is skipped with a
warning; a text that cannot be read yields one error.
-/

namespace ChangeImpact.Manifest

def extractorName : String := "manifest"

/-- A diagnostic of the manifest extractor. -/
def diagnostic (path message severity : String) (line : Option Int := none) : Diagnostic :=
  { file := path, message, severity, line, extractor := some extractorName }

/-- Details of routes that may stand beside the metadata, and the contract name of a type. -/
def detailKeys : List String := ["path", "method", "status_codes", "contract_name"]

/-- The value of a key, or a default where it is vacant. -/
def lookupOr (entries : Entries) (name : String) (default : Value) : Value :=
  let v := Entries.lookup entries name
  if v.isVacant then default else v

/-- The two line numbers of an entry. -/
def linesOf (name : String) (v : Value) : Except Fault (Value × Value) :=
  if v.isVacant then .ok (.int 0, .int 0) else
    match v.unfold with
    | .list [a, b] => .ok (a, b)
    | _ => .error (.entity (.entryLines name))

/-- The metadata of an entry, with the details that stand beside it. -/
def metadataOf (entry : Entries) : Except Fault Entries := do
  let own ← (lookupOr entry "metadata" (.map [])).toEntries
  return detailKeys.foldl (fun acc k =>
    match Entries.lookup? entry k with
    | some v => Entries.putName acc k v
    | none => acc) own

/-- The shape of an entry. -/
def shapeOf (name : String) (v : Value) : Except Fault (Option (List ShapeField)) :=
  match v.unfold with
  | .null => .ok none
  | .list items => return some (← items.mapM ShapeField.ofRecord)
  | _ => .error (.entity (.entryShape name))

/-- The entity of an entry. -/
def entityOf (document : Entries) (path : String) (v : Value) : Except Fault Entity :=
  match v.unfold with
  | .map entry => do
    let ownName := Entries.lookup entry "name"
    let ownId := Entries.lookup entry "id"
    if ownName.isVacant && ownId.isVacant then .error (.entity .entryUnnamed)
    let kind ← Vocabulary.decode EntityKind (Entries.lookup entry "kind")
    let name ← (if ownName.isVacant then ownId else ownName).toText
    let file ← (lookupOr entry "file" (.str path)).toText
    let (first, last) ← linesOf name (Entries.lookup entry "lines")
    let metadata ← metadataOf entry
    let shape ← shapeOf name (Entries.lookup entry "shape")
    let id ← if ownId.isVacant then pure (entityId file kind name) else ownId.toText
    let language ←
      (lookupOr entry "language" (lookupOr document "language" (.str "unknown"))).toText
    let startLine ← first.toInt
    let endLine ← last.toInt
    Entity.ofDraft {
      id := .str id
      kind := .str kind.word
      language
      location := { file, startLine, endLine }
      name
      layer := Entries.lookupD entry "layer" (Entries.lookup document "layer")
      shape
      metadata }
  | _ => .error (.entity (.entryNotMapping v.typeName))

/-- The ids of a manifest's entities by name, the first of each name. -/
abbrev LocalIds := List (String × String)

/-- An end of an edge that names an entity of the manifest becomes its id. -/
def resolveEnd (ids : LocalIds) (entry : Entries) (name : String) : Except Fault Entries := do
  let v := Entries.lookup entry name
  v.requireKey
  match v with
  | .str s =>
    match ids.find? fun i => i.1 == s with
    | some i => return Entries.putName entry name (.str i.2)
    | none => return entry
  | _ => return entry

/-- The edge of an entry. -/
def edgeOf (ids : LocalIds) (v : Value) : Except Fault (Edge Value) :=
  match v.unfold with
  | .map entry => do
    let entry ← resolveEnd ids entry "from"
    let entry ← resolveEnd ids entry "to"
    Edge.ofRecord (.map entry)
  | _ => .error (.edge (.entryNotMapping v.typeName))

/-- The entries that decode, and a warning for each one that does not. Only a fault of the record's
values is a warning; any other fault is passed on. -/
def decodeAll {α : Type} (path what : String) (decode : Value → Except Fault α) :
    (index : Nat) → List Value → Except Fault (List α × List Diagnostic)
  | _, [] => .ok ([], [])
  | index, v :: vs => do
    match decode v with
    | .ok a =>
      let (more, diagnostics) ← decodeAll path what decode (index + 1) vs
      return (a :: more, diagnostics)
    | .error f =>
      if !f.isRecordFault then .error f
      let (more, diagnostics) ← decodeAll path what decode (index + 1) vs
      let message := "Skipped " ++ what ++ " #" ++ natText index ++ ": " ++ f.message
      return (more, diagnostic path message Diagnostic.warningSeverity :: diagnostics)

/-- A section of the manifest as a list, with an error if it is anything else. -/
def sectionOf (document : Entries) (path name : String) : List Value × List Diagnostic :=
  match (lookupOr document name (.list [])).unfold with
  | .list items => (items, [])
  | _ => ([], [diagnostic path ("'" ++ name ++ "' must be a list") Diagnostic.errorSeverity])

/-- The result of a manifest that is a mapping. -/
def ofDocument (path : String) (document : Entries) : Except Fault ScanResult := do
  let (rawEntities, entitiesProblem) := sectionOf document path "entities"
  let (entities, entityWarnings) ← decodeAll path "entity" (entityOf document path) 0 rawEntities
  let ids : LocalIds := entities.map fun e => (e.name, e.id)
  let (rawEdges, edgesProblem) := sectionOf document path "edges"
  let (edges, edgeWarnings) ← decodeAll path "edge" (edgeOf ids) 0 rawEdges
  return {
    file := path, entities, edges
    diagnostics := entitiesProblem ++ entityWarnings ++ edgesProblem ++ edgeWarnings }

/-- The name of a text in reports on it. -/
def sourceName : String := "<unicode string>"

/-- Why a text cannot be read, and in which line. -/
def problemOf : Yaml.Failure → Except Fault (String × Option Int)
  | .problem p => .ok (p.cause.words, some (p.mark.line + 1))
  | .character code position => .ok (Yaml.characterReport sourceName code position, none)
  | .fault f _ => .error f

/-- The result of a manifest text. -/
def extract (content path : String) : Except Fault ScanResult := do
  match Yaml.load content.toList with
  | .error failure =>
    let (words, line) ← problemOf failure
    return .ofDiagnostic (diagnostic path ("Invalid manifest: " ++ words) Diagnostic.errorSeverity line)
  | .ok v =>
    match (if v.isVacant then .map [] else v.unfold) with
    | .map document => ofDocument path document
    | v =>
      return .ofDiagnostic
        (diagnostic path ("Manifest must be a mapping, got " ++ v.typeName) Diagnostic.errorSeverity)

def extractor : Extractor where
  name := extractorName
  roles := ExtractorRole.all
  patterns := ["*.impact.yml", "*.impact.yaml", "*.impact.json"]
  extract content path := do return .result (← extract (← Extractor.textOf content) path)

end ChangeImpact.Manifest
