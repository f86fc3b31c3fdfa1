import ChangeImpact.Graph.Snapshot
import ChangeImpact.Json.Document

/-!
# The graph database

Contributions in storage: three tables by file, with the scan version, the entities and the edges.
A file that was removed keeps its scan version but is not active. Every write is one transaction: it
gives a new database, or a fault and no change.
-/

namespace ChangeImpact

/-- A stored file. -/
structure FileRow where
  version : Int
  active : Bool
deriving DecidableEq, Repr

/-- The tables of a database, each of which can be missing. -/
structure Database where
  path : String
  files : Option (Table FileRow) := some []
  entities : Option (Table (List Document)) := some []
  edges : Option (Table (List Document)) := some []
deriving Repr

/-- What is found at the path of a database. -/
inductive DatabaseFile where
  /-- Nothing, or a file with nothing in it. -/
  | fresh
  /-- The directory of the path does not exist, or the path is that of a directory. -/
  | unreachable
  /-- A file of another format. -/
  | foreign
  /-- No file: every connection finds a database of its own with nothing in it. -/
  | transient
deriving DecidableEq, Repr

/-- What a file with some text is; a single byte is still taken for nothing. -/
def DatabaseFile.ofText (s : String) : DatabaseFile :=
  if (Text.bytes s).length ≤ 1 then .fresh else .foreign

namespace Database

/-- Opens a database for the first time. -/
def create (path : String) : DatabaseFile → Except Fault Database
  | .fresh => .ok { path }
  | .unreachable => .error (.storage (.cannotOpen path "unable to open database file"))
  | .foreign => .error (.storage (.cannotInitialize path "file is not a database"))
  | .transient => .ok { path, files := none, entities := none, edges := none }

/-- The database with its missing tables made anew, as it is after each opening. -/
def prepare (db : Database) : Database :=
  { db with
    files := some (db.files.getD [])
    entities := some (db.entities.getD [])
    edges := some (db.edges.getD []) }

/-- A table that must exist; `fault` says what failed. -/
def require {α : Type} (name : String) (fault : String → StorageFault) :
    Option α → Except Fault α
  | some t => .ok t
  | none => .error (.storage (fault ("no such table: " ++ name)))

/-- An integer that the database can hold. -/
def isStorable (n : Int) : Bool := -Int.pow 2 63 ≤ n && n < Int.pow 2 63

/-- A text that the database can hold. -/
def requireEncodable (s : String) : Except Fault Unit :=
  if Text.hasHalf s then .error .unencodableText else .ok ()

/-- Replaces the rows of one file. -/
def write (fault : String → StorageFault) (db : Database) (c : Contribution) :
    Except Fault Database := do
  let entities ← require "entities" fault db.entities
  requireEncodable c.file
  let edges ← require "edges" fault db.edges
  let files ← require "files" fault db.files
  if !isStorable c.version then .error (.overflow .storedInt)
  let entityRows ← c.entities.mapM fun e => Document.ofValue e.toRecord
  c.entities.forM fun e => requireEncodable e.id
  let edgeRows ← c.edges.mapM fun e => Document.ofValue e.toRecord
  return { db with
    files := some (files.insert c.file ⟨c.version, true⟩)
    entities := some (entities.insert c.file entityRows)
    edges := some (edges.insert c.file edgeRows) }

/-- Replaces the rows of several files, of all or none. -/
def replace (db : Database) (cs : List Contribution) : Except Fault Database :=
  cs.foldlM (write (.persist (cs.map Contribution.file))) db

/-- Drops the rows of a file and keeps its scan version. -/
def delete (db : Database) (file : String) : Except Fault Database := do
  let entities ← require "entities" (.delete file) db.entities
  requireEncodable file
  let edges ← require "edges" (.delete file) db.edges
  let files ← require "files" (.delete file) db.files
  return { db with
    files := some (files.map fun r => if r.1 = file then (r.1, { r.2 with active := false }) else r)
    entities := some (entities.erase file)
    edges := some (edges.erase file) }

/-- Drops the rows of all files and keeps their scan versions. -/
def clear (db : Database) : Except Fault Database := do
  let _ ← require "entities" .clear db.entities
  let _ ← require "edges" .clear db.edges
  let files ← require "files" .clear db.files
  return { db with
    files := some (files.map fun r => (r.1, { r.2 with active := false }))
    entities := some []
    edges := some [] }

/-- The scan versions of all files, also of removed ones. -/
def versions (db : Database) : Except Fault (Table Int) := do
  let files ← require "files" .loadVersions db.files
  return files.map fun r => (r.1, r.2.version)

/-- A record that does not decode is corrupt, unless the fault is one of its types. -/
def corrupt {α : Type} (db : Database) : Except Fault α → Except Fault α
  | .ok a => .ok a
  | .error f =>
    match f with
    | .key literal => .error (.storage (.corrupt db.path literal))
    | _ => .error (if f.isValueFault then .storage (.corrupt db.path f.message) else f)

/-- Decodes the rows of a table. -/
def decodeRows {α : Type} (decode : Value → Except Fault α) (rows : Table (List Document)) :
    Except Fault (Table (List α)) :=
  rows.mapM fun r => return (r.1, ← r.2.mapM fun d => do decode (← d.read))

/-- The contributions of all active files, in path order. -/
def contributions (db : Database) : Except Fault (List Contribution) := do
  let files ← require "files" .load db.files
  let entityRows ← require "entities" .load db.entities
  let edgeRows ← require "edges" .load db.edges
  let entities ← db.corrupt (decodeRows Entity.ofRecord entityRows)
  let edges ← db.corrupt (decodeRows Edge.ofRecord edgeRows)
  return (files.filter fun r => r.2.active).map fun r =>
    { file := r.1, version := r.2.version
      entities := (entities.get? r.1).getD [], edges := (edges.get? r.1).getD [] }

/-- A statement on a table that must exist. -/
def onTable {α : Type} (name : String) : Option α → Except Fault α
  | some t => .ok t
  | none => .error (.statement ("no such table: " ++ name))

/-- The database without a table. -/
def drop (db : Database) (table : String) : Except Fault Database :=
  match table with
  | "files" => do
    let _ ← onTable table db.files
    return { db with files := none }
  | "entities" => do
    let _ ← onTable table db.entities
    return { db with entities := none }
  | "edges" => do
    let _ ← onTable table db.edges
    return { db with edges := none }
  | _ => .error (.statement ("no such table: " ++ table))

/-- Sets the text of every row of a table. -/
def overwrite (db : Database) (table text : String) : Except Fault Database := do
  let set (rows : Table (List Document)) : Table (List Document) :=
    rows.map fun r => (r.1, r.2.map fun _ => Document.ofText text)
  match table with
  | "entities" => do
    let rows ← onTable table db.entities
    requireEncodable text
    return { db with entities := some (set rows) }
  | "edges" => do
    let rows ← onTable table db.edges
    requireEncodable text
    return { db with edges := some (set rows) }
  | "files" => do
    let _ ← onTable table db.files
    .error (.statement "no such column: data")
  | _ => .error (.statement ("no such table: " ++ table))

end Database

end ChangeImpact
