import ChangeImpact.Store.Batch
import ChangeImpact.Store.Database

/-!
# The graph store

The contributions of all files, replaced file by file. Every operation gives back the store it leaves
behind, also when it fails.

* `Store.mergeBatch` merges results; each file is accepted or rejected as a whole.
* `Store.reserve` hands out scan versions, so that of two scans of a file the later one wins.
* `Store.snapshot` is the graph, kept until the next change.
* A store with a database writes there first and changes only if that succeeds.
-/

namespace ChangeImpact

/-- The contributions of all files. -/
structure Store where
  contributions : Table Contribution := []
  /-- The last committed scan version of each file, kept when the file is removed. -/
  versions : Table Int := []
  /-- The highest scan version handed out for each file. -/
  issued : Table Int := []
  /-- Counts the changes of the graph. -/
  version : Nat := 0
  /-- The snapshot of this version, once it was asked for. -/
  cache : Option Snapshot := none
  database : Option Database := none
deriving Repr

/-- What became of a batch. -/
structure MergeOutcome where
  merged : List String
  rejections : List Rejection
  graphVersion : Nat
deriving DecidableEq, Repr

namespace Store

/-- The store with the contributions of a database. -/
def restore (db : Database) : Except Fault Store := do
  let contributions ← db.contributions
  let versions ← db.versions
  return {
    contributions := contributions.map fun c => (c.file, c)
    versions
    version := if contributions.isEmpty then 0 else 1
    database := some db }

/-- The committed scan version of a file, zero if there is none. -/
def committed (s : Store) (file : String) : Int := (s.versions.get? file).getD 0

/-- The highest scan version of a file that was handed out or committed. -/
def latest (s : Store) (file : String) : Int := max ((s.issued.get? file).getD 0) (s.committed file)

/-- The scan version that the next reservation gives. -/
def nextVersion (s : Store) (file : String) : Int := s.latest file + 1

/-- Hands out the next scan version of a file. -/
def reserve (s : Store) (file : String) : Store × Int :=
  let version := s.nextVersion file
  ({ s with issued := s.issued.insert file version }, version)

/-- The store after a change of its contributions. -/
def changed (s : Store) (contributions : Table Contribution) : Store :=
  { s with contributions, version := s.version + 1, cache := none }

/-- The snapshot built from the current contributions. -/
def buildSnapshot (s : Store) : Except Fault Snapshot :=
  Snapshot.build s.version s.contributions.values

/-- The current graph. -/
def snapshot (s : Store) : Store × Except Fault Snapshot :=
  match s.cache with
  | some view => (s, .ok view)
  | none =>
    match s.buildSnapshot with
    | .ok view => ({ s with cache := some view }, .ok view)
    | .error f => (s, .error f)

/-- The store with accepted contributions in place of what their files contributed before. -/
def commit (s : Store) (accepted : List Contribution) : Store :=
  { s.changed (accepted.foldl (fun t c => t.insert c.file c) s.contributions) with
    versions := accepted.foldl (fun t c => t.insert c.file c.version) s.versions }

/-- A write to the database, if there is one. -/
def write (s : Store) (f : Database → Except Fault Database) : Except Fault Store :=
  match s.database with
  | none => .ok s
  | some db => return { s with database := some (← f db) }

/-- The candidates that a batch brings into the graph and the rejections. -/
def judge (s : Store) (results : List ScanResult) :
    Except Fault (List Contribution × List Rejection) := do
  let proposal ← Batch.propose ⟨s.committed, s.latest⟩ results
  let (accepted, misfits) := Batch.settle s.contributions proposal.candidates
  let rejections ← misfits.mapM Misfit.rejection
  return (accepted.values.map Candidate.contribution, proposal.rejections ++ rejections)

/-- Merges a batch, or changes nothing. -/
def tryMerge (s : Store) (results : List ScanResult) : Except Fault (Store × MergeOutcome) := do
  let (accepted, rejections) ← s.judge results
  if accepted.isEmpty then return (s, ⟨[], rejections, s.version⟩)
  let written ← s.write fun db => db.replace accepted
  let next := written.commit accepted
  return (next, ⟨accepted.map Contribution.file, rejections, next.version⟩)

/-- Merges scan results; each file is accepted or rejected as a whole, and what any accepted file
declares counts for the edges of all. -/
def mergeBatch (s : Store) (results : List ScanResult) : Store × Except Fault MergeOutcome :=
  match s.tryMerge results with
  | .ok (next, outcome) => (next, .ok outcome)
  | .error f => (s, .error f)

/-- Merges one scan result and gives the version committed for its file. -/
def merge (s : Store) (r : ScanResult) : Store × Except Fault Int :=
  match s.mergeBatch [r] with
  | (next, .error f) => (next, .error f)
  | (next, .ok outcome) =>
    match outcome.rejections with
    | rejection :: _ => (next, .error (.merge rejection.cause))
    | [] => (next, .ok (next.committed r.file))

/-- Retracts the contribution of a file; false if there is none. -/
def remove (s : Store) (file : String) : Store × Except Fault Bool :=
  if !s.contributions.contains file then (s, .ok false) else
    match s.write fun db => db.delete file with
    | .error f => (s, .error f)
    | .ok written => (written.changed (written.contributions.erase file), .ok true)

/-- A result without its version if that is not newer than the committed one. -/
def refreshed (s : Store) (r : ScanResult) : ScanResult :=
  match r.version with
  | some v => if s.committed r.file < v then r else { r with version := none }
  | none => r

/-- Drops all contributions and merges a batch into the empty graph. -/
def rebuild (s : Store) (results : List ScanResult) : Store × Except Fault MergeOutcome :=
  match s.write Database.clear with
  | .error f => (s, .error f)
  | .ok written => (written.changed []).mergeBatch (results.map s.refreshed)

end Store

end ChangeImpact
