import ChangeImpact.Graph.Snapshot

/-!
# Batches

Which of some scan results may enter the graph together. `Batch.propose` finds for each file the one
result that is newer than what the graph has, and `Batch.settle` rejects, round by round, the files
whose entities or edges do not fit the graph that the others would make. A rejected file falls back
to what it contributed before.
-/

namespace ChangeImpact

/-- A file's result that was not accepted, and why. -/
structure Rejection where
  file : String
  cause : MergeFault
deriving DecidableEq, Repr

def Rejection.toRecord (r : Rejection) : Value :=
  .record [("file_path", .str r.file), ("error_type", .str r.cause.name),
    ("message", .str r.cause.message)]

/-- A candidate's file that does not fit the graph, and the cause to report. The fault is that of a cause
that cannot be put in words. -/
structure Misfit where
  file : String
  report : Except Fault MergeFault

/-- The rejection that reports a misfit. -/
def Misfit.rejection (m : Misfit) : Except Fault Rejection := return ⟨m.file, ← m.report⟩

/-- A result that may be merged, with the version it was scanned as, if any. -/
structure Candidate where
  scanned : Option Int
  contribution : Contribution
deriving Repr

namespace Batch

/-- Adds to some entities those with new ids; a second declaration of an id must have the identity of
the first. -/
def addEntities (file : String) : (kept : List Entity) → List Entity → Except MergeFault (List Entity)
  | kept, [] => .ok kept
  | kept, e :: es =>
    match kept.find? fun k => k.id == e.id with
    | none => addEntities file (kept ++ [e]) es
    | some k =>
      if k.identity = e.identity then addEntities file kept es
      else .error (.duplicateId e.id k.identity e.identity file)

/-- The entities of a result, each id once. -/
def entitiesOf (r : ScanResult) : Except MergeFault (List Entity) := addEntities r.file [] r.entities

/-- The edges of a result, each key once. -/
def edgesOf (r : ScanResult) : Except Fault (List (Edge Value)) := do
  r.edges.forM ScanResult.requireKeys
  return keepFirst ScanResult.sameKey r.edges

/-- The results in the order in which they are looked at: by file, then by version. -/
def inOrder (results : List ScanResult) : List ScanResult :=
  results.mergeSort fun a b =>
    Text.lt a.file b.file || (a.file == b.file && a.version.getD 0 ≤ b.version.getD 0)

/-- What is known about the scan versions of a file. -/
structure Versions where
  /-- The version in the graph, zero if there never was one. -/
  committed : String → Int
  /-- The highest version handed out or committed. -/
  latest : String → Int

/-- The version of a result: its own, or the next one for the file. -/
def versionOf (v : Versions) (r : ScanResult) : Int := r.version.getD (v.latest r.file + 1)

/-- Candidates by file and what was rejected so far. -/
structure Proposal where
  candidates : Table Candidate := []
  rejections : List Rejection := []
deriving Repr

/-- A newer result takes the place of a candidate for the same file. -/
def supersede (p : Proposal) (file : String) (version : Int) : Proposal :=
  match p.candidates.get? file with
  | some c =>
    { candidates := p.candidates.erase file
      rejections := p.rejections ++ [⟨file, .stale file (c.scanned.getD 0) version⟩] }
  | none => p

/-- Looks at one result: it must be newer than the graph and declare no id twice. -/
def proposeOne (v : Versions) (p : Proposal) (r : ScanResult) : Except Fault Proposal := do
  let version := versionOf v r
  let p := supersede p r.file version
  if version ≤ v.committed r.file then
    return { p with
      rejections := p.rejections ++ [⟨r.file, .stale r.file version (v.committed r.file)⟩] }
  match entitiesOf r with
  | .error cause => return { p with rejections := p.rejections ++ [⟨r.file, cause⟩] }
  | .ok entities =>
    let edges ← edgesOf r
    let c : Candidate := ⟨r.version, ⟨r.file, version, entities, edges⟩⟩
    return { p with candidates := p.candidates.insert r.file c }

/-- Looks at all results in order. -/
def propose (v : Versions) (results : List ScanResult) : Except Fault Proposal :=
  (inOrder results).foldlM (proposeOne v) {}

/-- An id with its identity and the file that declares it. -/
abbrev Known := List (String × Identity × String)

/-- The ids that a contribution declares. -/
def known (c : Contribution) : Known := c.entities.map fun e => (e.id, e.identity, c.file)

/-- The ids of the contributions that a batch leaves as they are, in path order. -/
def background (current : Table Contribution) (accepted : Table Candidate) : Known :=
  (current.filter fun c => !accepted.contains c.1).flatMap fun c => known c.2

/-- The first entity of a contribution whose id is known under another identity. -/
def conflict? (ids : Known) (c : Contribution) : Option MergeFault :=
  c.entities.findSome? fun e =>
    match ids.lookup e.id with
    | some (identity, owner) =>
      if identity = e.identity then none else some (.duplicateId e.id identity e.identity owner)
    | none => none

/-- Adds contributions to the known ids in order; those in conflict are left out and listed. -/
def enroll : (ids : Known) → List Contribution → Known × List Misfit
  | ids, [] => (ids, [])
  | ids, c :: cs =>
    match conflict? ids c with
    | some cause =>
      let (all, misfits) := enroll ids cs
      (all, ⟨c.file, .ok cause⟩ :: misfits)
    | none => enroll (ids ++ known c) cs

/-- The end of an edge that is not among some ids, the source first. -/
def missing? (ids : List String) (e : Edge Value) : Option Value :=
  let declared (v : Value) : Bool := match v with
    | .str s => ids.contains s
    | _ => false
  if !declared e.source then some e.source
  else if !declared e.target then some e.target
  else none

/-- What is reported on an edge with an end that is missing. -/
def danglingReport (e : Edge Value) (missing : Value) : Except Fault MergeFault :=
  return .danglingEdge (← e.source.toText) (← e.target.toText) (← missing.toText)

/-- The report on the first edge of a contribution with an end that is not declared. -/
def dangling? (ids : List String) (c : Contribution) : Option (Except Fault MergeFault) :=
  c.edges.findSome? fun e => (missing? ids e).map (danglingReport e)

/-- The files rejected in one round: those in conflict, or else those with an edge that dangles. -/
def round (current : Table Contribution) (accepted : Table Candidate) : List Misfit :=
  let contributions := accepted.values.map Candidate.contribution
  let (ids, conflicts) := enroll (background current accepted) contributions
  if !conflicts.isEmpty then conflicts else
    contributions.filterMap fun c => (dangling? (ids.map (·.1)) c).map fun report => ⟨c.file, report⟩

/-- Rejects files round by round until none is rejected. -/
def settleFrom (current : Table Contribution) :
    (fuel : Nat) → (accepted : Table Candidate) → (misfits : List Misfit) →
      Table Candidate × List Misfit
  | 0, accepted, misfits => (accepted, misfits)
  | fuel + 1, accepted, misfits =>
    match round current accepted with
    | [] => (accepted, misfits)
    | rejected =>
      let out := rejected.map Misfit.file
      settleFrom current fuel (accepted.filter fun c => !out.contains c.1) (misfits ++ rejected)

/-- The candidates that fit together and those that do not. Each round rejects a candidate, so there
are no more rounds than candidates. -/
def settle (current : Table Contribution) (candidates : Table Candidate) :
    Table Candidate × List Misfit :=
  settleFrom current candidates.length candidates []

end Batch

end ChangeImpact
