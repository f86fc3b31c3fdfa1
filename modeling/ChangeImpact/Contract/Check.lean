import ChangeImpact.Contract.Family
import ChangeImpact.Graph.Snapshot

/-!
# Checking contracts

`Contract.check` matches the frontend and backend entities of a snapshot and reports pairs with their
mismatches and findings about what could not be matched. Pairs and findings are recomputed from a
snapshot each time.

* A family with one backend member gives a pair for each frontend member.
* A family with several backend members is a duplicate.
* A frontend route and a backend route that are alone on one path with different methods are a pair
  too; every other family with one side only is an orphan.
-/

namespace ChangeImpact

/-- A frontend and a backend entity of one contract. -/
structure ContractPair where
  sort : FamilySort
  key : String
  frontend : String
  backend : String
  basis : MatchBasis
  confidence : Binary64
  mismatches : List Mismatch
deriving DecidableEq, Repr

namespace ContractPair

/-- One of the two is among the given ids. -/
def touches (p : ContractPair) (ids : List String) : Bool :=
  ids.contains p.frontend || ids.contains p.backend

/-- The words of the kinds of mismatches, different ones in order. -/
def mismatchWords (p : ContractPair) : List String :=
  distinctTexts (p.mismatches.map fun m => m.kind.word)

def rank (p : ContractPair) : List String := [p.sort.word, p.key, p.frontend, p.backend]

def toRecord (p : ContractPair) : Value :=
  .record [("family", .str p.sort.word), ("key", .str p.key), ("frontend", .str p.frontend),
    ("backend", .str p.backend), ("match_basis", .str p.basis.word),
    ("confidence", .float p.confidence), ("mismatches", .list (p.mismatches.map Mismatch.toRecord))]

end ContractPair

/-- A problem with a contract that is no mismatch. -/
inductive Finding where
  /-- Several backend entities in one family. -/
  | duplicate (family : FamilyKey) (backend frontend : List String)
  /-- A family with one side only. -/
  | orphan (family : FamilyKey) (side : Layer) (members : List String)
  /-- A route without a path. -/
  | unrouted (id : String) (side : Layer)
deriving DecidableEq, Repr

namespace Finding

def rule : Finding → String
  | .duplicate .. => "DuplicateRoute"
  | .orphan .. => "OrphanContract"
  | .unrouted .. => "UnroutedContract"

def message : Finding → String
  | .duplicate family backend _ =>
    family.sort.title ++ " contract '" ++ family.key ++ "' is registered by " ++
      natText backend.length ++ " backend entities"
  | .orphan family side _ =>
    family.sort.title ++ " contract '" ++ family.key ++ "' has only a " ++ side.word ++ " side"
  | .unrouted id _ =>
    "ApiRoute '" ++ id ++ "' declares no path and is left out of contract matching"

def severity : Finding → String
  | .duplicate .. => "error"
  | .orphan .. | .unrouted .. => "info"

def ids : Finding → List String
  | .duplicate _ backend frontend => backend ++ frontend
  | .orphan _ _ members => members
  | .unrouted id _ => [id]

def details : Finding → Value
  | .duplicate family backend _ =>
    .record [("family", .str family.sort.word), ("key", .str family.key), ("backend", .texts backend)]
  | .orphan family side _ =>
    .record [("family", .str family.sort.word), ("key", .str family.key), ("side", .str side.word)]
  | .unrouted _ side => .record [("side", .str side.word)]

def rank (f : Finding) : List String := f.rule :: f.ids

def toRecord (f : Finding) : Value :=
  .record [("rule", .str f.rule), ("message", .str f.message), ("severity", .str f.severity),
    ("entity_ids", .texts f.ids), ("meta", f.details)]

end Finding

/-- The pairs and findings of one snapshot. -/
structure ConsistencyReport where
  declaredSide : Layer
  snapshotVersion : Nat
  pairs : List ContractPair
  findings : List Finding
deriving DecidableEq, Repr

namespace ConsistencyReport

def pairsFor (r : ConsistencyReport) (id : String) : List ContractPair :=
  r.pairs.filter fun p => p.touches [id]

def findingsOf (r : ConsistencyReport) (rule : String) : List Finding :=
  r.findings.filter fun f => f.rule == rule

def toRecord (r : ConsistencyReport) : Value :=
  .record [("declared_side", .str r.declaredSide.word),
    ("snapshot_version", .nat r.snapshotVersion),
    ("pairs", .list (r.pairs.map ContractPair.toRecord)),
    ("findings", .list (r.findings.map Finding.toRecord))]

end ConsistencyReport

namespace Contract

/-- On one of the two sides of a contract. -/
def hasSide (e : Entity) : Bool := e.layer == some .frontend || e.layer == some .backend

/-- Routes with a path and types with a shape are contracts. -/
def isContract (e : Entity) : Bool :=
  hasSide e &&
    ((e.kind == .apiRoute && !(e.detail "path").isVacant) || (e.kind == .type && e.shape.isSome))

/-- A route without a path. -/
def isUnrouted (e : Entity) : Bool :=
  hasSide e && e.kind == .apiRoute && (e.detail "path").isVacant

/-- An entity with its place. -/
structure Member where
  entity : Entity
  place : Placement

/-- All members of a family by side. -/
structure Family where
  key : FamilyKey
  frontend : List Member
  backend : List Member

def idsOf (members : List Member) : List String := sortTexts (members.map fun m => m.entity.id)

/-- The members of a family on one side, in the order of their ids. -/
def membersOf (members : List Member) (key : FamilyKey) (side : Layer) : List Member :=
  sortByRank (fun m => [m.entity.id])
    (members.filter fun m => m.place.family == key && m.entity.layer == some side)

/-- The families of some members, in order. -/
def families (members : List Member) : List Family :=
  let keys := keepFirst (· == ·) (members.map fun m => m.place.family)
  (sortByRank FamilyKey.rank keys).map fun key =>
    ⟨key, membersOf members key .frontend, membersOf members key .backend⟩

def Family.isDuplicate (f : Family) : Bool := f.backend.length > 1

/-- A family that is no duplicate and lacks a side. -/
def Family.isOrphan (f : Family) : Bool :=
  !f.isDuplicate && (f.frontend.isEmpty || f.backend.isEmpty)

/-- The side that an orphan has. -/
def Family.side (f : Family) : Layer := if f.frontend.isEmpty then .backend else .frontend

/-- The pair of a frontend and a backend member of one family. -/
def pairOf (config : Config) (side : Layer) (f : Family) (frontend backend : Member) :
    ContractPair :=
  let basis := match f.key.sort with
    | .route => .route
    | .shape => frontend.place.basis.stronger backend.place.basis
  { sort := f.key.sort, key := f.key.key
    frontend := frontend.entity.id, backend := backend.entity.id
    basis, confidence := basis.confidence
    mismatches := Mismatch.between config side frontend.entity backend.entity }

/-- The pairs of a family with one backend member. -/
def Family.pairs (config : Config) (side : Layer) (f : Family) : List ContractPair :=
  match f.backend with
  | [backend] => f.frontend.map fun frontend => pairOf config side f frontend backend
  | _ => []

/-- The orphaned routes on a path that have only the given side. -/
def onPath (orphans : List Family) (path : String) (side : Layer) : List Family :=
  orphans.filter fun f => f.key.sort == .route && f.key.path == path && f.side == side

/-- The pair of the only frontend route and the only backend route on a path. -/
def pathPair? (config : Config) (side : Layer) (orphans : List Family) (path : String) :
    Option ContractPair :=
  match onPath orphans path .frontend, onPath orphans path .backend with
  | [f], [b] =>
    match f.frontend, b.backend with
    | [frontend], [backend] =>
      some {
        sort := .route, key := path
        frontend := frontend.entity.id, backend := backend.entity.id
        basis := .routePath, confidence := MatchBasis.routePath.confidence
        mismatches :=
          { kind := .routeMismatch, frontend := some f.key.method, backend := some b.key.method } ::
            Mismatch.between config side frontend.entity backend.entity }
    | _, _ => none
  | _, _ => none

/-- The paths of orphaned routes, different ones in order. -/
def orphanPaths (orphans : List Family) : List String :=
  distinctTexts ((orphans.filter fun f => f.key.sort == .route).map fun f => f.key.path)

/-- The orphan is a member of a pair on its path. -/
def isPathPaired (config : Config) (side : Layer) (orphans : List Family) (f : Family) : Bool :=
  f.key.sort == .route && (pathPair? config side orphans f.key.path).isSome

def duplicateOf (f : Family) : Finding := .duplicate f.key (idsOf f.backend) (idsOf f.frontend)

def orphanOf (f : Family) : Finding :=
  .orphan f.key f.side (idsOf (if f.frontend.isEmpty then f.backend else f.frontend))

def unroutedOf (e : Entity) : Finding := .unrouted e.id (e.layer.getD .shared)

/-- The contract entities of a snapshot with their places. -/
def members (config : Config) (entities : List Entity) : Except Fault (List Member) :=
  (entities.filter isContract).mapM fun e => return ⟨e, ← Placement.of config e⟩

/-- The report on a list of families and on the routes that have none. -/
def reportOn (config : Config) (side : Layer) (version : Nat) (fams : List Family)
    (unrouted : List Entity) : ConsistencyReport :=
  let orphans := fams.filter Family.isOrphan
  let matched := (fams.filter fun f => !f.isDuplicate).flatMap (Family.pairs config side)
  let onPaths := (orphanPaths orphans).filterMap (pathPair? config side orphans)
  let left := orphans.filter fun f => !isPathPaired config side orphans f
  { declaredSide := side
    snapshotVersion := version
    pairs := sortByRank ContractPair.rank (matched ++ onPaths)
    findings := sortByRank Finding.rank
      ((fams.filter Family.isDuplicate).map duplicateOf ++ left.map orphanOf ++
        unrouted.map unroutedOf) }

/-- The side that a value declares, that of the configuration when the value is vacant. -/
def sideOf (config : Config) (v : Value) : Except Fault Layer :=
  if v.isVacant then .ok config.declaredSide else Vocabulary.decode Layer v

/-- The status codes that a pair of routes compares can be written. -/
def hasWritableCodes (s : Snapshot) (p : ContractPair) : Bool :=
  p.sort == .shape || [p.frontend, p.backend].all fun id =>
    (s.entity? id).all fun e => (e.detail "status_codes").isWritable

/-- The pairs of the families before the first duplicate. -/
def pairsBefore (config : Config) (side : Layer) (fams : List Family) : List ContractPair :=
  (fams.takeWhile fun f => !f.isDuplicate).flatMap (Family.pairs config side)

/-- The pairs and findings of a snapshot. Strictly, the first duplicate is a fault, unless the pairs of
a family before it cannot be compared. -/
def check (config : Config) (s : Snapshot) (declaredSide : Value := .null) (strict : Bool := false) :
    Except Fault ConsistencyReport := do
  let side ← sideOf config declaredSide
  let fams := families (← members config s.entities)
  match strict, fams.find? Family.isDuplicate with
  | true, some f =>
    .error (if (pairsBefore config side fams).all (hasWritableCodes s) then
      .duplicateRoute f.key.key (idsOf f.backend) else .value .unwritable)
  | _, _ =>
    let report := reportOn config side s.version fams (s.entities.filter isUnrouted)
    if report.pairs.all (hasWritableCodes s) then return report else .error (.value .unwritable)

end Contract

end ChangeImpact
