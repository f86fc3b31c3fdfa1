import ChangeImpact.Kind
import ChangeImpact.Store.Batch

/-!
# Scan reports

What became of each file of a scan, and what is still outstanding after several scans. A gap is a file
whose content is not reflected in the graph; it stays until the file is scanned again.
-/

namespace ChangeImpact

/-- A file that the graph does not reflect, and why. -/
structure Gap where
  file : String
  reason : String
deriving DecidableEq, Repr

namespace Gap

def rank (g : Gap) : List String := [g.file, g.reason]

def toRecord (g : Gap) : Value := .record [("file_path", .str g.file), ("reason", .str g.reason)]

end Gap

/-- The outcome of one scan. -/
structure ScanReport where
  status : Status := .completed
  merged : List String := []
  diagnostics : List Diagnostic := []
  rejections : List Rejection := []
  /-- Files with error diagnostics. -/
  excluded : List String := []
  /-- Files that no extractor handles. -/
  unhandled : List String := []
  /-- Files that were skipped because the scan was cancelled. -/
  notScanned : List String := []
  graphVersion : Nat := 0
deriving Repr

namespace ScanReport

/-- The files that the graph does not reflect, in order. -/
def gaps (r : ScanReport) : List Gap :=
  sortByRank Gap.rank
    (r.excluded.map (⟨·, "parse_error"⟩) ++ r.rejections.map (fun x => ⟨x.file, x.cause.name⟩) ++
      r.notScanned.map (⟨·, "cancelled"⟩))

def toRecord (r : ScanReport) : Value :=
  .record [("status", .str r.status.word), ("graph_version", .nat r.graphVersion),
    ("merged", .texts r.merged), ("diagnostics", .list (r.diagnostics.map Diagnostic.toRecord)),
    ("errors", .list (r.rejections.map Rejection.toRecord)), ("unhandled", .texts r.unhandled),
    ("gaps", .list (r.gaps.map Gap.toRecord))]

end ScanReport

/-- Diagnostics and gaps that are outstanding after several scans. -/
structure ScanState where
  /-- How the latest scan ended. -/
  status : Status := .completed
  diagnosticsByFile : Table (List Diagnostic) := []
  /-- Reasons by file. -/
  gapsByFile : Table (List String) := []
deriving Repr

namespace ScanState

/-- Drops everything about a file. -/
def forget (s : ScanState) (file : String) : ScanState :=
  { s with
    diagnosticsByFile := s.diagnosticsByFile.erase file
    gapsByFile := s.gapsByFile.erase file }

def addDiagnostic (s : ScanState) (d : Diagnostic) : ScanState :=
  let before := (s.diagnosticsByFile.get? d.file).getD []
  { s with diagnosticsByFile := s.diagnosticsByFile.insert d.file (before ++ [d]) }

/-- Adds a reason that is not listed yet. -/
def addGap (s : ScanState) (g : Gap) : ScanState :=
  let before := (s.gapsByFile.get? g.file).getD []
  if before.contains g.reason then s
  else { s with gapsByFile := s.gapsByFile.insert g.file (before ++ [g.reason]) }

/-- Replaces what is known about the files that a scan looked at. -/
def record (s : ScanState) (files : List String) (r : ScanReport) : ScanState :=
  let scanned := files.filter fun f => !r.notScanned.contains f
  let cleared := scanned.foldl forget { s with status := r.status }
  r.gaps.foldl addGap (r.diagnostics.foldl addDiagnostic cleared)

/-- All diagnostics, in the order of the files. -/
def diagnostics (s : ScanState) : List Diagnostic := s.diagnosticsByFile.values.flatten

/-- All gaps, in order. -/
def gaps (s : ScanState) : List Gap :=
  sortByRank Gap.rank (s.gapsByFile.flatMap fun e => e.2.map (⟨e.1, ·⟩))

def toRecord (s : ScanState) : Value :=
  .record [("status", .str s.status.word),
    ("diagnostics", .list (s.diagnostics.map Diagnostic.toRecord)),
    ("gaps", .list (s.gaps.map Gap.toRecord))]

end ScanState

end ChangeImpact
