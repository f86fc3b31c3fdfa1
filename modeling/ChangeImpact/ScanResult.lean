import ChangeImpact.Distinct
import ChangeImpact.Edge

/-!
# Scan results

What one extractor found in one file: entities, edges and diagnostics. The results of several
extractors for one file are combined with `ScanResult.combine`, which keeps equal entities and edges
with equal keys once.
-/

namespace ChangeImpact

/-- A problem that an extractor reports without giving up. -/
structure Diagnostic where
  file : String
  message : String
  severity : String
  line : Option Int := none
  extractor : Option String := none
deriving DecidableEq, Repr

namespace Diagnostic

/-- The severity that keeps a file from being merged. -/
def errorSeverity : String := "error"

def warningSeverity : String := "warning"

def isError (d : Diagnostic) : Bool := d.severity == errorSeverity

def toRecord (d : Diagnostic) : Value :=
  .record [("file_path", .str d.file), ("message", .str d.message), ("severity", .str d.severity),
    ("line", match d.line with | some n => .int n | none => .null),
    ("extractor", .text? d.extractor)]

end Diagnostic

/-- The outcome of one extractor run over one file. -/
structure ScanResult where
  file : String
  entities : List Entity := []
  edges : List (Edge Value) := []
  diagnostics : List Diagnostic := []
  /-- The order among scans of the file; without one the next version is assigned on merge. -/
  version : Option Int := none
deriving Repr

namespace ScanResult

/-- A file with an error must not be merged. -/
def hasErrors (r : ScanResult) : Bool := r.diagnostics.any Diagnostic.isError

/-- A result that consists of one diagnostic. -/
def ofDiagnostic (d : Diagnostic) : ScanResult := { file := d.file, diagnostics := [d] }

/-- Edges agree when their keys do. -/
def sameKey (a b : Edge Value) : Bool := a.key == b.key

/-- Both ends of an edge can be looked up. -/
def requireKeys (e : Edge Value) : Except Fault Unit := do
  e.source.requireKey
  e.target.requireKey

/-- All results for one file as one. -/
def combine (file : String) (results : List ScanResult) : Except Fault ScanResult := do
  let edges := results.flatMap ScanResult.edges
  edges.forM requireKeys
  return {
    file
    entities := keepFirst Entity.same (results.flatMap ScanResult.entities)
    edges := keepFirst sameKey edges
    diagnostics := results.flatMap ScanResult.diagnostics }

end ScanResult

end ChangeImpact
