import ChangeImpact.Extract.Registry
import ChangeImpact.Scan.Report
import ChangeImpact.Scan.Token
import ChangeImpact.Store.Basic

/-!
# Scanning

A scan extracts every file of a set and merges the results as one batch. Each file gets its scan
version before it is extracted, so that of two scans the one started later wins. A file with error
diagnostics is left out and keeps what it contributed before.
-/

namespace ChangeImpact

/-- What became of the extraction of a file. -/
inductive Fate where
  | cancelled
  /-- No extractor handles the file. -/
  | unhandled
  | extracted (r : ScanResult)
deriving Repr

def Fate.word : Fate → String
  | .cancelled => "cancelled"
  | .unhandled => "unhandled"
  | .extracted _ => "extracted"

namespace Scan

/-- Extracts one file, unless the token says to stop. -/
def extractFile (registry : Registry) (s : Store) (token : Token) (path : String)
    (content : Value) : Store × Except Fault Fate :=
  if token.stops then (s, .ok .cancelled) else
    let (next, version) := s.reserve path
    match registry.extract content path with
    | .error f => (next, .error f)
    | .ok none => (next, .ok .unhandled)
    | .ok (some r) => (next, .ok (.extracted { r with version := some version }))

/-- Extracts files in order. After a fault the others are still extracted, unless the files are
worked on one at a time. -/
def extractAll (registry : Registry) (oneByOne : Bool) :
    Store → Token → Table Value → Store × Except Fault (List (String × Fate))
  | s, _, [] => (s, .ok [])
  | s, token, (path, content) :: files =>
    match extractFile registry s token path content with
    | (next, .error f) =>
      if oneByOne then (next, .error f)
      else ((extractAll registry oneByOne next token.next files).1, .error f)
    | (next, .ok fate) =>
      match extractAll registry oneByOne next token.next files with
      | (last, .error f) => (last, .error f)
      | (last, .ok fates) => (last, .ok ((path, fate) :: fates))

/-- The results of extracted files. -/
def resultsOf (fates : List (String × Fate)) : List (String × ScanResult) :=
  fates.filterMap fun e =>
    match e.2 with
    | .extracted r => some (e.1, r)
    | _ => none

def cancelledOf (fates : List (String × Fate)) : List String :=
  fates.filterMap fun e =>
    match e.2 with
    | .cancelled => some e.1
    | _ => none

def unhandledOf (fates : List (String × Fate)) : List String :=
  fates.filterMap fun e =>
    match e.2 with
    | .unhandled => some e.1
    | _ => none

/-- The report on a scan with what became of its files and of the batch. -/
def reportOn (fates : List (String × Fate)) (outcome : MergeOutcome) : ScanReport :=
  let results := resultsOf fates
  let notScanned := cancelledOf fates
  { status := if notScanned.isEmpty then .completed else .cancelled
    merged := outcome.merged
    diagnostics := results.flatMap fun r => r.2.diagnostics
    rejections := outcome.rejections
    excluded := (results.filter fun r => r.2.hasErrors).map (·.1)
    unhandled := unhandledOf fates
    notScanned
    graphVersion := outcome.graphVersion }

/-- Extracts files and merges the results into a store, or rebuilds the store from them. -/
def run (registry : Registry) (s : Store) (token : Token) (oneByOne rebuild : Bool)
    (files : Table Value) : Store × Except Fault ScanReport :=
  match extractAll registry oneByOne s token files with
  | (next, .error f) => (next, .error f)
  | (next, .ok fates) =>
    let mergeable := ((resultsOf fates).filter fun r => !r.2.hasErrors).map (·.2)
    match if rebuild then next.rebuild mergeable else next.mergeBatch mergeable with
    | (last, .error f) => (last, .error f)
    | (last, .ok outcome) => (last, .ok (reportOn fates outcome))

end Scan

end ChangeImpact
